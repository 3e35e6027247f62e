import KeyAtlas.Value
/-!
Tokens of a YAML document. Indentation stands as tokens of its own, and the token of a key comes
before the node that it introduces.
-/

namespace KeyAtlas.Yaml

inductive Fault where
  | malformed
  /-- An escape names no character. Code points beyond 31 bits are told apart. -/
  | badEscape (beyondWord : Bool)
  | badNumeral
  | emptyNumeral
  | weightTooLarge
  | badFlag
  | badDate
  | notDate
  | dateInMapping
  /-- The document nests too deeply, or a text refers to itself. -/
  | tooDeep
  deriving DecidableEq, Repr

/-- What a scalar says. An escape may name half of a surrogate pair, which is no character; a text
with such halves is known by its code points. -/
inductive Wording where
  | text (s : String)
  | points (codes : List Nat)
  deriving DecidableEq, Repr

namespace Wording

def ofPoints (codes : List Nat) : Wording :=
  if codes.any Value.isHalf then .points codes else .text (.ofList (codes.map Char.ofNat))

def shown : Wording → String
  | text s => s
  | points codes => Value.shownPoints codes

end Wording

inductive Token where
  | version (major : Nat)
  | tagHandle (handle expansion : String)
  | otherDirective
  | documentStart
  | documentEnd
  | streamEnd
  | blockSequenceStart
  | blockMappingStart
  | blockEnd
  | flowSequenceStart
  | flowSequenceEnd
  | flowMappingStart
  | flowMappingEnd
  | blockEntry
  | flowEntry
  | key
  | value
  | alias (name : String)
  | anchor (name : String)
  | tag (handle : Option String) (suffix : String)
  | scalar (wording : Wording) (plain : Bool)
  | unreadable (fault : Fault)
  deriving DecidableEq, Repr

end KeyAtlas.Yaml
