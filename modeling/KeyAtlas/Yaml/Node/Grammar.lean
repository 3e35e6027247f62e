import KeyAtlas.Yaml.Node
import KeyAtlas.Yaml.Token
/-!
From tokens to the graph of a document. The fuel of these functions bounds how many tokens they
read and how deeply they nest.
-/

namespace KeyAtlas.Yaml

structure Reader where
  tokens : List Token
  graph : Graph
  anchors : List (String × Nat)
  handles : List (String × String)
  depth : Nat

abbrev Reads (α : Type) := StateT Reader (Except Fault) α

namespace Reads

def fail {α : Type} (fault : Fault) : Reads α :=
  fun _ => .error fault

/-- The next token. What cannot be read ends the reading where it comes up. -/
def peek : Reads Token := fun r =>
  match r.tokens with
  | [] => .error .malformed
  | .unreadable fault :: _ => .error fault
  | token :: _ => .ok (token, r)

def advance : Reads Unit :=
  modify fun r => { r with tokens := r.tokens.drop 1 }

def expect (token : Token) : Reads Unit := do
  if (← peek) = token then advance else fail .malformed

def anchored? (name : String) : Reads (Option Nat) := do
  return (← get).anchors.lookup name

def push (anchor : Option String) (node : Node) : Reads Nat := do
  let number := (← get).graph.size
  modify fun r =>
    { r with
      graph := r.graph.push node
      anchors := (anchor.map fun name => (name, number)).toList ++ r.anchors }
  return number

/-- How many collections can nest. This stands for a bound on nested calls, of which a collection takes
two. What is left of them depends on where a document is read from, so that fewer collections can nest
in the configuration of a command. -/
def deepest : Nat :=
  488

def inside {α : Type} (parts : Reads α) : Reads α := do
  if deepest ≤ (← get).depth then fail .tooDeep
  else
    modify fun r => { r with depth := r.depth + 1 }
    let found ← parts
    modify fun r => { r with depth := r.depth - 1 }
    return found

end Reads

open Reads

structure Properties where
  anchor : Option String
  tag : Option String

namespace Properties

def isEmpty (p : Properties) : Bool :=
  p.anchor.isNone && p.tag.isNone

def openTag : String :=
  "!"

/-- The type of a node whose own type is `natural` unless a tag says otherwise. -/
def tagOr (p : Properties) (natural : Tag) : Tag :=
  match p.tag with
  | none => natural
  | some name => if name = openTag then natural else .ofName name

/-- The type of a scalar. An open tag lets also a quoted scalar look like what it is. -/
def scalarTag (p : Properties) (wording : Wording) (plain : Bool) : Tag :=
  p.tagOr (if plain || p.tag = some openTag then .ofPlain wording.shown else .text)

def scalar (p : Properties) (wording : Wording) (plain : Bool) : Node :=
  ⟨p.scalarTag wording plain, .scalar wording⟩

end Properties

def fullTag (handle : Option String) (suffix : String) : Reads String :=
  match handle with
  | none => pure suffix
  | some handle => do
    match (← get).handles.lookup handle with
    | some expansion => pure (expansion ++ suffix)
    | none => fail .malformed

def optionalAnchor : Reads (Option String) := do
  match ← peek with
  | .anchor name => advance; pure (some name)
  | _ => pure none

def optionalTag : Reads (Option (Option String × String)) := do
  match ← peek with
  | .tag handle suffix => advance; pure (some (handle, suffix))
  | _ => pure none

/-- An anchor and a tag, each at most once and in either order. An anchor must be new. -/
def properties : Reads Properties := do
  let first ← optionalAnchor
  let tag ← optionalTag
  let anchor ← if first.isNone && tag.isSome then optionalAnchor else pure first
  let name ← match tag with
    | none => pure none
    | some (handle, suffix) => some <$> fullTag handle suffix
  match anchor with
  | none => pure ()
  | some name => if (← anchored? name).isSome then fail .malformed else pure ()
  return ⟨anchor, name⟩

/-- Where a node stands: block collections stand only in block context, and a sequence without an
indentation of its own only as the key or value of a block mapping. -/
structure Place where
  inBlock : Bool
  indentless : Bool

def blockPlace : Place :=
  ⟨true, false⟩

def mappingPlace : Place :=
  ⟨true, true⟩

def flowPlace : Place :=
  ⟨false, false⟩

def endsIndentlessEntry (token : Token) : Bool :=
  [Token.blockEntry, .key, .value, .blockEnd].contains token

def endsBlockEntry (token : Token) : Bool :=
  [Token.key, .value, .blockEnd].contains token

def nothing : Reads Nat :=
  push none .empty

/-- A sequence. Its anchor stands for it already inside itself. -/
def sequenceOf (p : Properties) (items : Reads (List Nat)) : Reads Nat := do
  let number ← push p.anchor (.openSequence (p.tagOr .sequence))
  let found ← inside items
  modify fun r => { r with graph := r.graph.setContent number (.sequence found) }
  return number

def mappingOf (p : Properties) (entries : Reads (List (Nat × Nat))) : Reads Nat := do
  let number ← push p.anchor (.openMapping (p.tagOr .mapping))
  let found ← inside entries
  modify fun r => { r with graph := r.graph.setContent number (.mapping [] found) }
  return number

def pairOf (entry : Reads (Nat × Nat)) : Reads Nat :=
  mappingOf ⟨none, none⟩ (List.singleton <$> entry)

mutual

def node : Nat → Place → Reads Nat
  | 0, _ => fail .malformed
  | fuel + 1, place => do
    match ← peek with
    | .alias name =>
      advance
      match ← anchored? name with
      | some found => pure found
      | none => fail .malformed
    | _ =>
      let p ← properties
      content fuel place p

def content : Nat → Place → Properties → Reads Nat
  | 0, _, _ => fail .malformed
  | fuel + 1, place, p => do
    let token ← peek
    if token = .blockEntry && place.indentless then
      sequenceOf p (indentlessItems fuel)
    else match token with
      | .scalar wording plain => advance; push p.anchor (p.scalar wording plain)
      | .flowSequenceStart => advance; sequenceOf p (flowItems fuel true)
      | .flowMappingStart => advance; mappingOf p (flowEntries fuel true)
      | other =>
        if other = .blockSequenceStart && place.inBlock then do
          advance
          sequenceOf p (blockItems fuel)
        else if other = .blockMappingStart && place.inBlock then do
          advance
          mappingOf p (blockEntries fuel)
        else if p.isEmpty then fail .malformed
        else push p.anchor (p.scalar (.text "") true)

def optionalNode : Nat → Place → (Token → Bool) → Reads Nat
  | 0, _, _ => fail .malformed
  | fuel + 1, place, ends => do
    if ends (← peek) then nothing else node fuel place

def valueNode : Nat → Place → (Token → Bool) → Reads Nat
  | 0, _, _ => fail .malformed
  | fuel + 1, place, ends => do
    if (← peek) = .value then
      advance
      optionalNode fuel place ends
    else nothing

def blockItems : Nat → Reads (List Nat)
  | 0 => fail .malformed
  | fuel + 1 => do
    if (← peek) = .blockEntry then
      advance
      let item ← optionalNode fuel blockPlace [Token.blockEntry, .blockEnd].contains
      return item :: (← blockItems fuel)
    else
      expect .blockEnd
      return []

def indentlessItems : Nat → Reads (List Nat)
  | 0 => fail .malformed
  | fuel + 1 => do
    if (← peek) = .blockEntry then
      advance
      let item ← optionalNode fuel blockPlace endsIndentlessEntry
      return item :: (← indentlessItems fuel)
    else return []

def blockEntries : Nat → Reads (List (Nat × Nat))
  | 0 => fail .malformed
  | fuel + 1 => do
    if (← peek) = .key then
      advance
      let key ← optionalNode fuel mappingPlace endsBlockEntry
      let value ← valueNode fuel mappingPlace endsBlockEntry
      return (key, value) :: (← blockEntries fuel)
    else
      expect .blockEnd
      return []

/-- The items of a flow sequence. A key in it makes a mapping of one entry. -/
def flowItems : Nat → Bool → Reads (List Nat)
  | 0, _ => fail .malformed
  | fuel + 1, first => do
    if (← peek) = .flowSequenceEnd then
      advance
      return []
    else
      unless first do expect .flowEntry
      match ← peek with
      | .flowSequenceEnd => advance; return []
      | .key =>
        advance
        let pair ← pairOf do
          let key ← optionalNode fuel flowPlace
            [Token.value, .flowEntry, .flowSequenceEnd].contains
          let value ← valueNode fuel flowPlace [Token.flowEntry, .flowSequenceEnd].contains
          return (key, value)
        return pair :: (← flowItems fuel false)
      | _ =>
        let item ← node fuel flowPlace
        return item :: (← flowItems fuel false)

/-- The entries of a flow mapping. A node alone is a key with an empty value. -/
def flowEntries : Nat → Bool → Reads (List (Nat × Nat))
  | 0, _ => fail .malformed
  | fuel + 1, first => do
    if (← peek) = .flowMappingEnd then
      advance
      return []
    else
      unless first do expect .flowEntry
      match ← peek with
      | .flowMappingEnd => advance; return []
      | .key =>
        advance
        let key ← optionalNode fuel flowPlace [Token.value, .flowEntry, .flowMappingEnd].contains
        let value ← valueNode fuel flowPlace [Token.flowEntry, .flowMappingEnd].contains
        return (key, value) :: (← flowEntries fuel false)
      | _ =>
        let key ← node fuel flowPlace
        let value ← nothing
        return (key, value) :: (← flowEntries fuel false)

end

/-! ### Documents -/

def defaultHandles : List (String × String) :=
  [("!", "!"), ("!!", Tag.coreHandle)]

/-- The directives before a document: one version, whose major number is one, and any number of
handles, each once. -/
def directives : Nat → Bool → List (String × String) → Reads (List (String × String))
  | 0, _, _ => fail .malformed
  | fuel + 1, versionSeen, handles => do
    match ← peek with
    | .version major =>
      advance
      if versionSeen || major ≠ 1 then fail .malformed else directives fuel true handles
    | .tagHandle handle expansion =>
      advance
      if (handles.lookup handle).isSome then fail .malformed
      else directives fuel versionSeen ((handle, expansion) :: handles)
    | .otherDirective => advance; directives fuel versionSeen handles
    | _ => pure handles

def isDirective : Token → Bool
  | .version _ => true
  | .tagHandle _ _ => true
  | .otherDirective => true
  | _ => false

def endsDocument (token : Token) : Bool :=
  isDirective token || [Token.documentStart, .documentEnd, .streamEnd].contains token

/-- Passes over the ends of documents. Nothing may follow them, but directives are read. -/
def finish : Nat → Reads Unit
  | 0 => fail .malformed
  | fuel + 1 => do
    let token ← peek
    if token = .documentEnd then
      advance
      finish fuel
    else if isDirective token then do
      let _ ← directives fuel false []
      expect .documentStart
      fail .malformed
    else expect .streamEnd

def document (fuel : Nat) : Reads (Option Nat) := do
  let token ← peek
  if token = .streamEnd then pure none
  else if token = .documentStart || isDirective token then do
    let handles ← directives fuel false []
    modify fun r => { r with handles := handles ++ defaultHandles }
    expect .documentStart
    let found ← optionalNode fuel blockPlace endsDocument
    finish fuel
    pure (some found)
  else do
    let found ← node fuel blockPlace
    finish fuel
    pure (some found)

def Graph.ofTokens (tokens : List Token) : Except Fault (Option (Graph × Nat)) :=
  ((document (4 * tokens.length + 4)).run ⟨tokens, .empty, [], defaultHandles, 0⟩).map
    fun (top, r) => top.map fun number => (r.graph, number)

end KeyAtlas.Yaml
