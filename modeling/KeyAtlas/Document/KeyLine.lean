import KeyAtlas.Document.Comment

namespace KeyAtlas.Document

open Text

/-- A key as written on its line: its name, how many characters it takes with its quotes, and the
value after the colon. -/
structure KeyLine where
  key : List Char
  width : Nat
  value : List Char
  deriving DecidableEq, Repr

def keyIndicators : List Char :=
  ['{', '}', '[', ']', ',', '&', '*', '!', '|', '>', '%', '@', Char.ofNat 0x60, '#']

def splitColon : List Char → Option (List Char × List Char)
  | [] => none
  | c :: rest =>
    if c = ':' && rest.head?.all isBlank then some ([], rest)
    else (splitColon rest).map fun (before, after) => (c :: before, after)

def KeyLine.quoted? (q : Quote) (text : List Char) : Option KeyLine :=
  match q.close text with
  | none => none
  | some (inside, after) =>
    match trimLeft after with
    | ':' :: rest =>
      if rest.head?.all isBlank then
        let key := if q = .single then Quote.unescapeSingle inside else inside
        some ⟨key, inside.length + 2, trim rest⟩
      else none
    | _ => none

def KeyLine.plain? (content : List Char) : Option KeyLine :=
  match splitColon content with
  | none => none
  | some (before, after) =>
    let key := trimRight before
    if key = [] ∨ key = ['<', '<'] then none else some ⟨key, key.length, trim after⟩

/-- The key of a line's content, unless the content is no mapping entry. -/
def KeyLine.ofContent? : List Char → Option KeyLine
  | [] => none
  | c :: rest =>
    match Quote.ofChar? c with
    | some q => KeyLine.quoted? q rest
    | none =>
      if keyIndicators.contains c || startsWith ['?', ' '] (c :: rest) then none
      else KeyLine.plain? (c :: rest)

/-- Every word of the text starts with `&` or `!`, as anchors and tags do. -/
def allProperties (atWord : Bool) : List Char → Bool
  | [] => true
  | c :: rest =>
    if isBlank c then allProperties true rest
    else (!atWord || c = '&' || c = '!') && allProperties false rest

/-- Whether a key with this value may own the deeper lines that follow. -/
def opensBlock (value : List Char) : Bool :=
  match value with
  | [] => true
  | c :: _ => c = '{' || c = '[' || allProperties true value

def isScalarIndicator (c : Char) : Bool :=
  c = '-' || c = '+' || c.isDigit

def isScalarHeader : List Char → Bool
  | [] => false
  | c :: rest => (c = '|' || c = '>') && rest.all isScalarIndicator

def isIndent (c : Char) : Bool :=
  c = ' ' || c = '\t'

def dropDashes (afterDash : Bool) : List Char → List Char
  | [] => []
  | c :: rest =>
    if afterDash && isIndent c then dropDashes true rest
    else if c = '-' && rest.head?.all isBlank then dropDashes true rest
    else c :: rest

end KeyAtlas.Document
