import KeyAtlas.Text.Blank
import KeyAtlas.Text.Split
/-!
References to keys. `${a.b.c}`, or a bare `a.b.c`, names a key path. Leading dots and bracketed
indices do not count, and a text with a colon or a nested `${` is computed and names no path.
-/

namespace KeyAtlas

open Text

/-- A reference in a line: its inner text, the path that it names, the column of its dollar sign
and the column after its closing brace. -/
structure Reference where
  text : String
  components : List String
  start : Nat
  stop : Nat
  deriving DecidableEq, Repr

namespace Reference

def unwrap (text : List Char) : List Char :=
  if startsWith ['$', '{'] text && text.getLast? = some '}' then
    trim ((text.drop 2).dropLast)
  else text

def hasOpening : List Char → Bool
  | [] => false
  | c :: rest => (c = '$' && rest.head? = some '{') || hasOpening rest

/-- The text without its bracketed parts. `held` is a bracket that is not closed yet, last
character first; one that nothing closes stays. -/
def dropIndices : Option (List Char) → List Char → List Char
  | none, [] => []
  | some held, [] => held.reverse
  | none, c :: rest => if c = '[' then dropIndices (some [c]) rest else c :: dropIndices none rest
  | some held, c :: rest =>
    if c = ']' then dropIndices none rest else dropIndices (some (c :: held)) rest

def isPlain (c : Char) : Bool :=
  !isBlank c && !([':', '$', '{', '}', '[', ']', '\'', '"'].contains c)

/-- A component is plain up to one line feed at its end. -/
def isComponent (text : List Char) : Bool :=
  let body := if text.getLast? = some '\n' then text.dropLast else text
  !body.isEmpty && body.all isPlain

def parse (text : List Char) : Option (List (List Char)) :=
  let inner := unwrap (trim text)
  if inner = [] || hasOpening inner || inner.contains ':' then none
  else
    let components := splitOn '.' (dropIndices none (inner.dropWhile (· = '.')))
    if components.all isComponent then some components else none

def parse? (text : String) : Option (List String) :=
  (parse text.toList).map (·.map String.ofList)

/-- The innermost `${...}` spans of a line from `column` on: start, stop and the text between the
braces. `opened` is the start of a span not closed yet and its text so far, last character
first. -/
def spans (column : Nat) (opened : Option (Nat × List Char)) :
    List Char → List (Nat × Nat × List Char)
  | [] => []
  | '$' :: '{' :: rest => spans (column + 2) (some (column, [])) rest
  | '{' :: rest => spans (column + 1) none rest
  | '}' :: rest =>
    match opened with
    | some (start, body) => (start, column + 1, body.reverse) :: spans (column + 1) none rest
    | none => spans (column + 1) none rest
  | c :: rest => spans (column + 1) (opened.map fun (start, body) => (start, c :: body)) rest

def ofSpan? : Nat × Nat × List Char → Option Reference
  | (start, stop, body) =>
    (parse body).map fun components =>
      ⟨String.ofList (trim body), components.map String.ofList, start, stop⟩

def find (line : List Char) : List Reference :=
  (spans 0 none line).filterMap ofSpan?

def covers (r : Reference) (column : Int) : Bool :=
  r.start ≤ column && column < r.stop

def at? (line : List Char) (column : Int) : Option Reference :=
  (find line).find? (·.covers column)

end Reference

end KeyAtlas
