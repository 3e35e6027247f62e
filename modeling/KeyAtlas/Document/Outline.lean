import KeyAtlas.Definition
import KeyAtlas.Document.KeyLine
import KeyAtlas.Text.Lines
/-!
The outline of a document: one definition for each line with a key, found line by line without
building a tree. Ancestors are the keys that are still open at a smaller column. Text inside
block scalars and multi-line quoted scalars is passed over, and a line that fits nothing adds
nothing, so every text has an outline.
-/

namespace KeyAtlas.Document

open Text

structure OpenKey where
  key : String
  column : Nat
  deriving DecidableEq, Repr

/-- What the lines so far leave open: the ancestor keys, innermost first, the column that the body
of a block scalar is deeper than, and the quote of a scalar that no line closed yet. -/
structure OutlineState where
  ancestors : List OpenKey
  scalarColumn : Option Nat
  openQuote : Option Quote
  deriving DecidableEq, Repr

def OutlineState.begin : OutlineState :=
  ⟨[], none, none⟩

structure OutlineEntry where
  ancestors : List String
  key : String
  anchor : Anchor
  deriving DecidableEq, Repr

def isReset (stripped : List Char) : Bool :=
  startsWith ['-', '-', '-'] stripped || startsWith ['.', '.', '.'] stripped ||
    startsWith ['%'] stripped

def enclosing (ancestors : List OpenKey) (column : Nat) : List OpenKey :=
  ancestors.dropWhile fun a => column ≤ a.column

namespace OutlineState

def afterKey (ancestors : List OpenKey) (key : String) (column : Nat) (value : List Char) :
    OutlineState :=
  if isScalarHeader value then ⟨ancestors, some column, none⟩
  else if opensBlock value then ⟨⟨key, column⟩ :: ancestors, none, none⟩
  else ⟨ancestors, none, Quote.unclosed value⟩

def afterItem (ancestors : List OpenKey) (indent : Nat) (content : List Char) : OutlineState :=
  if isScalarHeader content then ⟨ancestors, some indent, none⟩
  else ⟨ancestors, none, Quote.unclosed content⟩

def readLine (ancestors : List OpenKey) (line indent : Nat) (stripped : List Char) :
    OutlineState × Option OutlineEntry :=
  let content := stripComment stripped
  let item := dropDashes false content
  let column := indent + (content.length - item.length)
  match KeyLine.ofContent? item with
  | none =>
    (if indent < column then afterItem ancestors indent item else ⟨ancestors, none, none⟩, none)
  | some found =>
    let above := enclosing ancestors column
    let key := String.ofList found.key
    (afterKey above key column found.value,
      some ⟨(above.map (·.key)).reverse, key, ⟨line, column, column + found.width⟩⟩)

def step (s : OutlineState) (line : Nat) (raw : List Char) : OutlineState × Option OutlineEntry :=
  let stripped := raw.dropWhile isIndent
  let indent := raw.length - stripped.length
  match s.openQuote with
  | some q => (if (q.close raw).isSome then { s with openQuote := none } else s, none)
  | none =>
    if s.scalarColumn.any fun column => stripped = [] || column < indent then (s, none)
    else if stripped = [] || startsWith ['#'] stripped then
      ({ s with scalarColumn := none }, none)
    else if indent = 0 && isReset stripped then (⟨[], none, none⟩, none)
    else readLine s.ancestors line indent stripped

end OutlineState

def entriesFrom (s : OutlineState) (line : Nat) : List (List Char) → List OutlineEntry
  | [] => []
  | raw :: rest =>
    let (next, entry) := s.step line raw
    match entry with
    | none => entriesFrom next (line + 1) rest
    | some found => found :: entriesFrom next (line + 1) rest

def OutlineEntry.definition (document : String) (place : List String) (e : OutlineEntry) :
    Definition :=
  ⟨place ++ e.ancestors ++ [e.key], document, e.anchor, by simp⟩

def definitions (document : String) (place : List String) (text : List Char) : List Definition :=
  (entriesFrom .begin 0 (lines text)).map (OutlineEntry.definition document place)

end KeyAtlas.Document
