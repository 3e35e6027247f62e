import KeyAtlas.Yaml.Character

namespace KeyAtlas.Yaml

structure Position where
  offset : Nat
  line : Nat
  column : Nat
  deriving DecidableEq, Repr

/-- The position after a character. A byte order mark takes no column. -/
def Position.after (p : Position) (c : Char) : Position :=
  if isBreak c then ⟨p.offset + 1, p.line + 1, 0⟩
  else ⟨p.offset + 1, p.line, if c = '\uFEFF' then p.column else p.column + 1⟩

structure Cursor where
  position : Position
  rest : List Char

namespace Cursor

/-- The cursor at the start of a document. A byte order mark there is no part of it. -/
def start (text : List Char) : Cursor :=
  match text with
  | '\uFEFF' :: rest => ⟨⟨1, 0, 0⟩, rest⟩
  | rest => ⟨⟨0, 0, 0⟩, rest⟩

def peek? (c : Cursor) : Option Char :=
  c.rest.head?

def column (c : Cursor) : Nat :=
  c.position.column

def next (c : Cursor) : Cursor :=
  match c.rest with
  | [] => c
  | ch :: rest => ⟨c.position.after ch, rest⟩

def skip (c : Cursor) : Nat → Cursor
  | 0 => c
  | count + 1 => c.next.skip count

def span (accepts : Char → Bool) (c : Cursor) : List Char × Cursor :=
  let run := c.rest.takeWhile accepts
  (run, c.skip run.length)

def skipWhile (accepts : Char → Bool) (c : Cursor) : Cursor :=
  (c.span accepts).2

/-- Passes over the rest of a line that holds only spaces and a comment, and over its end. Nothing
else may stand there. -/
def finishLine? (c : Cursor) : Option Cursor :=
  let spaced := c.skipWhile (· = ' ')
  let last := if spaced.peek? = some '#' then spaced.skipWhile fun ch => !isBreak ch else spaced
  if atLineEnd last.peek? then some last.next else none

def gapFrom (inComment ended : Bool) (p : Position) : List Char → Cursor × Bool
  | [] => (⟨p, []⟩, ended)
  | c :: rest =>
    if isBreak c then gapFrom false true (p.after c) rest
    else if inComment || c = '#' then gapFrom true ended (p.after c) rest
    else if c = ' ' then gapFrom false ended (p.after c) rest
    else (⟨p, c :: rest⟩, ended)

def gap (c : Cursor) : Cursor × Bool :=
  gapFrom false false c.position c.rest

end Cursor

end KeyAtlas.Yaml
