import KeyAtlas.Text.Blank
/-!
Splitting a text into lines. Every Unicode line boundary ends a line, and `\r\n` ends one line
only. A text that ends in a boundary has no empty last line.
-/

namespace KeyAtlas.Text

def lineEndRanges : List (Nat × Nat) :=
  [(0x0A, 0x0D), (0x1C, 0x1E), (0x85, 0x85), (0x2028, 0x2029)]

def isLineEnd (c : Char) : Bool :=
  inRanges lineEndRanges c

/-- The lines of `text`, the first of which already holds `current`, last character first. -/
def linesFrom (current : List Char) : List Char → List (List Char)
  | [] => if current.isEmpty then [] else [current.reverse]
  | '\r' :: '\n' :: rest => current.reverse :: linesFrom [] rest
  | c :: rest =>
    if isLineEnd c then current.reverse :: linesFrom [] rest else linesFrom (c :: current) rest

def lines (text : List Char) : List (List Char) :=
  linesFrom [] text

/-- Each of `\r\n` and `\r` becomes `\n`. -/
def unifyLineEnds : List Char → List Char → List Char
  | done, [] => done.reverse
  | done, '\r' :: '\n' :: rest => unifyLineEnds ('\n' :: done) rest
  | done, '\r' :: rest => unifyLineEnds ('\n' :: done) rest
  | done, c :: rest => unifyLineEnds (c :: done) rest

end KeyAtlas.Text
