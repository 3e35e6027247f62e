import KeyAtlas.Document.Quote
import KeyAtlas.Text.Blank
/-!
Inline comments. A `#` after a blank, outside quotes, starts a comment. A quote opens only after
a blank or one of the marks `[`, `{`, `,` and `:`.
-/

namespace KeyAtlas.Document

open Text

def admitsQuote (previous : Char) : Bool :=
  isBlank previous || ['[', '{', ',', ':'].contains previous

/-- The text up to its comment, given the open quote and the character before it. -/
def beforeComment : Option Quote → Char → List Char → List Char
  | _, _, [] => []
  | some .single, previous, '\'' :: '\'' :: rest =>
    '\'' :: '\'' :: beforeComment (some .single) previous rest
  | some .double, previous, '\\' :: c :: rest =>
    '\\' :: c :: beforeComment (some .double) previous rest
  | some q, _, c :: rest => c :: beforeComment (if c = q.mark then none else some q) c rest
  | none, previous, c :: rest =>
    if c = '#' && isBlank previous then []
    else
      let opened := if admitsQuote previous then Quote.ofChar? c else none
      c :: beforeComment opened c rest

def stripComment (line : List Char) : List Char :=
  trimRight (beforeComment none ' ' line)

end KeyAtlas.Document
