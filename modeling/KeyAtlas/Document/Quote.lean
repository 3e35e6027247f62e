
namespace KeyAtlas.Document

inductive Quote where
  | single
  | double
  deriving DecidableEq, Repr

namespace Quote

def mark : Quote → Char
  | single => '\''
  | double => '"'

def ofChar? (c : Char) : Option Quote :=
  if c = '\'' then some single else if c = '"' then some double else none

/-- Splits the text after an opening mark into what is inside and what follows the closing mark;
`none` when nothing closes it. -/
def close : Quote → List Char → Option (List Char × List Char)
  | _, [] => none
  | single, '\'' :: '\'' :: rest =>
    (close single rest).map fun (inside, after) => ('\'' :: '\'' :: inside, after)
  | double, '\\' :: c :: rest =>
    (close double rest).map fun (inside, after) => ('\\' :: c :: inside, after)
  | q, c :: rest =>
    if c = q.mark then some ([], rest)
    else (close q rest).map fun (inside, after) => (c :: inside, after)

def unclosed : List Char → Option Quote
  | [] => none
  | c :: rest =>
    match ofChar? c with
    | none => none
    | some q => if (q.close rest).isSome then none else some q

def unescapeSingle : List Char → List Char
  | [] => []
  | '\'' :: '\'' :: rest => '\'' :: unescapeSingle rest
  | c :: rest => c :: unescapeSingle rest

end Quote

end KeyAtlas.Document
