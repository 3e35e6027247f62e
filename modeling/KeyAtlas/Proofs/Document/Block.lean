import KeyAtlas.Document.Outline

namespace KeyAtlas.Document.Block

open Text

def isOneLine (text : List Char) : Bool :=
  text.all fun c => !isLineEnd c

def isBlankLine (line : List Char) : Bool :=
  line.all isIndent

def indentation (line : List Char) : Nat :=
  (line.takeWhile isIndent).length

def isNoise (line : List Char) : Bool :=
  isOneLine line && (isBlankLine line || startsWith ['#'] (line.dropWhile isIndent))

def isBodyLine (column : Nat) (line : List Char) : Bool :=
  isOneLine line && (isBlankLine line || column < indentation line)

def unlines (lines : List (List Char)) : List Char :=
  lines.flatMap (· ++ ['\n'])

def spaces (column : Nat) : List Char :=
  List.replicate column ' '

def dashed (column : Nat) : List Char :=
  spaces column ++ ['-', ' ']

/-- How often a text goes over to another line. -/
def breaks : List Char → Nat
  | [] => 0
  | '\r' :: '\n' :: rest => breaks rest + 1
  | c :: rest => if isLineEnd c then breaks rest + 1 else breaks rest

/-- Each single quote mark is written twice. -/
def escape : List Char → List Char
  | [] => []
  | c :: rest => if c = '\'' then '\'' :: '\'' :: escape rest else c :: escape rest

def quote (text : List Char) : List Char :=
  '\'' :: (escape text ++ ['\''])

mutual

inductive Value where
  | word (letters : List Char)
  | literal (body : List (List Char))
  | quoted (text : List Char)
  | mapping (deeper : Nat) (entries : Entries)
  | sequence (shift : Nat) (items : Items)

inductive Entry where
  | mk (noise : List (List Char)) (key : List Char) (value : Value)

inductive Entries where
  | nil
  | cons (first : Entry) (rest : Entries)

/-- At least one item, each of them a mapping with at least one entry. -/
inductive Items where
  | one (first : Entry) (rest : Entries)
  | cons (first : Entry) (rest : Entries) (more : Items)

end

mutual

def Value.fits (column : Nat) : Value → Bool
  | .word letters => !letters.isEmpty && letters.all Char.isAlpha
  | .literal body => body.all (isBodyLine column)
  | .quoted _ => true
  | .mapping deeper entries => entries.fits (column + deeper + 1)
  | .sequence shift items => items.fits (column + shift)

def Entry.fits (column : Nat) : Entry → Bool
  | .mk noise key value => noise.all isNoise && isOneLine key && value.fits column

def Entries.fits (column : Nat) : Entries → Bool
  | .nil => true
  | .cons first rest => first.fits column && rest.fits column

def Items.fits (dash : Nat) : Items → Bool
  | .one first rest => first.fits (dash + 2) && rest.fits (dash + 2)
  | .cons first rest more => first.fits (dash + 2) && rest.fits (dash + 2) && more.fits dash

end

mutual

def Value.render (column : Nat) : Value → List Char
  | .word letters => ' ' :: (letters ++ ['\n'])
  | .literal body => ' ' :: '|' :: '\n' :: unlines body
  | .quoted text => ' ' :: (quote text ++ ['\n'])
  | .mapping deeper entries => '\n' :: entries.render (column + deeper + 1)
  | .sequence shift items => '\n' :: items.render (column + shift)

/-- `lead` is what stands before the key on its line. -/
def Entry.render (lead : List Char) (column : Nat) : Entry → List Char
  | .mk noise key value => unlines noise ++ (lead ++ (quote key ++ ':' :: value.render column))

def Entries.render (column : Nat) : Entries → List Char
  | .nil => []
  | .cons first rest => first.render (spaces column) column ++ rest.render column

def Items.render (dash : Nat) : Items → List Char
  | .one first rest => first.render (dashed dash) (dash + 2) ++ rest.render (dash + 2)
  | .cons first rest more =>
    first.render (dashed dash) (dash + 2) ++ (rest.render (dash + 2) ++ more.render dash)

end

mutual

def Value.height : Value → Nat
  | .word _ => 0
  | .literal body => body.length
  | .quoted text => breaks text
  | .mapping _ entries => entries.height
  | .sequence _ items => items.height

def Entry.height : Entry → Nat
  | .mk noise _ value => noise.length + 1 + value.height

def Entries.height : Entries → Nat
  | .nil => 0
  | .cons first rest => first.height + rest.height

def Items.height : Items → Nat
  | .one first rest => first.height + rest.height
  | .cons first rest more => first.height + rest.height + more.height

end

mutual

/-- The entries in a value below the keys `above`, where the line after that of the key is `line`. -/
def Value.outline (above : List String) (column line : Nat) : Value → List OutlineEntry
  | .word _ | .literal _ | .quoted _ => []
  | .mapping deeper entries => entries.outline above (column + deeper + 1) line
  | .sequence shift items => items.outline above (column + shift) line

def Entry.outline (above : List String) (column line : Nat) : Entry → List OutlineEntry
  | .mk noise key value =>
    ⟨above, String.ofList key, ⟨line + noise.length, column, column + (quote key).length⟩⟩ ::
      value.outline (above ++ [String.ofList key]) column (line + noise.length + 1)

def Entries.outline (above : List String) (column line : Nat) : Entries → List OutlineEntry
  | .nil => []
  | .cons first rest =>
    first.outline above column line ++ rest.outline above column (line + first.height)

def Items.outline (above : List String) (dash line : Nat) : Items → List OutlineEntry
  | .one first rest =>
    first.outline above (dash + 2) line ++ rest.outline above (dash + 2) (line + first.height)
  | .cons first rest more =>
    first.outline above (dash + 2) line ++
      (rest.outline above (dash + 2) (line + first.height) ++
        more.outline above dash (line + first.height + rest.height))

end

end Block

structure Block where
  column : Nat
  entries : Block.Entries
  noise : List (List Char)
  fits : entries.fits column = true
  noisy : noise.all Block.isNoise = true

namespace Block

def text (b : Block) : List Char :=
  b.entries.render b.column ++ unlines b.noise

def outline (b : Block) : List OutlineEntry :=
  b.entries.outline [] b.column 0

end Block

end KeyAtlas.Document
