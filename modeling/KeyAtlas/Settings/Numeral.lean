import KeyAtlas.Settings.Fault
import KeyAtlas.Text.Integer
import KeyAtlas.Text.Split
/-!
Integers that are written as texts. A numeral in its strict form is read as it is. From any other
text blanks around it, a plus sign, zeros in front, a fraction of zeros and single underscores are
taken away first.
-/

namespace KeyAtlas.Settings.Numeral

def isDigit (c : Char) : Bool :=
  '0' ≤ c && c ≤ '9'

def isZero (c : Char) : Bool :=
  c = '0'

def magnitude (text : List Char) : Except Reason Nat :=
  let digits := text.takeWhile isDigit
  if text.head?.any isZero && 1 < text.length then .error .notNumeral
  else if Text.Integer.longest < digits.length then .error .numeralTooLong
  else match Text.Integer.natural? Text.asciiDigit? text with
    | some n => if digits.length = text.length then .ok n else .error .notNumeral
    | none => .error .notNumeral

def strict : List Char → Except Reason Int
  | '-' :: rest => (magnitude rest).map fun n => -Int.ofNat n
  | text => (magnitude text).map Int.ofNat

/-- What is left after zeros and underscores, of which `last` is the last one so far. Before a
point and at the end it stays. A minus sign may follow them. -/
def afterZeros (last : Char) : List Char → Option (List Char)
  | [] => some [last]
  | c :: rest =>
    if c = '0' || c = '_' then afterZeros c rest
    else if isDigit c || c = '-' then some (c :: rest)
    else if c = '.' then some (last :: c :: rest)
    else none

def withoutZeros : List Char → Option (List Char)
  | [] => none
  | c :: rest =>
    if c = '0' then afterZeros c rest
    else if isDigit c then some (c :: rest)
    else none

def withoutFraction (text : List Char) : List Char :=
  let whole := text.takeWhile (· ≠ '.')
  let fraction := text.drop (whole.length + 1)
  if !fraction.isEmpty && fraction.all isZero then whole else text

/-- A text without its underscores, each of which stands between two other characters. -/
def withoutUnderscores (text : List Char) : Option (List Char) :=
  let parts := Text.splitOn '_' text
  if parts.length = 1 || parts.all (!·.isEmpty) then some parts.flatten else none

def cleanDigits (text : List Char) : Option (List Char) :=
  (withoutZeros text).bind fun digits => withoutUnderscores (withoutFraction digits)

/-- A text brought into the strict form, as far as it has one. -/
def clean (text : List Char) : Option (List Char) :=
  match Text.strip Text.isSpace text with
  | '+' :: rest => cleanDigits rest
  | '-' :: rest => (cleanDigits rest).map ('-' :: ·)
  | rest => cleanDigits rest

def read (text : List Char) : Except Reason Int :=
  match strict text with
  | .error .notNumeral => (clean text).elim (.error .notNumeral) strict
  | result => result

end KeyAtlas.Settings.Numeral
