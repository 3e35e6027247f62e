import KeyAtlas.Text.Integer
import KeyAtlas.Text.Lowercase
import KeyAtlas.Text.Split
import KeyAtlas.Yaml.Token

namespace KeyAtlas.Yaml.Numeral

def letterDigit? (c : Char) : Option Nat :=
  if 'a' ≤ c && c ≤ 'z' then some (c.toNat - 0x57)
  else if 'A' ≤ c && c ≤ 'Z' then some (c.toNat - 0x37)
  else none

/-- Digits of any script, and after them letters, below the base. -/
def digitBelow? (base : Nat) (c : Char) : Option Nat :=
  ((Text.digit? c).or (letterDigit? c)).filter (· < base)

def withoutMarker (letter : Char) : List Char → List Char
  | zero :: c :: rest =>
    if Text.digit? zero = some 0 && c.toLower = letter then rest else zero :: c :: rest
  | text => text

def inBase? (base : Nat) (letter : Char) (text : List Char) : Option Int :=
  let digit := digitBelow? base
  let natural (digits : List Char) : Option Int :=
    match withoutMarker letter digits with
    | [] => none
    | digits => (digits.foldl
        (fun n c => n.bind fun n => (digit c).map fun d => n * base + d) (some 0)).map Int.ofNat
  match Text.strip Text.isSpace text with
  | '+' :: rest => natural rest
  | '-' :: rest => (natural rest).map (- ·)
  | digits => natural digits

def splitSign : List Char → Bool × List Char
  | '-' :: rest => (true, rest)
  | '+' :: rest => (false, rest)
  | text => (false, text)

def negateIf {α : Type} [Neg α] (negative : Bool) (x : α) : α :=
  if negative then -x else x

/-- What an integer without its sign stands for. The first marker of a base is in lower case, and
another sign may follow it. -/
def magnitude? (text : List Char) : Option Int :=
  match text with
  | ['0'] => some 0
  | '0' :: 'b' :: digits => inBase? 2 'b' digits
  | '0' :: 'x' :: digits => inBase? 16 'x' digits
  | '0' :: digits => inBase? 8 'o' ('0' :: digits)
  | text =>
    if text.contains ':' then
      ((Text.splitOn ':' text).mapM Text.Integer.decimal?).map
        (·.foldl (fun n part => n * 60 + part) 0)
    else Text.Integer.decimal? text

def integer (text : String) : Except Fault Int :=
  let (negative, body) := splitSign (text.toList.filter (· ≠ '_'))
  match body, magnitude? body with
  | [], _ => .error .emptyNumeral
  | _, some n => .ok (negateIf negative n)
  | _, none => .error .badNumeral

/-- An exponent as far as doubles can tell it from others. -/
def clamp (exponent : Int) : Int :=
  max (-100000) (min 100000 exponent)

def exponent? : List Char → Option Int
  | [] => some 0
  | e :: rest => if e = 'e' then Text.Integer.signed? Text.digit? rest else none

def mantissa? (text : List Char) : Option (Nat × Nat) :=
  let whole := text.takeWhile (· ≠ '.')
  let fraction := text.drop (whole.length + 1)
  (Text.Integer.natural? Text.digit? (whole ++ fraction)).map fun n => (n, fraction.length)

def positive? (text : List Char) : Option Float :=
  let mantissa := text.takeWhile (· ≠ 'e')
  match mantissa? mantissa, exponent? (text.drop mantissa.length) with
  | some (digits, places), some exponent =>
    let shift := clamp exponent - places
    some (Float.ofScientific digits (shift < 0) shift.natAbs)
  | _, _ => none

def named? : String → Option Float
  | "inf" | "infinity" => some (1.0 / 0.0)
  | "nan" => some (0.0 / 0.0)
  | _ => none

def double? (text : List Char) : Option Float :=
  let (negative, body) := splitSign (Text.strip Text.isSpace text)
  ((named? (.ofList body)).or (positive? body)).map (negateIf negative)

/-- The most digits in base sixty whose weights doubles can hold. -/
def mostSixtieths : Nat :=
  174

def sumSixtieths (parts : List Float) : Float :=
  (parts.reverse.foldl
    (fun (sum, weight) part => (sum + part * Float.ofNat weight, weight * 60)) (0, 1)).1

def ofSixtieths (parts : List Float) : Except Fault Float :=
  if mostSixtieths < parts.length then .error .weightTooLarge else .ok (sumSixtieths parts)

def doubleMagnitude (text : List Char) : Except Fault Float :=
  if text = ['.', 'i', 'n', 'f'] then .ok (1.0 / 0.0)
  else if text = ['.', 'n', 'a', 'n'] then .ok (0.0 / 0.0)
  else
    let parts := if text.contains ':' then Text.splitOn ':' text else [text]
    match parts.mapM double? with
    | none => .error .badNumeral
    | some [x] => .ok x
    | some digits => ofSixtieths digits

def double (text : String) : Except Fault Float :=
  let plain := Text.lowercase (text.toList.filter (· ≠ '_'))
  let (negative, body) := splitSign plain
  if plain.isEmpty then .error .emptyNumeral
  else (doubleMagnitude body).map (negateIf negative)

end KeyAtlas.Yaml.Numeral
