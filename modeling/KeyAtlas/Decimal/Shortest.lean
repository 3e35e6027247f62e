/-!
The shortest decimal that reads back as a given double. A finite double is `mantissa * 2 ^ exponent`
and stands for an interval of reals; of the decimals with the fewest digits in that interval the
nearest to the double is taken, and an even last digit on a tie.
-/

namespace KeyAtlas.Decimal

structure Ratio where
  num : Nat
  den : Nat
  deriving Repr

namespace Ratio

def le (a b : Ratio) : Bool :=
  a.num * b.den ≤ b.num * a.den

def lt (a b : Ratio) : Bool :=
  a.num * b.den < b.num * a.den

def scale (r : Ratio) (base : Nat) (exponent : Int) : Ratio :=
  match exponent with
  | .ofNat e => ⟨r.num * Nat.pow base e, r.den⟩
  | .negSucc e => ⟨r.num, r.den * Nat.pow base (e + 1)⟩

end Ratio

/-- A positive finite double, with the ends of the interval of reals that round to it. -/
structure Double where
  value : Ratio
  low : Ratio
  high : Ratio
  closed : Bool

def Double.ofParts (mantissa : Nat) (exponent : Int) (isPower : Bool) : Double where
  value := Ratio.scale ⟨mantissa, 1⟩ 2 exponent
  low := if isPower then Ratio.scale ⟨4 * mantissa - 1, 1⟩ 2 (exponent - 2)
    else Ratio.scale ⟨2 * mantissa - 1, 1⟩ 2 (exponent - 1)
  high := Ratio.scale ⟨2 * mantissa + 1, 1⟩ 2 (exponent - 1)
  closed := mantissa % 2 = 0

def Double.contains (d : Double) (r : Ratio) : Bool :=
  if d.closed then d.low.le r && r.le d.high else d.low.lt r && r.lt d.high

def leadingExponent (r : Ratio) : Nat → Int → Int
  | 0, candidate => candidate
  | fuel + 1, candidate =>
    if (Ratio.scale ⟨1, 1⟩ 10 candidate).le r then candidate
    else leadingExponent r fuel (candidate - 1)

structure Scientific where
  digits : Nat
  exponent : Int
  deriving DecidableEq, Repr

/-- The neighbours of `d` on the grid of multiples of `10 ^ exponent`, as far as they read back. -/
def onGrid (d : Double) (exponent : Int) : Option Scientific :=
  let scaled := d.value.scale 10 (-exponent)
  let below := scaled.num / scaled.den
  let above := below + 1
  let remainder := scaled.num % scaled.den
  let reads (digits : Nat) : Bool := d.contains (Ratio.scale ⟨digits, 1⟩ 10 exponent)
  let nearer := if 2 * remainder < scaled.den ∨ (2 * remainder = scaled.den ∧ below % 2 = 0)
    then below else above
  let other := if nearer = below then above else below
  if reads nearer then some ⟨nearer, exponent⟩
  else if reads other then some ⟨other, exponent⟩
  else none

def shortestFrom (d : Double) (leading : Int) : Nat → Nat → Scientific
  | 0, count => (onGrid d (leading - count)).getD ⟨0, 0⟩
  | fuel + 1, count =>
    match onGrid d (leading - count) with
    | some found => found
    | none => shortestFrom d leading fuel (count + 1)

def shortest (d : Double) : Scientific :=
  shortestFrom d (leadingExponent d.value 700 310) 17 0

def Scientific.trim (s : Scientific) : Nat → Scientific
  | 0 => s
  | fuel + 1 =>
    if s.digits ≠ 0 ∧ s.digits % 10 = 0 then Scientific.trim ⟨s.digits / 10, s.exponent + 1⟩ fuel
    else s

structure Style where
  least : Int
  greatest : Int

/-- Doubles are positional from 0.0001 up to below 10 ^ 16, with a fraction always written. -/
def plain : Style :=
  ⟨-4, 15⟩

def zeros (count : Nat) : String :=
  String.ofList (List.replicate count '0')

def Scientific.text (style : Style) (s : Scientific) : String :=
  let digits := toString s.digits
  let leading : Int := s.exponent + digits.length - 1
  if leading < style.least ∨ style.greatest < leading then
    let fraction := String.ofList (digits.toList.drop 1)
    let size := toString leading.natAbs
    String.ofList (digits.toList.take 1) ++ (if fraction = "" then "" else "." ++ fraction) ++
      (if leading < 0 then "e-" else "e+") ++ (if size.length < 2 then "0" ++ size else size)
  else if leading < 0 then "0." ++ zeros (leading.natAbs - 1) ++ digits
  else if 0 ≤ s.exponent then digits ++ zeros s.exponent.toNat ++ ".0"
  else
    let whole := (leading + 1).toNat
    String.ofList (digits.toList.take whole) ++ "." ++ String.ofList (digits.toList.drop whole)

def mantissaUnit : Nat :=
  4503599627370496

def integer? (x : Float) : Option Int :=
  let bits := x.toBits.toNat
  let biased := (bits >>> 52) % 2048
  let mantissa := bits % mantissaUnit + if biased = 0 then 0 else mantissaUnit
  let size : Option Nat :=
    if biased = 2047 then none
    else if 1075 ≤ biased then some (mantissa <<< (biased - 1075))
    else
      let whole := mantissa >>> (1075 - max 1 biased)
      if whole <<< (1075 - max 1 biased) = mantissa then some whole else none
  size.map fun n => if bits >>> 63 = 1 then -Int.ofNat n else Int.ofNat n

def floatText (x : Float) : String :=
  let bits := x.toBits.toNat
  let sign := if bits >>> 63 = 1 then "-" else ""
  let biased := (bits >>> 52) % 2048
  let fraction := bits % mantissaUnit
  if biased = 2047 then if fraction = 0 then sign ++ "inf" else "nan"
  else if biased = 0 ∧ fraction = 0 then sign ++ "0.0"
  else
    let isPower : Bool := fraction = 0 ∧ 1 < biased
    let double := if biased = 0 then Double.ofParts fraction (-1074) false
      else Double.ofParts (mantissaUnit + fraction) (Int.ofNat biased - 1075) isPower
    sign ++ ((shortest double).trim 20).text plain

end KeyAtlas.Decimal
