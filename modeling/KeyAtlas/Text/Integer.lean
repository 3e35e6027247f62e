import KeyAtlas.Text.Blank

namespace KeyAtlas.Text

def asciiDigit? (c : Char) : Option Nat :=
  if '0' ≤ c && c ≤ '9' then some (c.toNat - 0x30) else none

/-- The code points of the zeros of all scripts. The nine digits of a script follow its zero. -/
def zeroDigits : List Nat :=
  [0x30, 0x660, 0x6F0, 0x7C0, 0x966, 0x9E6, 0xA66, 0xAE6, 0xB66, 0xBE6, 0xC66, 0xCE6, 0xD66,
   0xDE6, 0xE50, 0xED0, 0xF20, 0x1040, 0x1090, 0x17E0, 0x1810, 0x1946, 0x19D0, 0x1A80, 0x1A90,
   0x1B50, 0x1BB0, 0x1C40, 0x1C50, 0xA620, 0xA8D0, 0xA900, 0xA9D0, 0xA9F0, 0xAA50, 0xABF0, 0xFF10,
   0x104A0, 0x10D30, 0x11066, 0x110F0, 0x11136, 0x111D0, 0x112F0, 0x11450, 0x114D0, 0x11650,
   0x116C0, 0x11730, 0x118E0, 0x11950, 0x11C50, 0x11D50, 0x11DA0, 0x16A60, 0x16AC0, 0x16B50,
   0x1D7CE, 0x1D7D8, 0x1D7E2, 0x1D7EC, 0x1D7F6, 0x1E140, 0x1E2F0, 0x1E950, 0x1FBF0]

def digit? (c : Char) : Option Nat :=
  (zeroDigits.find? fun first => first ≤ c.toNat && c.toNat ≤ first + 9).map (c.toNat - ·)

namespace Integer

variable (digit : Char → Option Nat)

def continueFrom (value : Nat) : List Char → Option Nat
  | [] => some value
  | '_' :: c :: rest => (digit c).bind fun d => continueFrom (value * 10 + d) rest
  | c :: rest => (digit c).bind fun d => continueFrom (value * 10 + d) rest

def natural? : List Char → Option Nat
  | [] => none
  | c :: rest => (digit c).bind fun d => continueFrom digit d rest

def signed? : List Char → Option Int
  | '+' :: rest => (natural? digit rest).map Int.ofNat
  | '-' :: rest => (natural? digit rest).map fun n => -Int.ofNat n
  | text => (natural? digit text).map Int.ofNat

end Integer

def strip (dropped : Char → Bool) (text : List Char) : List Char :=
  ((text.dropWhile dropped).reverse.dropWhile dropped).reverse

namespace Integer

/-- Decimal numerals of more digits than this are not read. -/
def longest : Nat :=
  4300

def decimal? (text : List Char) : Option Int :=
  if longest < (text.filter fun c => (digit? c).isSome).length then none
  else signed? digit? (strip isSpace text)

end Integer

end KeyAtlas.Text
