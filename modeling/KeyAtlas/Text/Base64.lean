/-!
Reading base64 leniently: characters outside its alphabet do not count, and neither does anything
after the padding that fills a group of four characters.
-/

namespace KeyAtlas.Text.Base64

def sextet? (c : Char) : Option Nat :=
  if 'A' ≤ c && c ≤ 'Z' then some (c.toNat - 0x41)
  else if 'a' ≤ c && c ≤ 'z' then some (c.toNat - 0x61 + 26)
  else if '0' ≤ c && c ≤ '9' then some (c.toNat - 0x30 + 52)
  else if c = '+' then some 62
  else if c = '/' then some 63
  else none

structure State where
  /-- The octets read so far, last first. -/
  octets : List UInt8
  /-- How many characters of the current group have been read. -/
  phase : Nat
  /-- The bits of the last character that belong to the next octet. -/
  bits : Nat
  pads : Nat

namespace State

def start : State :=
  ⟨[], 0, 0, 0⟩

def feed (s : State) (sextet : Nat) : State :=
  match s.phase with
  | 0 => ⟨s.octets, 1, sextet, 0⟩
  | 1 => ⟨(s.bits * 4 + sextet / 16).toUInt8 :: s.octets, 2, sextet % 16, 0⟩
  | 2 => ⟨(s.bits * 16 + sextet / 4).toUInt8 :: s.octets, 3, sextet % 4, 0⟩
  | _ => ⟨(s.bits * 64 + sextet).toUInt8 :: s.octets, 0, 0, 0⟩

/-- A pad counts after the first octet of a group. -/
def pad (s : State) : State :=
  if 2 ≤ s.phase then { s with pads := s.pads + 1 } else s

def isFilled (s : State) : Bool :=
  2 ≤ s.phase && 4 ≤ s.phase + s.pads

end State

/-- The octets that the text goes on to stand for; it must not end inside a group. -/
def decodeFrom (s : State) : List Char → Option (List UInt8)
  | [] => if s.phase = 0 then some s.octets.reverse else none
  | c :: rest =>
    if c = '=' then
      if s.pad.isFilled then some s.octets.reverse else decodeFrom s.pad rest
    else match sextet? c with
      | some sextet => decodeFrom (s.feed sextet) rest
      | none => decodeFrom s rest

def decode? (text : List Char) : Option (List UInt8) :=
  decodeFrom .start text

end KeyAtlas.Text.Base64
