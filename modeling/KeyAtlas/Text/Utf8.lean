/-!
Reading octets as UTF-8. A character is a leading octet and up to three continuation octets; the
leading octet fixes how many follow and the range of the first of them, which excludes overlong
forms, surrogates and code points above U+10FFFF.
-/

namespace KeyAtlas.Text.Utf8

/-- What is owed after a leading octet: how many continuation octets, the range of the next one,
and the bits read so far. -/
structure Pending where
  owed : Nat
  low : Nat
  high : Nat
  bits : Nat

inductive Lead where
  | character (c : Char)
  | pending (p : Pending)
  | invalid

def lead (octet : Nat) : Lead :=
  if octet ≤ 0x7F then .character (Char.ofNat octet)
  else if 0xC2 ≤ octet ∧ octet ≤ 0xDF then .pending ⟨1, 0x80, 0xBF, octet - 0xC0⟩
  else if octet = 0xE0 then .pending ⟨2, 0xA0, 0xBF, 0⟩
  else if octet = 0xED then .pending ⟨2, 0x80, 0x9F, 0xD⟩
  else if 0xE1 ≤ octet ∧ octet ≤ 0xEF then .pending ⟨2, 0x80, 0xBF, octet - 0xE0⟩
  else if octet = 0xF0 then .pending ⟨3, 0x90, 0xBF, 0⟩
  else if 0xF1 ≤ octet ∧ octet ≤ 0xF3 then .pending ⟨3, 0x80, 0xBF, octet - 0xF0⟩
  else if octet = 0xF4 then .pending ⟨3, 0x80, 0x8F, 4⟩
  else .invalid

def Pending.continue? (p : Pending) (octet : Nat) : Option (Char ⊕ Pending) :=
  if p.low ≤ octet ∧ octet ≤ p.high then
    let bits := p.bits * 64 + (octet - 0x80)
    if p.owed ≤ 1 then some (.inl (Char.ofNat bits))
    else some (.inr ⟨p.owed - 1, 0x80, 0xBF, bits⟩)
  else none

/-- The decoder between two octets: the characters read so far, last first, and what the current
character still owes. -/
structure State where
  read : List Char
  pending : Option Pending
  faults : Nat

def State.begin : State :=
  ⟨[], none, 0⟩

/-- A fault stands in the text as U+FFFD. -/
def State.fault (s : State) : State :=
  ⟨'\uFFFD' :: s.read, none, s.faults + 1⟩

def State.start (s : State) (octet : Nat) : State :=
  match lead octet with
  | .character c => { s with read := c :: s.read, pending := none }
  | .pending p => { s with pending := some p }
  | .invalid => s.fault

/-- An octet that cannot continue the current character ends it as a fault and starts anew. -/
def State.step (s : State) (octet : UInt8) : State :=
  match s.pending with
  | none => s.start octet.toNat
  | some p =>
    match p.continue? octet.toNat with
    | some (.inl c) => { s with read := c :: s.read, pending := none }
    | some (.inr next) => { s with pending := some next }
    | none => s.fault.start octet.toNat

def State.finish (s : State) : State :=
  if s.pending.isSome then s.fault else s

def run (octets : List UInt8) : State :=
  (octets.foldl State.step State.begin).finish

def decode? (octets : List UInt8) : Option (List Char) :=
  let s := run octets
  if s.faults = 0 then some s.read.reverse else none

/-- The text with one U+FFFD for each maximal ill-formed part. -/
def decodeLossy (octets : List UInt8) : List Char :=
  (run octets).read.reverse

def encodeChar (c : Char) : List UInt8 :=
  let n := c.toNat
  if n < 0x80 then [n.toUInt8]
  else if n < 0x800 then [(0xC0 + n / 64).toUInt8, (0x80 + n % 64).toUInt8]
  else if n < 0x10000 then
    [(0xE0 + n / 4096).toUInt8, (0x80 + n / 64 % 64).toUInt8, (0x80 + n % 64).toUInt8]
  else
    [(0xF0 + n / 262144).toUInt8, (0x80 + n / 4096 % 64).toUInt8, (0x80 + n / 64 % 64).toUInt8,
     (0x80 + n % 64).toUInt8]

def encode (text : List Char) : List UInt8 :=
  text.flatMap encodeChar

end KeyAtlas.Text.Utf8
