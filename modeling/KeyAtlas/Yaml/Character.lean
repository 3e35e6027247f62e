import KeyAtlas.Text.Blank
/-!
Character classes of YAML documents. Tests of the character that comes next take an option, which
is `none` at the end of the document.
-/

namespace KeyAtlas.Yaml

def printableRanges : List (Nat × Nat) :=
  [(0x09, 0x0A), (0x0D, 0x0D), (0x20, 0x7E), (0x85, 0x85), (0xA0, 0xD7FF), (0xE000, 0xFFFD),
   (0x10000, 0x10FFFF)]

def isPrintable (c : Char) : Bool :=
  Text.inRanges printableRanges c

/-- Characters that end a line, once `\r` has been replaced. -/
def isBreak (c : Char) : Bool :=
  c = '\n' || c = '\u0085' || c = '\u2028' || c = '\u2029'

def breakText (c : Char) : Char :=
  if c = '\u0085' then '\n' else c

def atLineEnd : Option Char → Bool
  | none => true
  | some c => isBreak c

def atSpaceOrEnd : Option Char → Bool
  | none => true
  | some c => c = ' ' || isBreak c

def atBlankOrEnd : Option Char → Bool
  | none => true
  | some c => c = ' ' || c = '\t' || isBreak c

def isAsciiLetter (c : Char) : Bool :=
  ('a' ≤ c && c ≤ 'z') || ('A' ≤ c && c ≤ 'Z')

def isDecimal (c : Char) : Bool :=
  '0' ≤ c && c ≤ '9'

def isNameChar (c : Char) : Bool :=
  isAsciiLetter c || isDecimal c || c = '-' || c = '_'

def isTagChar (c : Char) : Bool :=
  isNameChar c || [';', '/', '?', ':', '@', '&', '=', '+', '$', ',', '.', '!', '~', '*', '\'', '(',
    ')', '[', ']', '%'].contains c

def isFlowIndicator (c : Char) : Bool :=
  [',', '[', ']', '{', '}'].contains c

def hexDigit? (c : Char) : Option Nat :=
  if isDecimal c then some (c.toNat - 0x30)
  else if 'a' ≤ c && c ≤ 'f' then some (c.toNat - 0x57)
  else if 'A' ≤ c && c ≤ 'F' then some (c.toNat - 0x37)
  else none

def atSeparator : List Char → Bool
  | '-' :: '-' :: '-' :: rest => atBlankOrEnd rest.head?
  | '.' :: '.' :: '.' :: rest => atBlankOrEnd rest.head?
  | _ => false

end KeyAtlas.Yaml
