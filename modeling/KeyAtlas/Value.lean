import KeyAtlas.Decimal.Shortest
import KeyAtlas.Text.Visible

namespace KeyAtlas

/-- A key of a mapping. Keys that are neither texts, octets nor integers are known by how they are
shown. -/
inductive Key where
  | name (text : String)
  | points (codes : List Nat)
  | octets (bytes : List UInt8)
  | number (value : Int)
  | other (text : String)
  deriving DecidableEq, Repr

instance : Coe String Key := ⟨Key.name⟩

inductive Value where
  | null
  | flag (value : Bool)
  | int (value : Int)
  | float (value : Float)
  | text (value : String)
  /-- A text with halves of surrogate pairs, which are no characters, by its code points. -/
  | points (codes : List Nat)
  | octets (value : List UInt8)
  /-- A scalar of another kind, such as a date, known by how it is shown. -/
  | opaqueScalar (text : String)
  | sequence (items : List Value)
  | mapping (fields : List (Key × Value))
  deriving Inhabited

abbrev Value.Fields := List (Key × Value)

namespace Value

/-- Whether the value counts as present: not null, false, zero or empty. -/
def isTruthy : Value → Bool
  | null => false
  | flag b => b
  | int n => n ≠ 0
  | float x => x != 0
  | text s => s ≠ ""
  | points codes => !codes.isEmpty
  | octets bytes => !bytes.isEmpty
  | opaqueScalar _ => true
  | sequence items => !items.isEmpty
  | mapping fields => !fields.isEmpty

def get? (key : Key) : Value → Option Value
  | mapping fields => fields.lookup key
  | _ => none

def texts (items : List String) : Value :=
  sequence (items.map text)

def ofKey : Key → Value
  | .name s => text s
  | .points codes => points codes
  | .octets bytes => octets bytes
  | .number n => int n
  | .other s => opaqueScalar s

/-- Whether a code point is half of a surrogate pair. -/
def isHalf (code : Nat) : Bool :=
  0xD800 ≤ code && code ≤ 0xDFFF

def ofPoints (codes : List Nat) : Value :=
  if codes.any isHalf then points codes else text (.ofList (codes.map Char.ofNat))

def shownPoints (codes : List Nat) : String :=
  .ofList (codes.map fun code => if isHalf code then '\uFFFD' else Char.ofNat code)

/-- The items that a value lists: a text lists its characters, octets are listed as integers, and a
mapping lists its keys. -/
def listed? : Value → Option (List Value)
  | sequence items => some items
  | text s => some (s.toList.map fun c => text (String.ofList [c]))
  | points codes => some (codes.map fun code => ofPoints [code])
  | octets bytes => some (bytes.map fun byte => int byte.toNat)
  | mapping fields => some (fields.map fun f => ofKey f.1)
  | _ => none

def record (fields : List (String × Value)) : Value :=
  mapping (fields.map fun (name, value) => (.name name, value))

def displayQuote (chars : List Char) : Char :=
  if chars.contains '\'' && !chars.contains '"' then '"' else '\''

def hexDigits (width n : Nat) : List Char :=
  (List.range width).reverse.map fun i => Nat.digitChar ((n >>> (4 * i)) % 16)

def displayChar (quote c : Char) : List Char :=
  if c = quote || c = '\\' then ['\\', c]
  else if c = '\n' then ['\\', 'n']
  else if c = '\r' then ['\\', 'r']
  else if c = '\t' then ['\\', 't']
  else if Text.isVisible c then [c]
  else if c.toNat < 0x100 then ['\\', 'x'] ++ hexDigits 2 c.toNat
  else if c.toNat < 0x10000 then ['\\', 'u'] ++ hexDigits 4 c.toNat
  else ['\\', 'U'] ++ hexDigits 8 c.toNat

def displayText (s : String) : String :=
  let quote := displayQuote s.toList
  String.ofList (quote :: s.toList.flatMap (displayChar quote) ++ [quote])

def displayPoints (codes : List Nat) : String :=
  let quote := displayQuote (codes.map Char.ofNat)
  let display (code : Nat) : List Char :=
    if isHalf code then ['\\', 'u'] ++ hexDigits 4 code else displayChar quote (Char.ofNat code)
  String.ofList (quote :: codes.flatMap display ++ [quote])

/-- Octets are shown as a text of which only the ASCII characters are visible. -/
def displayOctets (bytes : List UInt8) : String :=
  let quote := displayQuote (bytes.map fun byte => Char.ofNat byte.toNat)
  let display (byte : UInt8) : List Char :=
    if byte.toNat < 0x80 then displayChar quote (Char.ofNat byte.toNat)
    else ['\\', 'x'] ++ hexDigits 2 byte.toNat
  String.ofList ('b' :: quote :: bytes.flatMap display ++ [quote])

def displayKey : Key → String
  | .name s => displayText s
  | .points codes => displayPoints codes
  | .octets bytes => displayOctets bytes
  | .number n => toString n
  | .other s => s

def displayScalar : Value → String
  | null => "None"
  | flag b => if b then "True" else "False"
  | int n => toString n
  | float x => Decimal.floatText x
  | text s => displayText s
  | points codes => displayPoints codes
  | octets bytes => displayOctets bytes
  | opaqueScalar s => s
  | sequence _ => ""
  | mapping _ => ""

/-- The key that a value makes, if it is a scalar. Flags count as zero and one. -/
def key? : Value → Option Key
  | flag b => some (.number (if b then 1 else 0))
  | int n => some (.number n)
  | text s => some (.name s)
  | points codes => some (.points codes)
  | octets bytes => some (.octets bytes)
  | sequence _ => none
  | mapping _ => none
  | scalar => some (.other (displayScalar scalar))

mutual

def displayInner : Value → String
  | sequence items => "[" ++ ", ".intercalate (displayItems items) ++ "]"
  | mapping fields => "\x7b" ++ ", ".intercalate (displayFields fields) ++ "\x7d"
  | scalar => displayScalar scalar

def displayItems : List Value → List String
  | [] => []
  | item :: rest => displayInner item :: displayItems rest

def displayFields : List (Key × Value) → List String
  | [] => []
  | (key, value) :: rest => (displayKey key ++ ": " ++ displayInner value) :: displayFields rest

end

def display : Value → String
  | text s => s
  | value => displayInner value

end Value

end KeyAtlas
