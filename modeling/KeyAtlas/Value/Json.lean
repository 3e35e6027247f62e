import KeyAtlas.Value

namespace KeyAtlas.Value.Json

def unit (n : Nat) : List Char :=
  ['\\', 'u'] ++ hexDigits 4 n

def escapeChar (c : Char) : List Char :=
  if c = '"' || c = '\\' then ['\\', c]
  else if c = '\n' then ['\\', 'n']
  else if c = '\r' then ['\\', 'r']
  else if c = '\t' then ['\\', 't']
  else if c = '\x08' then ['\\', 'b']
  else if c = '\x0c' then ['\\', 'f']
  else if 0x20 ≤ c.toNat && c.toNat < 0x7F then [c]
  else if c.toNat < 0x10000 then unit c.toNat
  else
    let offset := c.toNat - 0x10000
    unit (0xD800 + offset / 1024) ++ unit (0xDC00 + offset % 1024)

def quoted (s : String) : String :=
  String.ofList ('"' :: s.toList.flatMap escapeChar ++ ['"'])

/-- Halves of surrogate pairs are units of their own. -/
def quotedPoints (codes : List Nat) : String :=
  let escape (code : Nat) := if isHalf code then unit code else escapeChar (Char.ofNat code)
  String.ofList ('"' :: codes.flatMap escape ++ ['"'])

def quotedKey : Key → String
  | .name s => quoted s
  | .points codes => quotedPoints codes
  | .octets bytes => quoted (displayOctets bytes)
  | .number n => quoted (toString n)
  | .other s => quoted s

/-- Doubles without a finite value are written by name. -/
def floatText (x : Float) : String :=
  if x.isNaN then "NaN"
  else if x.isInf then if x < 0 then "-Infinity" else "Infinity"
  else Decimal.floatText x

def scalar : Value → String
  | .null => "null"
  | .flag b => if b then "true" else "false"
  | .int n => toString n
  | .float x => floatText x
  | .text s => quoted s
  | .points codes => quotedPoints codes
  | .octets bytes => quoted (displayOctets bytes)
  | .opaqueScalar s => quoted s
  | .sequence _ => "[]"
  | .mapping _ => "\x7b\x7d"

def block (opening closing : String) (indent : Nat) : List String → String
  | [] => opening ++ closing
  | parts =>
    let line (width : Nat) := "\n" ++ String.ofList (List.replicate width ' ')
    opening ++ line (indent + 2) ++ (("," ++ line (indent + 2)).intercalate parts) ++ line indent ++
      closing

mutual

def pretty (indent : Nat) : Value → String
  | .sequence items => block "[" "]" indent (prettyItems (indent + 2) items)
  | .mapping fields => block "\x7b" "\x7d" indent (prettyFields (indent + 2) fields)
  | other => scalar other

def prettyItems (indent : Nat) : List Value → List String
  | [] => []
  | item :: rest => pretty indent item :: prettyItems indent rest

def prettyFields (indent : Nat) : List (Key × Value) → List String
  | [] => []
  | (key, value) :: rest =>
    (quotedKey key ++ ": " ++ pretty indent value) :: prettyFields indent rest

end

mutual

def compact : Value → String
  | .sequence items => "[" ++ ", ".intercalate (compactItems items) ++ "]"
  | .mapping fields => "\x7b" ++ ", ".intercalate (compactFields fields) ++ "\x7d"
  | other => scalar other

def compactItems : List Value → List String
  | [] => []
  | item :: rest => compact item :: compactItems rest

def compactFields : List (Key × Value) → List String
  | [] => []
  | (key, value) :: rest =>
    (quotedKey key ++ ": " ++ compact value) :: compactFields rest

end

end KeyAtlas.Value.Json
