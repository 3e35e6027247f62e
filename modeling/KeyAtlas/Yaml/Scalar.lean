import KeyAtlas.Text.Base64
import KeyAtlas.Yaml.Node
import KeyAtlas.Yaml.Numeral

namespace KeyAtlas.Yaml

inductive Scalar where
  | null
  | flag (value : Bool)
  | int (value : Int)
  | float (value : Float)
  | text (wording : Wording)
  | octets (bytes : List UInt8)
  | moment (time : Timestamp)
  deriving Inhabited

/-- What two keys of one mapping cannot share. -/
inductive Identity where
  | key (key : Key)
  /-- Times in different zones can be the same moment. -/
  | instant (microseconds : Int)
  /-- What is no number equals only itself. -/
  | node (number : Nat)
  deriving DecidableEq, Repr

def flagValues : List (String × Bool) :=
  [("yes", true), ("no", false), ("true", true), ("false", false), ("on", true), ("off", false)]

def flagOf (text : String) : Except Fault Bool :=
  match flagValues.lookup (String.ofList (Text.lowercase text.toList)) with
  | some b => .ok b
  | none => .error .badFlag

def momentOf (text : String) : Except Fault Timestamp :=
  match Timestamp.parse? (withoutFinalBreak text).toList with
  | none => .error .notDate
  | some time => if time.isValid then .ok time else .error .badDate

def isAscii (c : Char) : Bool :=
  c.toNat < 0x80

def octetsOf (text : String) : Except Fault (List UInt8) :=
  match if text.toList.all isAscii then Text.Base64.decode? text.toList else none with
  | some bytes => .ok bytes
  | none => .error .malformed

namespace Scalar

def ofWording (tag : Tag) (wording : Wording) : Except Fault Scalar :=
  match tag with
  | .null => .ok null
  | .flag => (flagOf wording.shown).map flag
  | .integer => (Numeral.integer wording.shown).map int
  | .float => (Numeral.double wording.shown).map float
  | .binary => (octetsOf wording.shown).map octets
  | .timestamp => (momentOf wording.shown).map moment
  | .text => .ok (text wording)
  | _ => .error .malformed

def value : Scalar → Value
  | null => .null
  | flag b => .flag b
  | int n => .int n
  | float x => .float x
  | text (.text s) => .text s
  | text (.points codes) => .points codes
  | octets bytes => .octets bytes
  | moment time => .opaqueScalar time.display

def key (s : Scalar) : Key :=
  s.value.key?.getD (.name "")

/-- What tells the key from others, at the node of this number. Doubles without a fraction equal
integers. -/
def identity (number : Nat) : Scalar → Identity
  | float x =>
    if x.isNaN then .node number
    else .key ((Decimal.integer? x).elim (float x).key .number)
  | moment time => time.instant?.elim (.key (moment time).key) .instant
  | s => .key s.key

end Scalar

end KeyAtlas.Yaml
