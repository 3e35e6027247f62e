import KeyAtlas.Text.Split
import KeyAtlas.Yaml.Timestamp
import KeyAtlas.Yaml.Token
/-!
Nodes of a YAML document and their types. A document is a graph: a node that an alias stands for is
part of several collections, and a collection can even be part of itself. So nodes go by number.
A plain scalar without a tag has the type that its text looks like, and every other untagged scalar
is a text.
-/

namespace KeyAtlas.Yaml

inductive Tag where
  | null
  | flag
  | integer
  | float
  | binary
  | timestamp
  | omap
  | pairs
  | set
  | text
  | sequence
  | mapping
  | merge
  | value
  | other (name : String)
  deriving DecidableEq, Repr

inductive Content where
  | scalar (wording : Wording)
  | sequence (items : List Nat)
  /-- The entries in front, whose keys have been looked at, and those still as they are written. -/
  | mapping (settled pending : List (Nat × Nat))
  deriving Repr

structure Node where
  tag : Tag
  content : Content
  deriving Repr

namespace Tag

def coreHandle : String :=
  "tag:yaml.org,2002:"

def core : List (String × Tag) :=
  [("null", null), ("bool", flag), ("int", integer), ("float", float), ("binary", binary),
   ("timestamp", timestamp), ("omap", omap), ("pairs", pairs), ("set", set), ("str", text),
   ("seq", sequence), ("map", mapping), ("merge", merge), ("value", value)]

def ofName (name : String) : Tag :=
  match core.find? fun entry => coreHandle ++ entry.1 = name with
  | some entry => entry.2
  | none => other name

end Tag

/-! ### Types of plain scalars -/

def isDigit (c : Char) : Bool :=
  '0' ≤ c && c ≤ '9'

def isDigitOr (c : Char) : Bool :=
  isDigit c || c = '_'

def withoutSign : List Char → List Char
  | '+' :: rest => rest
  | '-' :: rest => rest
  | text => text

def isSixtieth : List Char → Bool
  | [c] => isDigit c
  | [c, d] => '0' ≤ c && c ≤ '5' && isDigit d
  | _ => false

/-- Digits and parts in base sixty that follow them, up to the end of the text. -/
def isSixtieths (text : List Char) : Bool :=
  match Text.splitOn ':' text with
  | first :: part :: parts => first.all isDigitOr && (part :: parts).all isSixtieth
  | _ => false

def isHexOr (c : Char) : Bool :=
  isDigitOr c || ('a' ≤ c && c ≤ 'f') || ('A' ≤ c && c ≤ 'F')

def looksInteger (text : List Char) : Bool :=
  match withoutSign text with
  | '0' :: 'b' :: c :: rest => (c :: rest).all fun d => d = '0' || d = '1' || d = '_'
  | '0' :: 'x' :: c :: rest => (c :: rest).all isHexOr
  | '0' :: rest => rest.all fun d => ('0' ≤ d && d ≤ '7') || d = '_'
  | c :: rest => isDigit c && (rest.all isDigitOr || isSixtieths (c :: rest))
  | [] => false

def looksExponent : List Char → Bool
  | [] => true
  | e :: sign :: d :: rest =>
    (e = 'e' || e = 'E') && (sign = '+' || sign = '-') && (d :: rest).all isDigit
  | _ => false

def looksFloat (text : List Char) : Bool :=
  let body := withoutSign text
  let whole := body.takeWhile (· ≠ '.')
  match body.drop whole.length with
  | [] => false
  | _ :: fraction =>
    let exponent := fraction.dropWhile isDigitOr
    match whole with
    | [] =>
      (body.length = text.length && fraction.head?.any isDigit && looksExponent exponent) ||
        ["inf", "Inf", "INF"].contains (String.ofList fraction) ||
        (body.length = text.length && ["nan", "NaN", "NAN"].contains (String.ofList fraction))
    | c :: rest =>
      isDigit c && ((rest.all isDigitOr && looksExponent exponent) ||
        (isSixtieths whole && exponent.isEmpty))

def flagWords : List String :=
  ["yes", "Yes", "YES", "no", "No", "NO", "true", "True", "TRUE", "false", "False", "FALSE", "on",
   "On", "ON", "off", "Off", "OFF"]

def nullWords : List String :=
  ["", "~", "null", "Null", "NULL"]

def indicatorWords : List String :=
  ["!", "&", "*"]

def indicatorTag : String :=
  Tag.coreHandle ++ "yaml"

def Tag.ofLooks (text : String) : Tag :=
  if flagWords.contains text then flag
  else if looksFloat text.toList then float
  else if looksInteger text.toList then integer
  else if text = "<<" then merge
  else if nullWords.contains text then null
  else if Timestamp.looksRight text.toList then timestamp
  else if text = "=" then value
  else if indicatorWords.contains text then other indicatorTag
  else .text

def withoutFinalBreak (text : String) : String :=
  match text.toList.reverse with
  | '\n' :: rest => .ofList rest.reverse
  | _ => text

/-- The type of an untagged plain scalar. A line end after it does not count, but alone it is a
text. -/
def Tag.ofPlain (text : String) : Tag :=
  if text = "\n" then .text else .ofLooks (withoutFinalBreak text)

namespace Node

def empty : Node :=
  ⟨.null, .scalar (.text "")⟩

def openSequence (tag : Tag) : Node :=
  ⟨tag, .sequence []⟩

def openMapping (tag : Tag) : Node :=
  ⟨tag, .mapping [] []⟩

end Node

/-! ### Graphs -/

structure Graph where
  nodes : Array Node
  deriving Repr

namespace Graph

def empty : Graph :=
  ⟨#[]⟩

def size (g : Graph) : Nat :=
  g.nodes.size

def node (g : Graph) (n : Nat) : Node :=
  g.nodes[n]?.getD .empty

def tag (g : Graph) (n : Nat) : Tag :=
  (g.node n).tag

def content (g : Graph) (n : Nat) : Content :=
  (g.node n).content

/-- Adds a node, whose number is the size of the graph before. -/
def push (g : Graph) (node : Node) : Graph :=
  ⟨g.nodes.push node⟩

def set (g : Graph) (n : Nat) (node : Node) : Graph :=
  ⟨g.nodes.setIfInBounds n node⟩

def setContent (g : Graph) (n : Nat) (content : Content) : Graph :=
  g.set n { g.node n with content := content }

def entries (g : Graph) (n : Nat) : List (Nat × Nat) :=
  match g.content n with
  | .mapping settled pending => settled ++ pending
  | _ => []

def pendingCount (g : Graph) : Nat :=
  g.nodes.foldl (fun count node =>
    match node.content with
    | .mapping _ pending => count + pending.length
    | _ => count) 0

end Graph

end KeyAtlas.Yaml
