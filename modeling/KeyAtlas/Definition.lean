
namespace KeyAtlas

/-- Where a key token stands in its document: lines and columns count from zero, `stop` is the
column after the token. Nothing is assumed of the anchor of a definition from elsewhere. -/
structure Anchor where
  line : Int
  start : Int
  stop : Int
  deriving DecidableEq, Repr

structure Definition where
  path : List String
  document : String
  anchor : Anchor
  path_ne_nil : path ≠ []
  deriving DecidableEq

inductive DefinitionError where
  | emptyPath
  deriving DecidableEq, Repr

def DefinitionError.message : DefinitionError → String
  | emptyPath => "logical_path must contain at least one component"

namespace Definition

def make (document : String) (path : List String) (anchor : Anchor) :
    Except DefinitionError Definition :=
  if nonempty : path ≠ [] then .ok ⟨path, document, anchor, nonempty⟩ else .error .emptyPath

def key (d : Definition) : String :=
  d.path.getLast d.path_ne_nil

def dotted (d : Definition) : String :=
  ".".intercalate d.path

end Definition

def suffixes : List String → List (List String)
  | [] => []
  | component :: rest => suffixes rest ++ [component :: rest]

class Defines (δ : Type) where
  definition : δ → Definition

instance : Defines Definition := ⟨id⟩

/-- A definition that answers a lookup, with the number of path components that agreed. -/
structure Match where
  definition : Definition
  level : Int
  deriving DecidableEq

def Match.document (m : Match) : String :=
  m.definition.document

end KeyAtlas
