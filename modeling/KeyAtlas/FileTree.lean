import KeyAtlas.OrderedMap
import KeyAtlas.Path

namespace KeyAtlas

inductive Node where
  | file (content : List UInt8)
  | directory (children : List (String × Node))
  deriving Inhabited

inductive FileError where
  | notFound
  | isDirectory
  | notDirectory
  | alreadyExists
  | nameTooLong
  /-- A name holds a NUL character. -/
  | invalidName
  | notRemovable
  deriving DecidableEq, Repr

def FileError.message : FileError → String
  | notFound => "No such file or directory"
  | isDirectory => "Is a directory"
  | notDirectory => "Not a directory"
  | alreadyExists => "File exists"
  | nameTooLong => "File name too long"
  | invalidName => "Invalid file name"
  | notRemovable => "Invalid argument"

namespace Node

def find? : Node → List String → Option Node
  | node, [] => some node
  | .directory children, name :: rest =>
    match children.lookup name with
    | none => none
    | some child => child.find? rest
  | .file _, _ :: _ => none

def isDirectory : Node → Bool
  | directory _ => true
  | file _ => false

/-- Puts `new` at a place, with the directories above it. Below a file nothing can be put. -/
def put : Node → List String → Node → Except FileError Node
  | _, [], new => .ok new
  | .directory children, name :: rest, new =>
    match put ((children.lookup name).getD (.directory [])) rest new with
    | .ok child => .ok (.directory (OrderedMap.putEntry name child children))
    | .error e => .error e
  | .file _, _ :: _, _ => .error .notDirectory

def remove : Node → List String → Except FileError Node
  | node, [] => .ok node
  | .directory children, [name] =>
    if (children.lookup name).isSome then .ok (.directory (children.filter fun c => c.1 ≠ name))
    else .error .notFound
  | .directory children, name :: next :: rest =>
    match children.lookup name with
    | none => .error .notFound
    | some child =>
      match child.remove (next :: rest) with
      | .ok kept => .ok (.directory (OrderedMap.putEntry name kept children))
      | .error e => .error e
  | .file _, _ :: _ => .error .notDirectory

mutual

/-- The places of the files of a node that stands at `place`. A directory that `enters` refuses is
passed over, and a file that `takes` refuses is left out. -/
def files (enters takes : List String → Bool) (place : List String) : Node → List (List String)
  | .file _ => if takes place then [place] else []
  | .directory children => if enters place then filesAmong enters takes place children else []

def filesAmong (enters takes : List String → Bool) (place : List String) :
    List (String × Node) → List (List String)
  | [] => []
  | (name, node) :: rest =>
    files enters takes (place ++ [name]) node ++ filesAmong enters takes place rest

end

end Node

structure FileTree where
  top : Node

namespace FileTree

def empty : FileTree :=
  ⟨.directory []⟩

def find? (t : FileTree) (p : Path) : Option Node :=
  t.top.find? p.parts

def isDirectory (t : FileTree) (p : Path) : Bool :=
  (t.find? p).any (·.isDirectory)

/-! ### Following paths -/

def longestName : Nat :=
  255

def longestPath : Nat :=
  4095

def holdsNul (part : String) : Bool :=
  part.toList.contains '\x00'

def checkName (part : String) : Option FileError :=
  if holdsNul part then some .invalidName
  else if longestName < part.utf8ByteSize then some .nameTooLong
  else none

def checkNames (p : Path) : Except FileError Unit :=
  if p.parts.any holdsNul then .error .invalidName
  else if longestPath < p.toString.utf8ByteSize then .error .nameTooLong
  else .ok ()

/-- Where a part of a path leads to from a directory. `..` leads to the directory above. -/
def stepTo (place : List String) (part : String) : List String :=
  if part = "." then place else if part = ".." then place.dropLast else place ++ [part]

/-- Follows the parts of a path through directories. At the last one there may be nothing. -/
def follow (t : FileTree) (place : List String) : List String → Except FileError (List String)
  | [] => .ok place
  | part :: rest =>
    match t.top.find? place with
    | none => .error .notFound
    | some (.file _) => .error .notDirectory
    | some (.directory _) =>
      if longestName < part.utf8ByteSize then .error .nameTooLong
      else t.follow (stepTo place part) rest

def locate (t : FileTree) (p : Path) : Except FileError (List String) := do
  checkNames p
  t.follow [] p.parts

def reach (t : FileTree) (p : Path) : Except FileError Node := do
  match t.top.find? (← t.locate p) with
  | some node => return node
  | none => throw .notFound

def look? (t : FileTree) (p : Path) : Option Node :=
  (t.reach p).toOption

/-- Whether a path leads to a directory. A name that is too long cannot be looked up. -/
def leadsToDirectory (t : FileTree) (p : Path) : Except FileError Bool :=
  match t.reach p with
  | .ok node => .ok node.isDirectory
  | .error .nameTooLong => .error .nameTooLong
  | .error _ => .ok false

/-! ### Edits -/

def put (t : FileTree) (place : List String) (node : Node) : Except FileError FileTree :=
  (t.top.put place node).map FileTree.mk

def belowFile : List String → FileError
  | [] => .alreadyExists
  | part :: _ => if holdsNul part then .invalidName else .notDirectory

/-- Makes the directories that the parts of a path lead through from a directory on, up to one that
cannot be made. -/
def makeBelow (t : FileTree) (place : List String) : List String → FileTree × Option FileError
  | [] => (t, none)
  | part :: rest =>
    let next := stepTo place part
    match checkName part, t.top.find? next with
    | some e, _ => (t, some e)
    | none, some (.directory _) => t.makeBelow next rest
    | none, some (.file _) => (t, some (belowFile rest))
    | none, none =>
      match t.put next (.directory []) with
      | .ok made => made.makeBelow next rest
      | .error e => (t, some e)

def makeDirectory (t : FileTree) (p : Path) : Except FileError FileTree := do
  checkNames p
  match t.makeBelow [] p.parts with
  | (made, none) => return made
  | (_, some e) => throw e

def write (t : FileTree) (p : Path) (content : List UInt8) : Except FileError FileTree := do
  let place ← t.locate p
  match t.top.find? place with
  | some (.directory _) => throw .isDirectory
  | _ => t.put place (.file content)

def append (t : FileTree) (p : Path) (content : List UInt8) : FileTree :=
  match t.look? p with
  | some (.file found) => (t.write p (found ++ content)).toOption.getD t
  | _ => t

def writeBelow (t : FileTree) (p : Path) (content : List UInt8) : Except FileError FileTree := do
  (← t.makeDirectory p.parent).write p content

/-- Puts what was found at a place there. A directory is put there without its children, and what
cannot stand at its place is left out. -/
def hold (t : FileTree) (p : Path) : Node → FileTree
  | .file content => (t.writeBelow p content).toOption.getD t
  | .directory _ => (t.makeDirectory p).toOption.getD t

def holdAll (t : FileTree) (found : List (Path × Node)) : FileTree :=
  found.foldl (fun t (p, node) => t.hold p node) t

end FileTree

end KeyAtlas
