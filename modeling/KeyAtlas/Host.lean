import KeyAtlas.Document.Outline
import KeyAtlas.FileTree
import KeyAtlas.Glob
import KeyAtlas.Text.Utf8

namespace KeyAtlas

inductive ReadFailure where
  | unreadable (path : String) (reason : Option String)
  | system (message : String)
  | invalid (message : String)
  | unexpected (message : String)
  deriving DecidableEq, Repr

def ReadFailure.isContained : ReadFailure → Bool
  | unexpected _ => false
  | _ => true

/-- What a host sees at one moment: the files, and the paths that it refuses to read. -/
structure Disk where
  tree : FileTree
  refusals : Path → Option ReadFailure

def Disk.ofTree (tree : FileTree) : Disk :=
  ⟨tree, fun _ => none⟩

structure Host where
  cwd : Path
  roots : List Path
  includePatterns : List String
  excludePatterns : List String

namespace Host

def defaultIncludes : List String :=
  ["*.yaml", "*.yml"]

def defaultExcludes : List String :=
  ["**/node_modules/**", "**/.venv/**", "**/venv/**", "**/site-packages/**", "**/.git/**",
   "**/__pycache__/**", "**/outputs/**", "**/multirun/**"]

def make (cwd : Path) (roots : List Path) (includePatterns excludePatterns : List String) : Host :=
  ⟨cwd, roots.map cwd.absolute, includePatterns, excludePatterns⟩

variable (h : Host)

def documentId (p : Path) : String :=
  KeyAtlas.documentId h.cwd p

/-- Keeps the deeper of two roots that contain a path, the earlier one when they are equal. -/
def deeper (p : Path) (best : Option Path) (root : Path) : Option Path :=
  if p.isWithin root then
    match best with
    | none => some root
    | some kept => if kept.parts.length < root.parts.length then some root else some kept
  else best

def rootOf (p : Path) : Option Path :=
  h.roots.foldl (deeper (h.cwd.absolute p)) none

def place (p : Path) : List String :=
  directoryComponents (h.cwd.absolute p) (h.rootOf p)

/-- Whether a walk goes into the directory with these parts below its root. -/
def enters (parts : List String) : Bool :=
  !matchesAny ("/".intercalate parts ++ "/") h.excludePatterns

def takes (parts : List String) : Bool :=
  nameIncluded (parts.getLast?.getD "") h.includePatterns &&
    !matchesAny ("/".intercalate parts) h.excludePatterns

/-- The documents below one root, none when it is no directory. A walk goes down by the names in each
directory, to any depth: `FileTree.longestPath` bounds the paths that are looked up, not those that a
walk comes to. -/
def documentsBelow (tree : FileTree) (root : Path) : List Path :=
  match tree.find? root with
  | some (.directory children) =>
    (Node.filesAmong h.enters h.takes [] children).map fun parts => ⟨root.root, root.parts ++ parts⟩
  | _ => []

def found (tree : FileTree) : OrderedMap String Path :=
  (h.roots.flatMap (h.documentsBelow tree)).foldl
    (fun m p => m.insertNew (h.documentId p) p) .empty

/-- Every included document that no glob excludes, once each, in the order of the identifiers. -/
def documents (tree : FileTree) : List Path :=
  ((h.found tree).entries.mergeSort fun a b => a.1 ≤ b.1).map Prod.snd

def admits (tree : FileTree) (root : Path) : Bool :=
  (tree.leadsToDirectory root).toOption.isSome

/-- The roots that are no directories, up to the first one that cannot be looked up. -/
def missingRoots (tree : FileTree) : List Path :=
  (h.roots.takeWhile (admits tree)).filter fun root => !tree.isDirectory root

def listingFailure? (tree : FileTree) : Option ReadFailure :=
  if h.roots.all (admits tree) then none else some (.system FileError.nameTooLong.message)

def read (disk : Disk) (p : Path) : Except ReadFailure (List Char) :=
  match disk.refusals p with
  | some failure => .error failure
  | none =>
    match disk.tree.reach (h.cwd.under p) with
    | .ok (.file content) =>
      match Text.Utf8.decode? content with
      | some text => .ok (Text.unifyLineEnds [] text)
      | none => .error (.unreadable p.toString none)
    | .error .invalidName => .error (.invalid FileError.invalidName.message)
    | _ => .error (.unreadable p.toString none)

def contribution (disk : Disk) (p : Path) : Except ReadFailure (List Definition) :=
  (h.read disk p).map (Document.definitions (h.documentId p) (h.place p))

end Host

end KeyAtlas
