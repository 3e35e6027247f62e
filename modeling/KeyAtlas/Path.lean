import KeyAtlas.Text.Split
/-!
Lexical POSIX paths: a root and named parts, with empty and `.` parts dropped and `..` kept.
Nothing here looks at a disk.
-/

namespace KeyAtlas

/-- What a path starts with. Exactly two leading slashes are a root of their own. -/
inductive Path.Root where
  | relative
  | slash
  | doubleSlash
  deriving DecidableEq, Repr

structure Path where
  root : Path.Root
  parts : List String
  deriving DecidableEq, Repr

namespace Path

def Root.text : Root → String
  | relative => ""
  | slash => "/"
  | doubleSlash => "//"

def rootOf : List Char → Root
  | '/' :: '/' :: '/' :: _ => .slash
  | '/' :: '/' :: _ => .doubleSlash
  | '/' :: _ => .slash
  | _ => .relative

def ofString (text : String) : Path where
  root := rootOf text.toList
  parts := ((Text.splitOn '/' text.toList).map String.ofList).filter fun part =>
    part ≠ "" && part ≠ "."

/-- The path as text; the empty relative path is `.`. -/
def toString (p : Path) : String :=
  if p.root = .relative ∧ p.parts = [] then "." else p.root.text ++ "/".intercalate p.parts

instance : ToString Path := ⟨toString⟩

def isAbsolute (p : Path) : Bool :=
  p.root ≠ .relative

def under (base p : Path) : Path :=
  if p.isAbsolute then p else ⟨base.root, base.parts ++ p.parts⟩

/-- Cancels each `..` with the part before it. Above the root there is only the root. -/
def cancelDots (parts : List String) : List String :=
  parts.foldl (fun kept part => if part = ".." then kept.dropLast else kept ++ [part]) []

def absolute (cwd p : Path) : Path :=
  let full := cwd.under p
  ⟨full.root, cancelDots full.parts⟩

def child (p : Path) (name : String) : Path :=
  ⟨p.root, p.parts ++ [name]⟩

def parent (p : Path) : Path :=
  ⟨p.root, p.parts.dropLast⟩

/-- Whether a text is written as the path of a directory, with a slash or a dot as its last name. -/
def namesDirectory (text : String) : Bool :=
  ((Text.splitOn '/' text.toList).getLast?).any fun last => last = [] || last = ['.']

def isWithin (p ancestor : Path) : Bool :=
  p.root = ancestor.root && ancestor.parts.isPrefixOf p.parts

def relativeTo? (p ancestor : Path) : Option (List String) :=
  if p.isWithin ancestor then some (p.parts.drop ancestor.parts.length) else none

def relativeText (parts : List String) : String :=
  toString ⟨.relative, parts⟩

def name (p : Path) : String :=
  p.parts.getLast?.getD ""

/-- A file name up to its last dot, unless that dot is its first or last character. -/
def stemOf (name : String) : String :=
  let chars := name.toList
  let extension := chars.reverse.takeWhile (· ≠ '.')
  let body := chars.take (chars.length - extension.length - 1)
  if extension.length < chars.length ∧ extension ≠ [] ∧ body ≠ [] then String.ofList body else name

end Path

/-- The stable identifier of a document: its absolute path as text. -/
def documentId (cwd p : Path) : String :=
  (cwd.absolute p).toString

/-- The logical place of a document: its directories below the root, then its stem. A document
outside the root, or without one, has none. -/
def directoryComponents (p : Path) : Option Path → List String
  | none => []
  | some root =>
    match p.relativeTo? root with
    | none => []
    | some parts => parts.dropLast ++ [Path.stemOf (parts.getLast?.getD "")]

end KeyAtlas
