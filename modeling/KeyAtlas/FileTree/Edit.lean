import KeyAtlas.FileTree
/-!
Edits of a file tree by paths as they are written, dots included. A path with a slash at its end
stands for a directory. An edit that fails may have done a part of its work.
-/

namespace KeyAtlas

inductive FileEdit where
  | write (path : String) (content : List UInt8)
  | unlink (path : String)
  | removeTree (path : String)
  | makeDirectory (path : String)
  deriving DecidableEq, Repr

abbrev Edited := FileTree × Option FileError

namespace FileTree

def after (t : FileTree) : Except FileError FileTree → Edited
  | .ok next => (next, none)
  | .error e => (t, some e)

def unlink (t : FileTree) (p : Path) (asDirectory : Bool) : Except FileError FileTree := do
  let place ← t.locate p
  match t.top.find? place with
  | none => throw .notFound
  | some (.directory _) => throw .isDirectory
  | some (.file _) =>
    if asDirectory then throw .notDirectory else (t.top.remove place).map FileTree.mk

/-- Takes away all that a directory holds, and then the directory. Under a name of dots it cannot
be taken away itself: `.` is no name of its own, and what `..` leads out of is gone by then. -/
def removeTree (t : FileTree) (p : Path) : Edited :=
  match t.locate p with
  | .error e => (t, some e)
  | .ok place =>
    let emptied := (t.put place (.directory [])).toOption.getD t
    match t.top.find? place with
    | none => (t, some .notFound)
    | some (.file _) => (t, some .notDirectory)
    | some (.directory _) =>
      if p.parts.getLast? = some "." then (emptied, some .notRemovable)
      else if p.parts.getLast? = some ".." then (emptied, some .notFound)
      else t.after ((t.top.remove place).map FileTree.mk)

end FileTree

namespace FileEdit

/-- The absolute path that a text is written as, with each `.` in it. -/
def pathOf (cwd : Path) (text : String) : Path :=
  let parts := ((Text.splitOn '/' text.toList).map String.ofList).filter (· ≠ "")
  ⟨.slash, if text.toList.head? = some '/' then parts else cwd.parts ++ parts⟩

def endsInSlash (text : String) : Bool :=
  text.toList.getLast? = some '/'

def apply (cwd : Path) (t : FileTree) : FileEdit → Edited
  | .write text content =>
    let p := pathOf cwd text
    match t.makeBelow [] (if endsInSlash text then p else p.parent).parts with
    | (made, some e) => (made, some e)
    | (made, none) => made.after (made.write p content)
  | .unlink text => t.after (t.unlink (pathOf cwd text) (endsInSlash text))
  | .removeTree text => t.removeTree (pathOf cwd text)
  | .makeDirectory text => t.makeBelow [] (pathOf cwd text).parts

end FileEdit

end KeyAtlas
