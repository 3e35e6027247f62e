import KeyAtlas.FileTree
import KeyAtlas.Glob
import KeyAtlas.Update.Event
/-!
File events as a file system reports them, and the updates of documents that they stand for.
Directories and names that no include glob matches are ignored; a move is the deletion of the old
name and the creation of the new one.
-/

namespace KeyAtlas.Update

inductive Change where
  | created
  | modified
  | deleted
  | moved (target : Option String)
  | closed
  | opened
  deriving DecidableEq, Repr

structure FileEvent where
  change : Change
  isDirectory : Bool
  source : String
  deriving DecidableEq, Repr

def updateIfIncluded (includePatterns : List String) (kind : Kind) (path : String) : List Event :=
  let p := Path.ofString path
  if nameIncluded p.name includePatterns then [⟨kind, p⟩] else []

namespace FileEvent

def updates (e : FileEvent) (includePatterns : List String) : List Event :=
  if e.isDirectory then []
  else match e.change with
    | .created => updateIfIncluded includePatterns .created e.source
    | .modified => updateIfIncluded includePatterns .changed e.source
    | .deleted => updateIfIncluded includePatterns .deleted e.source
    | .moved target =>
      updateIfIncluded includePatterns .deleted e.source ++
        target.toList.flatMap (updateIfIncluded includePatterns .created)
    | .closed | .opened => []

end FileEvent

structure Watcher where
  roots : List Path
  includePatterns : List String
  observed : Option (List Path)

namespace Watcher

def make (roots : List Path) (includePatterns : List String) : Watcher :=
  ⟨roots, includePatterns, none⟩

def isRunning (w : Watcher) : Bool :=
  w.observed.isSome

structure Lookup where
  directories : List Path
  missing : List Path
  failure : Option FileError

def lookUp (isDirectory : Path → Except FileError Bool) : List Path → Lookup
  | [] => ⟨[], [], none⟩
  | root :: rest =>
    let later := lookUp isDirectory rest
    match isDirectory root with
    | .error e => ⟨[], [], some e⟩
    | .ok true => { later with directories := root :: later.directories }
    | .ok false => { later with missing := root :: later.missing }

def start (w : Watcher) (observed : List Path) : Watcher :=
  { w with observed := some observed }

def stop (w : Watcher) : Watcher :=
  { w with observed := none }

end Watcher

end KeyAtlas.Update
