import KeyAtlas.FileTree
import KeyAtlas.Update.Watcher

namespace KeyAtlas.Update

def contents (t : FileTree) : List (List String × List UInt8) :=
  (Node.files (fun _ => true) (fun _ => true) [] t.top).filterMap fun place =>
    match t.top.find? place with
    | some (.file content) => some (place, content)
    | _ => none

def changeOf? : Option (List UInt8) → Option (List UInt8) → Option Change
  | none, some _ => some .created
  | some before, some after => if before = after then none else some .modified
  | some _, none => some .deleted
  | none, none => none

/-- The events that lead from one tree to another, those of present files first. -/
def changesBetween (before after : FileTree) : List FileEvent :=
  let old := contents before
  let new := contents after
  let gone := (old.map Prod.fst).filter fun place => (new.lookup place).isNone
  (new.map Prod.fst ++ gone).filterMap fun place =>
    (changeOf? (old.lookup place) (new.lookup place)).map fun change =>
      ⟨change, false, (Path.mk .slash place).toString⟩

end KeyAtlas.Update
