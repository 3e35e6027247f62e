import KeyAtlas.Path

namespace KeyAtlas.Update

inductive Kind where
  | created
  | changed
  | deleted
  deriving DecidableEq, Repr

def Kind.name : Kind → String
  | created => "created"
  | changed => "changed"
  | deleted => "deleted"

def Kind.ofName? : String → Option Kind
  | "created" => some .created
  | "changed" => some .changed
  | "deleted" => some .deleted
  | _ => none

structure Event where
  kind : Kind
  path : Path
  deriving DecidableEq, Repr

end KeyAtlas.Update
