import KeyAtlas.OrderedMap
import KeyAtlas.Value
/-!
Merging values. Where both sides are mappings they are merged key by key, and everywhere else the
override wins. Keys keep their place, and new ones go last.
-/

namespace KeyAtlas.Value

mutual

/-- What stands at a key that held `base` and is overridden. -/
def mergeAt (base : Option Value) : Value → Value
  | mapping override =>
    match base with
    | some (mapping fields) => mapping (mergeFields fields override)
    | _ => mapping override
  | other => other

def mergeFields (base : Fields) : Fields → Fields
  | [] => base
  | (key, value) :: rest =>
    mergeFields (OrderedMap.putEntry key (mergeAt (base.lookup key) value) base) rest

end

end KeyAtlas.Value
