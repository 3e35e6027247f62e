import KeyAtlas.Yaml.Node

namespace KeyAtlas.Yaml.Graph

def sources? (g : Graph) (n : Nat) : Option (List Nat) :=
  let isMapping (m : Nat) : Bool :=
    match g.content m with
    | .mapping _ _ => true
    | _ => false
  match g.content n with
  | .mapping _ _ => some [n]
  | .sequence items => if items.all isMapping then some items else none
  | .scalar _ => none

def nameKey (g : Graph) (key : Nat) : Graph :=
  if g.tag key = .value then g.set key { g.node key with tag := .text } else g

def prepend (g : Graph) (n : Nat) (entries : List (Nat × Nat)) : Graph :=
  match g.content n with
  | .mapping settled pending => g.setContent n (.mapping (entries ++ settled) pending)
  | _ => g

/-- Looks at the pending entries of a mapping, and first at those of mappings that it merges. Of
several merged mappings the first one counts most. The fuel bounds the pending entries of the whole
graph. -/
def settle : Nat → Graph → Nat → Except Fault Graph
  | 0, g, _ => .ok g
  | fuel + 1, g, n =>
    match g.content n with
    | .mapping settled pending =>
      let own := pending.takeWhile fun entry => g.tag entry.1 ≠ .merge
      let named := own.foldl (fun g entry => g.nameKey entry.1) g
      match pending.drop own.length with
      | [] => .ok (named.setContent n (.mapping (settled ++ own) []))
      | (_, value) :: rest =>
        match named.sources? value with
        | none => .error .malformed
        | some sources => do
          let opened := named.setContent n (.mapping (settled ++ own) rest)
          let found ← sources.foldlM (settle fuel) opened
          let merged := sources.reverse.flatMap found.entries
          return (← settle fuel found n).prepend n merged
    | _ => .ok g

end KeyAtlas.Yaml.Graph
