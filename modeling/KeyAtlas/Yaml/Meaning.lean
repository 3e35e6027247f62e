import KeyAtlas.Yaml.Node.Merge
import KeyAtlas.Yaml.Scalar
/-!
What the nodes of a graph stand for. Every node is given its meaning once, so that a node with
several places, even inside itself, means the same at each of them. Scalars get theirs where they
come up, and collections are filled one after another.
-/

namespace KeyAtlas.Yaml

/-- What a node stands for. The parts of collections go by the numbers of their nodes. -/
inductive Meaning where
  | scalar (s : Scalar)
  | sequence (items : List Nat)
  | pairs (items : List (Nat × Nat))
  | mapping (fields : List (Scalar × Nat))
  | set (keys : List Scalar)

def Meaning.ofTag? : Tag → Option Meaning
  | .sequence => some (.sequence [])
  | .mapping => some (.mapping [])
  | .set => some (.set [])
  | .omap => some (.pairs [])
  | .pairs => some (.pairs [])
  | _ => none

/-- The wording of a scalar. A mapping with the key `=` stands for the value at it. The fuel bounds
how many mappings it leads through. -/
def Graph.wording (g : Graph) : Nat → Nat → Except Fault Wording
  | 0, _ => .error .tooDeep
  | fuel + 1, n =>
    match g.content n with
    | .scalar found => .ok found
    | .sequence _ => .error .malformed
    | .mapping _ _ =>
      match (g.entries n).find? fun entry => g.tag entry.1 = .value with
      | some entry => g.wording fuel entry.2
      | none => .error .malformed

def Graph.scalar (g : Graph) (n : Nat) : Except Fault Scalar := do
  let found ← g.wording (g.size + 1) n
  match g.tag n, g.content n with
  | .timestamp, .mapping _ _ => .error .dateInMapping
  | tag, _ => Scalar.ofWording tag found

structure Meanings where
  graph : Graph
  found : Array (Option Meaning)
  /-- The collections that are still to be filled, last first. -/
  waiting : List Nat
  entryCount : Nat

namespace Meanings

abbrev Gives (α : Type) := StateT Meanings (Except Fault) α

def start (g : Graph) : Meanings :=
  ⟨g, Array.replicate g.size none, [], g.pendingCount⟩

def get? (m : Meanings) (n : Nat) : Option Meaning :=
  m.found[n]?.join

def give (n : Nat) (meaning : Meaning) : Gives Unit :=
  modify fun m => { m with found := m.found.setIfInBounds n (some meaning) }

def visit (n : Nat) : Gives Unit := do
  let m ← get
  if (m.get? n).isSome then pure ()
  else match Meaning.ofTag? (m.graph.tag n) with
    | some unfilled =>
      give n unfilled
      modify fun m => { m with waiting := n :: m.waiting }
    | none => give n (.scalar (← m.graph.scalar n))

def visitKey (n : Nat) : Gives Scalar := do
  visit n
  match (← get).get? n with
  | some (.scalar s) => return s
  | _ => throw .malformed

structure Field where
  identity : Identity
  key : Scalar
  value : Nat

/-- Adds a field to others, the last one first. Of equal keys the first one stays and the last value
counts. -/
def putField (fields : List Field) (new : Field) : List Field :=
  if fields.any (·.identity = new.identity) then
    fields.map fun f => if f.identity = new.identity then { f with value := new.value } else f
  else new :: fields

def fieldsAt (n : Nat) : Gives (List (Scalar × Nat)) := do
  let m ← get
  match m.graph.content n with
  | .mapping _ _ =>
    let graph ← m.graph.settle (m.entryCount + 1) n
    modify fun m => { m with graph := graph }
    let fields ← (graph.entries n).foldlM (fun fields (key, value) => do
      let scalar ← visitKey key
      visit value
      return putField fields ⟨scalar.identity key, scalar, value⟩) []
    return fields.reverse.map fun f => (f.key, f.value)
  | _ => throw .malformed

def itemsAt (n : Nat) : Gives (List Nat) := do
  match (← get).graph.content n with
  | .sequence items => return items
  | _ => throw .malformed

def pairAt (n : Nat) : Gives (Nat × Nat) := do
  match (← get).graph.entries n with
  | [(key, value)] =>
    visit key
    visit value
    return (key, value)
  | _ => throw .malformed

def filled (n : Nat) : Gives Meaning := do
  match (← get).get? n with
  | some (.mapping _) => return .mapping (← fieldsAt n)
  | some (.set _) => return .set ((← fieldsAt n).map Prod.fst)
  | some (.pairs _) => return .pairs (← (← itemsAt n).mapM pairAt)
  | _ =>
    let items ← itemsAt n
    items.forM visit
    return .sequence items

def fill (n : Nat) : Gives Unit := do
  give n (← filled n)

def fillAll : Nat → Gives Unit
  | 0 => pure ()
  | fuel + 1 => do
    let waiting := (← get).waiting
    if waiting.isEmpty then pure ()
    else
      modify fun m => { m with waiting := [] }
      waiting.reverse.forM fill
      fillAll fuel

/-- The meanings of a node and of all its parts. Each wave of collections holds a new one. -/
def ofGraph (g : Graph) (top : Nat) : Except Fault Meanings :=
  ((do visit top; fillAll (g.size + 1)) : Gives Unit).run (start g) |>.map Prod.snd

end Meanings

def Meaning.value (part : Nat → Value) : Meaning → Value
  | .scalar s => s.value
  | .sequence items => .sequence (items.map part)
  | .pairs items => .sequence (items.map fun (key, value) => .sequence [part key, part value])
  | .mapping fields => .mapping (fields.map fun (key, value) => (key.key, part value))
  | .set keys => .sequence (keys.map Scalar.value)

namespace Meanings

/-- The values of all nodes down to a depth, below which nothing is shown. -/
def values (m : Meanings) : Nat → Array Value
  | 0 => m.found.map fun _ => .null
  | depth + 1 =>
    let parts := m.values depth
    m.found.map fun meaning => meaning.elim .null (·.value fun n => parts[n]?.getD .null)

def value (m : Meanings) (depth n : Nat) : Value :=
  (m.values depth)[n]?.getD .null

end Meanings

end KeyAtlas.Yaml
