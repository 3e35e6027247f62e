import KeyAtlas.Definition
import KeyAtlas.OrderedMap

namespace KeyAtlas.Resolution

/-- Keeps `m` when its document has no match yet or only a worse one. -/
def keepBetter (best : OrderedMap String Match) (m : Match) : OrderedMap String Match :=
  match best.get? m.document with
  | none => best.insert m.document m
  | some kept => if kept.level < m.level then best.insert m.document m else best

/-- One match for each document: the first of those at its highest level. -/
def bestPerDocument (found : List Match) : List Match :=
  (found.foldl keepBetter .empty).values

/-- Higher levels come first, and documents of one level in the order of their names. -/
def ranksBefore (m other : Match) : Bool :=
  other.level < m.level || (m.level = other.level && m.document ≤ other.document)

def rank (found : List Match) : List Match :=
  found.mergeSort ranksBefore

end KeyAtlas.Resolution
