import KeyAtlas.Path
import KeyAtlas.Resolution.Filter
import KeyAtlas.Resolution.Ranking
/-!
Resolution: from what a lookup finds to the definitions shown for one reference. The matches are
reduced to one for each document and ranked, then restricted to the workspace root of the document
that holds the reference, then filtered.
-/

namespace KeyAtlas.Resolution

structure Policy where
  isolate : Bool
  defaultFilter : Filter
  rootOf : Option (Path → Option Path)

/-- What a reference resolves to. A reference that is empty or has an empty component is refused
without a lookup. -/
inductive Answer where
  | refused
  | found (filter : Filter) (shown : List Match)

def isLookup (path : List String) : Bool :=
  !path.isEmpty && path.all (· ≠ "")

namespace Policy

/-- The matches in the same workspace root as `source`, all of them when that root is unknown. -/
def isolated (rootOf : Path → Option Path) (source : String) (found : List Match) : List Match :=
  match rootOf (.ofString source) with
  | none => found
  | some root => found.filter fun m => rootOf (.ofString m.document) = some root

def restrict (p : Policy) (source : Option String) (found : List Match) : List Match :=
  match p.rootOf, source with
  | some rootOf, some source =>
    if p.isolate && source ≠ "" then isolated rootOf source found else found
  | _, _ => found

def select (p : Policy) (lookup : List String → List Match) (path : List String) (filter : Filter)
    (source : Option String) : List Match :=
  filter.apply path.length (p.restrict source (rank (bestPerDocument (lookup path))))

def resolve (p : Policy) (lookup : List String → List Match) (path : List String)
    (filter : Option String) (source : Option String) : Except UnknownFilter Answer :=
  if isLookup path then
    match filter with
    | none => .ok (.found p.defaultFilter (p.select lookup path p.defaultFilter source))
    | some text =>
      match Filter.parse text with
      | .ok chosen => .ok (.found chosen (p.select lookup path chosen source))
      | .error unknown => .error unknown
  else .ok .refused

end Policy

end KeyAtlas.Resolution
