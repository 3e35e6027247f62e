import KeyAtlas.Definition
import KeyAtlas.Text.Lowercase

namespace KeyAtlas.Resolution

/-- `all` shows every match, `top` those at the best level present, `perfect` those that agree
with the whole reference. -/
inductive Filter where
  | all
  | top
  | perfect
  deriving DecidableEq, Repr

structure UnknownFilter where
  text : String
  deriving DecidableEq, Repr

namespace Filter

def name : Filter → String
  | all => "all"
  | top => "top"
  | perfect => "perfect"

def names : List (String × Filter) :=
  [("all", all), ("perfect", perfect), ("perfect matches only", perfect), ("top", top),
   ("top matches only", top)]

def ofName? (text : String) : Option Filter :=
  [all, top, perfect].find? (·.name = text)

/-- The filter with this name. Blanks around the name and its case do not count. -/
def parse (text : String) : Except UnknownFilter Filter :=
  match names.lookup (String.ofList (Text.lowercase (Text.trim text.toList))) with
  | some filter => .ok filter
  | none => .error ⟨text⟩

def apply (filter : Filter) (length : Int) (found : List Match) : List Match :=
  match filter with
  | all => found
  | top => found.filter fun m => found.all fun other => other.level ≤ m.level
  | perfect => found.filter fun m => m.level = length

end Filter

def UnknownFilter.message (e : UnknownFilter) : String :=
  "Unknown match filter '" ++ e.text ++ "'. Valid: " ++
    ", ".intercalate (Filter.names.map Prod.fst)

end KeyAtlas.Resolution
