import KeyAtlas.Settings.Basic
import KeyAtlas.Text.Split
import KeyAtlas.Value.Merge

namespace KeyAtlas

open Value (Fields)

namespace Settings

/-- The variables that settings are read from; an empty one counts as unset. -/
structure Environment where
  workspace : String
  logLevel : String
  filter : String

/-- The arguments of a command, null where one is not given. Lists and texts count only if they are
not empty. -/
structure Arguments where
  /-- The workspace roots in place of those configured. -/
  workspace : Value
  /-- Globs that are excluded besides those configured. -/
  exclude : Value
  filter : Value
  noIsolation : Value
  debounce : Value
  logLevel : Value
  logFile : Value
  verbosity : Value

namespace Arguments

def none : Arguments :=
  ⟨.null, .null, .null, .null, .null, .null, .null, .null⟩

end Arguments

inductive OverrideError where
  | sectionExpected
  | listExpected
  deriving DecidableEq, Repr

/-- A section with these fields, left out when there are none. -/
def grouped (name : String) (fields : List (String × Value)) : Fields :=
  if fields.isEmpty then [] else [(.name name, .record fields)]

/-- A field that is overridden by a text, which counts only if it is not empty. -/
def textField (name : String) (text : String) : List (String × Value) :=
  if text = "" then [] else [(name, .text text)]

def rootsOf (text : String) : List String :=
  ((Text.splitOn ':' text.toList).map String.ofList).filter (· ≠ "")

def Environment.overrides (e : Environment) : Fields :=
  grouped "workspace"
      (if e.workspace = "" then [] else [("roots", .texts (rootsOf e.workspace))]) ++
    grouped "logging"
      (textField "level" (String.ofList (Text.lowercase e.logLevel.toList))) ++
    grouped "resolver" (textField "match_filter" e.filter)

def itemsOf (value : Value) : Except OverrideError (List Value) :=
  match value.listed? with
  | some items => .ok items
  | none => .error .listExpected

def excludedGlobs (config : Fields) : Except OverrideError (List Value) :=
  let defaults := Host.defaultExcludes.map Value.text
  match config.lookup (.name "workspace") with
  | none => .ok defaults
  | some (.mapping fields) =>
    match fields.lookup (.name "exclude_patterns") with
    | none | some .null => .ok defaults
    | some value => itemsOf value
  | some _ => .error .sectionExpected

def excludeField (config : Fields) (extra : Value) :
    Except OverrideError (List (String × Value)) := do
  if extra.isTruthy then
    let globs ← excludedGlobs config
    return [("exclude_patterns", .sequence (globs ++ (← itemsOf extra)))]
  else return []

def rootsField (roots : Value) : Except OverrideError (List (String × Value)) := do
  if roots.isTruthy then
    return [("roots", .texts ((← itemsOf roots).map Value.display))]
  else return []

def truthyField (name : String) (value : Value) : List (String × Value) :=
  if value.isTruthy then [(name, value)] else []

def givenField (name : String) (value : Value) : List (String × Value) :=
  match value with
  | .null => []
  | given => [(name, given)]

def Arguments.overrides (a : Arguments) (config : Fields) : Except OverrideError Fields := do
  let roots ← rootsField a.workspace
  let excluded ← excludeField config a.exclude
  return grouped "workspace" (roots ++ excluded) ++
    grouped "resolver"
      (truthyField "match_filter" a.filter ++
        if a.noIsolation.isTruthy then [("isolate_workspace_folders", .flag false)] else []) ++
    grouped "watch" (givenField "debounce_ms" a.debounce) ++
    grouped "logging"
      (truthyField "level" a.logLevel ++ truthyField "file" a.logFile ++
        givenField "verbose" a.verbosity)

def Arguments.applyTo (a : Arguments) (config : Fields) : Except OverrideError Fields :=
  (a.overrides config).map (Value.mergeFields config)

end Settings

end KeyAtlas
