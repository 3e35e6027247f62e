import KeyAtlas.Settings.Basic
import KeyAtlas.Settings.Numeral
import KeyAtlas.Text.Utf8

namespace KeyAtlas

open Value (Fields)

namespace Settings

/-! ### Single values -/

/-- Octets stand for the text that they encode. -/
def checkText : Value → Checked String
  | .text s => .ok s
  | .points codes => .ok (Value.shownPoints codes)
  | .octets bytes =>
    match Text.Utf8.decode? bytes with
    | some text => .ok (.ofList text)
    | none => .fail .notUnicode
  | _ => .fail .notText

def checkPath : Value → Checked Path
  | .text s => .ok (.ofString s)
  | .points codes => .ok (.ofString (Value.shownPoints codes))
  | _ => .fail .notPath

def checkOptionalPath : Value → Checked (Option Path)
  | .null => .ok none
  | value => (checkPath value).map some

def checkItems {α : Type} (check : Value → Checked α) (position : Nat) :
    List Value → Checked (List α)
  | [] => .ok []
  | item :: rest =>
    (((check item).under (.item position)).and (checkItems check (position + 1) rest)).map
      fun (first, others) => first :: others

def checkList {α : Type} (check : Value → Checked α) : Value → Checked (List α)
  | .sequence items => checkItems check 0 items
  | _ => .fail .notList

def checkRoots (value : Value) : Checked (List Path) :=
  match checkList checkPath value with
  | .ok [] => .fail .noRoots
  | checked => checked

def checkNumeral (text : List Char) : Checked Int :=
  match Numeral.read text with
  | .ok n => .ok n
  | .error reason => .fail reason

/-- The least integer that does not fit in 64 bits with a sign, `2 ^ 63`. -/
def wordEnd : Int :=
  9223372036854775808

def isWord (n : Int) : Bool :=
  -wordEnd ≤ n && n < wordEnd

/-- The integer that equals a double; only those of 64 bits are read. -/
def checkWhole (x : Float) : Checked Int :=
  if x.isNaN || x.isInf then .fail .notFinite
  else if x.floor != x then .fail .hasFraction
  else if -9223372036854775808.0 < x && x < 9223372036854775808.0 then .ok x.toInt64.toInt
  else .fail .numeralTooLong

def checkInteger : Value → Checked Int
  | .int n => .ok n
  | .flag b => .ok (if b then 1 else 0)
  | .float x => checkWhole x
  | .text s => checkNumeral s.toList
  | .points _ => .fail .notUnicode
  | .octets bytes => (Text.Utf8.decode? bytes).elim (.fail .notNumeral) checkNumeral
  | _ => .fail .notInteger

def checkDebounce (value : Value) : Checked Nat :=
  match checkInteger value with
  | .error faults => .error faults
  | .ok n =>
    if n < 0 then .fail .tooSmall
    else if longestDebounce < n then .fail .tooLarge
    else .ok n.toNat

def flagWords : List (String × Bool) :=
  [("0", false), ("f", false), ("n", false), ("no", false), ("off", false), ("false", false),
   ("1", true), ("t", true), ("y", true), ("yes", true), ("on", true), ("true", true)]

def checkFlagNumber (n : Int) : Checked Bool :=
  if n = 0 then .ok false else if n = 1 then .ok true else .fail .notFlagWord

def checkFlagWord (text : List Char) : Checked Bool :=
  match flagWords.lookup (String.ofList (Text.lowercaseAscii text)) with
  | some b => .ok b
  | none => .fail .notFlagWord

def checkFlag : Value → Checked Bool
  | .flag b => .ok b
  | .text s => checkFlagWord s.toList
  | .points _ => .fail .notUnicode
  | .octets bytes => (Text.Utf8.decode? bytes).elim (.fail .notFlagWord) checkFlagWord
  | .int n => if isWord n then checkFlagNumber n else .fail .notFlag
  | .float x =>
    match checkWhole x with
    | .ok n => checkFlagNumber n
    | .error _ => .fail .notFlag
  | _ => .fail .notFlag

def checkFilter : Value → Checked Resolution.Filter
  | .text s =>
    match Resolution.Filter.parse s with
    | .ok filter => .ok filter
    | .error _ => .fail .notChoice
  | .points _ => .fail .notUnicode
  | _ => .fail .notChoice

def checkLevel : Value → Checked Log.Level
  | .text s =>
    match Log.Level.ofSetting? s with
    | some level => .ok level
    | none => .fail .notChoice
  | .points _ => .fail .notUnicode
  | _ => .fail .notChoice

/-! ### Fields and sections -/

def checkField {α : Type} (fields : Fields) (name : String) (default : α)
    (check : Value → Checked α) : Checked α :=
  match fields.lookup (.name name) with
  | none => .ok default
  | some value => (check value).under (.field (.name name))

def unknownFields (known : List String) (fields : Fields) : List Fault :=
  fields.filterMap fun (key, _) =>
    match key with
    | .name name => if known.contains name then none else some ⟨.unknownField, [.field key]⟩
    | _ => some ⟨.keyNotText, [.field key]⟩

/-- Whether a key holds no half of a surrogate pair. -/
def isWhole : Key → Bool
  | .points _ => false
  | _ => true

/-- Checks the known fields and that there are no others. The name of every field must be made of
whole characters. -/
def checkFields {α : Type} (known : List String) (check : Fields → Checked α) (fields : Fields) :
    Checked α :=
  if fields.all fun f => isWhole f.1 then (check fields).close (unknownFields known fields)
  else .fail .notUnicode

def checkSection {α : Type} (known : List String) (check : Fields → Checked α) : Value → Checked α
  | .mapping fields => checkFields known check fields
  | _ => .fail .notSection

def checkWorkspace (fields : Fields) : Checked WorkspaceSettings :=
  let d := default.workspace
  ((checkField fields "roots" d.roots checkRoots).and
    ((checkField fields "include_patterns" d.includePatterns (checkList checkText)).and
      (checkField fields "exclude_patterns" d.excludePatterns (checkList checkText)))).map
    fun (roots, included, excluded) => ⟨roots, included, excluded⟩

def checkResolver (fields : Fields) : Checked ResolverSettings :=
  let d := default.resolver
  ((checkField fields "match_filter" d.filter checkFilter).and
    (checkField fields "isolate_workspace_folders" d.isolate checkFlag)).map
    fun (filter, isolate) => ⟨filter, isolate⟩

def checkWatch (fields : Fields) : Checked WatchSettings :=
  let d := default.watch
  ((checkField fields "enabled" d.enabled checkFlag).and
    (checkField fields "debounce_ms" d.debounce checkDebounce)).map
    fun (enabled, debounce) => ⟨enabled, debounce⟩

def checkLogging (fields : Fields) : Checked LoggingSettings :=
  let d := default.logging
  ((checkField fields "level" d.level checkLevel).and
    ((checkField fields "file" d.file checkOptionalPath).and
      (checkField fields "verbose" d.verbosity checkInteger))).map
    fun (level, file, verbosity) => ⟨level, file, verbosity⟩

def workspaceFields : List String :=
  ["roots", "include_patterns", "exclude_patterns"]

def resolverFields : List String :=
  ["match_filter", "isolate_workspace_folders"]

def watchFields : List String :=
  ["enabled", "debounce_ms"]

def loggingFields : List String :=
  ["level", "file", "verbose"]

def sections : List String :=
  ["workspace", "resolver", "watch", "logging"]

def checkSections (fields : Fields) : Checked Settings :=
  let d := default
  ((checkField fields "workspace" d.workspace (checkSection workspaceFields checkWorkspace)).and
    ((checkField fields "resolver" d.resolver (checkSection resolverFields checkResolver)).and
      ((checkField fields "watch" d.watch (checkSection watchFields checkWatch)).and
        (checkField fields "logging" d.logging (checkSection loggingFields checkLogging))))).map
    fun (workspace, resolver, watch, logging) => ⟨workspace, resolver, watch, logging⟩

def check (fields : Fields) : Checked Settings :=
  checkFields sections checkSections fields

end Settings

end KeyAtlas
