import KeyAtlas.CommandLine.Command
import KeyAtlas.Proofs.CommandLine.Option
import KeyAtlas.Proofs.Settings.Precedence

namespace KeyAtlas.CommandLine

open Settings (Arguments Setting)

variable {s : Surroundings} {p : Parsed} {args : List String} {c : Command}

def specsOf? : String → Option (List OptionSpec)
  | "index" => some (commonSpecs ++ [jsonOption])
  | "resolve" => some (commonSpecs ++ ⟨"from", none, "--from", true⟩ :: matchSpecs)
  | "at" => some (commonSpecs ++ matchSpecs)
  | "watch" => some (commonSpecs ++ [⟨"debounce", none, "--debounce-ms", true⟩])
  | _ => none

/-- What stands after the name of a command that builds an index, as its options read it. -/
def given? (args : List String) : Option Parsed :=
  match read programSpecs false args with
  | .ok ⟨[], name :: rest⟩ => (specsOf? name).bind fun specs => (read specs true rest).toOption
  | _ => none

def optionOf? : Setting → Option String
  | .roots => some "workspace"
  | .excludePatterns => some "exclude"
  | .filter => some "filter"
  | .isolate => some "no-isolation"
  | .debounce => some "debounce"
  | .file => some "log-file"
  | .verbosity => some "verbose"
  | .includePatterns | .enabled | .level => none

def Parsed.Omits (p : Parsed) (x : Setting) : Prop :=
  ∀ name, optionOf? x = some name → p.has name = false

def Unnamed (args : List String) (x : Setting) : Prop :=
  ∀ name command specs, optionOf? x = some name → specsOf? command = some specs →
    ¬Named specs args name

theorem omits_of_unnamed {x : Setting} (given : given? args = some p) (unnamed : Unnamed args x) :
    p.Omits x := by
  intro name own
  rw [← Bool.not_eq_true]
  intro present
  rw [given?] at given
  split at given
  · rename_i command rest program
    obtain ⟨specs, known, parsed⟩ := Option.bind_eq_some_iff.mp given
    have readRest := toOption_eq_some.mp parsed
    have within : rest ⊆ args :=
      List.Subset.trans (List.subset_cons_self command rest) (read_operands_subset program)
    exact unnamed name command specs own known ((read_named readRest present).mono within)
  · cases given

def Command.buildsIndex : Command → Bool
  | index .. | resolve .. | resolveAt .. | watch .. => true
  | validate _ | version | help => false

theorem Parsed.valuesOf_eq_nil {name : String} (omitted : p.has name = false) :
    p.valuesOf name = [] := by
  rw [has, List.any_eq_false] at omitted
  rw [valuesOf, List.filterMap_eq_nil_iff]
  intro g member
  have other := omitted g member
  rw [decide_eq_true_eq] at other
  rw [if_neg other]

theorem Parsed.count_eq_zero {name : String} (omitted : p.has name = false) : p.count name = 0 := by
  rw [has, List.any_eq_false] at omitted
  rw [count, List.length_eq_zero_iff, List.filter_eq_nil_iff]
  exact omitted

theorem optional_of_omitted {α : Type} {name : String} {f : String → Except UsageError α}
    {found : Option α} (omitted : p.has name = false) (got : optional p name f = .ok found) :
    found = none := by
  rw [optional, Parsed.value?, Parsed.valuesOf_eq_nil omitted] at got
  cases got
  rfl

/-- The common options are what the parsed ones say. -/
structure CommonOptions.ReadFrom (c : CommonOptions) (p : Parsed) : Prop where
  workspace : workspaceValue p = .ok c.workspace
  exclude : c.exclude = p.valuesOf "exclude"
  verbosity : c.verbosity = p.count "verbose"
  logFile : pathValue "log-file" p = .ok c.logFile

structure MatchOptions.ReadFrom (m : MatchOptions) (p : Parsed) : Prop where
  filter : filterValue p = .ok m.filter
  noIsolation : m.noIsolation = p.has "no-isolation"

def Command.ReadFrom (p : Parsed) : Command → Prop
  | index c _ => c.ReadFrom p
  | resolve c m _ _ => c.ReadFrom p ∧ m.ReadFrom p
  | resolveAt c m _ _ _ => c.ReadFrom p ∧ m.ReadFrom p
  | watch c debounce => c.ReadFrom p ∧ debounceValue p = .ok debounce
  | validate _ | version | help => True

theorem commonOptions_readFrom {common : CommonOptions} (got : commonOptions s p = .ok common) :
    common.ReadFrom p := by
  simp only [commonOptions, bind_eq_ok] at got
  obtain ⟨_, _, config, _, workspace, ofWorkspace, logFile, ofLogFile, made⟩ := got
  cases made
  exact ⟨ofWorkspace, rfl, rfl, ofLogFile⟩

theorem matchOptions_readFrom {shown : MatchOptions} (got : matchOptions p = .ok shown) :
    shown.ReadFrom p := by
  obtain ⟨filter, ofFilter, rfl⟩ := map_eq_ok.mp got
  exact ⟨ofFilter, rfl⟩

theorem orHelp_eq_ok {command : Except UsageError Command} (got : orHelp p command = .ok c)
    (builds : c.buildsIndex) : command = .ok c := by
  rw [orHelp] at got
  split at got
  · cases got
    cases builds
  · exact got

theorem indexCommand_readFrom {rest : List String} (got : indexCommand s rest = .ok c)
    (builds : c.buildsIndex) :
    ∃ p, read (commonSpecs ++ [jsonOption]) true rest = .ok p ∧ c.ReadFrom p := by
  obtain ⟨p, parsed, got⟩ := bind_eq_ok.mp got
  obtain ⟨common, ofCommon, got⟩ := bind_eq_ok.mp (orHelp_eq_ok got builds)
  obtain ⟨_, _, made⟩ := bind_eq_ok.mp got
  cases made
  exact ⟨p, parsed, commonOptions_readFrom ofCommon⟩

theorem resolveCommand_readFrom {rest : List String} (got : resolveCommand s rest = .ok c)
    (builds : c.buildsIndex) :
    ∃ p, read (commonSpecs ++ ⟨"from", none, "--from", true⟩ :: matchSpecs) true rest = .ok p ∧
      c.ReadFrom p := by
  obtain ⟨p, parsed, got⟩ := bind_eq_ok.mp got
  obtain ⟨common, ofCommon, got⟩ := bind_eq_ok.mp (orHelp_eq_ok got builds)
  obtain ⟨shown, ofShown, got⟩ := bind_eq_ok.mp got
  obtain ⟨source, _, got⟩ := bind_eq_ok.mp got
  obtain ⟨given, _, made⟩ := bind_eq_ok.mp got
  split at made
  · cases made
    exact ⟨p, parsed, commonOptions_readFrom ofCommon, matchOptions_readFrom ofShown⟩
  · cases made

theorem resolveAtCommand_readFrom {rest : List String} (got : resolveAtCommand s rest = .ok c)
    (builds : c.buildsIndex) :
    ∃ p, read (commonSpecs ++ matchSpecs) true rest = .ok p ∧ c.ReadFrom p := by
  obtain ⟨p, parsed, got⟩ := bind_eq_ok.mp got
  obtain ⟨common, ofCommon, got⟩ := bind_eq_ok.mp (orHelp_eq_ok got builds)
  obtain ⟨shown, ofShown, got⟩ := bind_eq_ok.mp got
  obtain ⟨_, _, got⟩ := bind_eq_ok.mp got
  obtain ⟨given, _, got⟩ := bind_eq_ok.mp got
  split at got
  · obtain ⟨line, _, got⟩ := bind_eq_ok.mp got
    obtain ⟨column, _, made⟩ := bind_eq_ok.mp got
    cases made
    exact ⟨p, parsed, commonOptions_readFrom ofCommon, matchOptions_readFrom ofShown⟩
  · cases got

theorem watchCommand_readFrom {rest : List String} (got : watchCommand s rest = .ok c)
    (builds : c.buildsIndex) :
    ∃ p, read (commonSpecs ++ [⟨"debounce", none, "--debounce-ms", true⟩]) true rest = .ok p ∧
      c.ReadFrom p := by
  obtain ⟨p, parsed, got⟩ := bind_eq_ok.mp got
  obtain ⟨common, ofCommon, got⟩ := bind_eq_ok.mp (orHelp_eq_ok got builds)
  obtain ⟨debounce, ofDebounce, got⟩ := bind_eq_ok.mp got
  obtain ⟨_, _, made⟩ := bind_eq_ok.mp got
  cases made
  exact ⟨p, parsed, commonOptions_readFrom ofCommon, ofDebounce⟩

theorem validateCommand_eq_ok {rest : List String} (got : validateCommand s rest = .ok c) :
    c.buildsIndex = false := by
  by_contra builds
  rw [Bool.not_eq_false] at builds
  obtain ⟨p, _, got⟩ := bind_eq_ok.mp got
  obtain ⟨config, _, got⟩ := bind_eq_ok.mp (orHelp_eq_ok got builds)
  obtain ⟨_, _, got⟩ := bind_eq_ok.mp got
  cases config <;> cases got
  cases builds

theorem programCommand?_eq_some (asked : programCommand? p = some c) : c.buildsIndex = false := by
  obtain ⟨first, _, rfl⟩ := Option.map_eq_some_iff.mp asked
  split <;> rfl

theorem programCommand?_eq_none : programCommand? p = none ↔ p.options = [] := by
  simp [programCommand?]

theorem otherCommand_eq_ok {name : String} {rest : List String}
    (got : otherCommand name rest = .ok c) : c.buildsIndex = false := by
  obtain ⟨p, _, got⟩ := bind_eq_ok.mp got
  split at got
  · rename_i asked
    cases got
    exact programCommand?_eq_some asked
  · cases got

theorem given?_eq_some {options : List Given} {name : String} {rest : List String}
    {specs : List OptionSpec} (program : read programSpecs false args = .ok ⟨options, name :: rest⟩)
    (asked : programCommand? ⟨options, name :: rest⟩ = none) (known : specsOf? name = some specs)
    (parsed : read specs true rest = .ok p) : given? args = some p := by
  have unnamed := programCommand?_eq_none.mp asked
  dsimp only at unnamed
  subst unnamed
  rw [given?, program]
  dsimp only
  rw [known, Option.bind_some, parsed]
  rfl

theorem ofArguments_readFrom (got : Command.ofArguments s args = .ok c) (builds : c.buildsIndex) :
    ∃ p, given? args = some p ∧ c.ReadFrom p := by
  obtain ⟨⟨options, operands⟩, program, got⟩ := bind_eq_ok.mp got
  dsimp only at got
  split at got
  · rename_i asked
    cases got
    rw [programCommand?_eq_some asked] at builds
    cases builds
  · cases got
  · rename_i rest asked
    obtain ⟨p, parsed, readFrom⟩ := indexCommand_readFrom got builds
    exact ⟨p, given?_eq_some program asked rfl parsed, readFrom⟩
  · rename_i rest asked
    obtain ⟨p, parsed, readFrom⟩ := resolveCommand_readFrom got builds
    exact ⟨p, given?_eq_some program asked rfl parsed, readFrom⟩
  · rename_i rest asked
    obtain ⟨p, parsed, readFrom⟩ := resolveAtCommand_readFrom got builds
    exact ⟨p, given?_eq_some program asked rfl parsed, readFrom⟩
  · rename_i rest asked
    obtain ⟨p, parsed, readFrom⟩ := watchCommand_readFrom got builds
    exact ⟨p, given?_eq_some program asked rfl parsed, readFrom⟩
  · rw [validateCommand_eq_ok got] at builds
    cases builds
  · rw [otherCommand_eq_ok got] at builds
    cases builds

theorem CommonOptions.ReadFrom.value?_eq_none {common : CommonOptions} (given : common.ReadFrom p)
    {x : Setting} (omitted : p.Omits x) (other : x ≠ .verbosity) (fields : Value.Fields) :
    common.arguments.value? fields x = none := by
  cases x with
  | roots =>
    have ofWorkspace := given.workspace
    rw [workspaceValue, Parsed.valuesOf_eq_nil (omitted _ rfl)] at ofWorkspace
    have unset : common.workspace = [] := (Except.ok.inj ofWorkspace).symm
    rw [Arguments.value?, arguments, unset]
    rfl
  | excludePatterns =>
    have unset := given.exclude.trans (Parsed.valuesOf_eq_nil (omitted _ rfl))
    rw [Arguments.value?, arguments, unset]
    rfl
  | file =>
    have unset := optional_of_omitted (omitted _ rfl) given.logFile
    rw [Arguments.value?, arguments, unset]
    rfl
  | verbosity => exact absurd rfl other
  | _ => rfl

theorem MatchOptions.ReadFrom.value?_eq_none {common : CommonOptions} {shown : MatchOptions}
    (given : common.ReadFrom p) (own : shown.ReadFrom p) {x : Setting} (omitted : p.Omits x)
    (other : x ≠ .verbosity) (fields : Value.Fields) :
    (common.matchArguments shown).value? fields x = none := by
  cases x with
  | filter =>
    have unset := optional_of_omitted (omitted _ rfl) own.filter
    rw [Arguments.value?, CommonOptions.matchArguments, unset]
    rfl
  | isolate =>
    have unset := own.noIsolation.trans (omitted _ rfl)
    rw [Arguments.value?, CommonOptions.matchArguments, unset]
    rfl
  | _ => exact given.value?_eq_none omitted other fields

/-- A setting whose option is not given is left to the environment and the file, all but the
verbosity. -/
theorem Command.ReadFrom.value?_eq_none (given : c.ReadFrom p) (builds : c.buildsIndex)
    {x : Setting} (omitted : p.Omits x) (other : x ≠ .verbosity) (fields : Value.Fields) :
    c.sources.2.value? fields x = none := by
  cases c with
  | index common json => exact CommonOptions.ReadFrom.value?_eq_none given omitted other fields
  | resolve common shown reference source =>
    exact MatchOptions.ReadFrom.value?_eq_none given.1 given.2 omitted other fields
  | resolveAt common shown file line column =>
    exact MatchOptions.ReadFrom.value?_eq_none given.1 given.2 omitted other fields
  | watch common debounce =>
    cases x with
    | debounce =>
      have unset := optional_of_omitted (omitted _ rfl) given.2
      rw [sources, Arguments.value?, unset]
      rfl
    | _ => exact CommonOptions.ReadFrom.value?_eq_none given.1 omitted other fields
  | validate _ | version | help => cases builds

theorem Command.ReadFrom.value?_verbosity (given : c.ReadFrom p) (builds : c.buildsIndex)
    (fields : Value.Fields) :
    c.sources.2.value? fields .verbosity = some (.int (p.count "verbose")) := by
  cases c with
  | index common json =>
    have count : common.verbosity = p.count "verbose" := given.verbosity
    rw [← count]
    rfl
  | resolve common shown reference source | resolveAt common shown file line column =>
    have count := given.1.verbosity
    rw [← count]
    rfl
  | watch common debounce =>
    have count := given.1.verbosity
    rw [← count]
    rfl
  | validate _ | version | help => cases builds

theorem Command.sources_hasLists (c : Command) : c.sources.2.HasLists := by
  cases c with
  | validate _ | version | help => exact ⟨nofun, nofun⟩
  | _ => exact ⟨fun _ => rfl, fun _ => rfl⟩

end KeyAtlas.CommandLine
