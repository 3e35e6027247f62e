import KeyAtlas.Proofs.Result
import KeyAtlas.Settings.Check

namespace KeyAtlas.Settings

open Value (Fields)

inductive Section where
  | workspace
  | resolver
  | watch
  | logging
  deriving DecidableEq, Repr

def Section.name : Section → String
  | workspace => "workspace"
  | resolver => "resolver"
  | watch => "watch"
  | logging => "logging"

inductive Setting where
  | roots
  | includePatterns
  | excludePatterns
  | filter
  | isolate
  | enabled
  | debounce
  | level
  | file
  | verbosity
  deriving DecidableEq, Repr

namespace Setting

def home : Setting → Section
  | roots | includePatterns | excludePatterns => .workspace
  | filter | isolate => .resolver
  | enabled | debounce => .watch
  | level | file | verbosity => .logging

def name : Setting → String
  | roots => "roots"
  | includePatterns => "include_patterns"
  | excludePatterns => "exclude_patterns"
  | filter => "match_filter"
  | isolate => "isolate_workspace_folders"
  | enabled => "enabled"
  | debounce => "debounce_ms"
  | level => "level"
  | file => "file"
  | verbosity => "verbose"

@[reducible] def Kind : Setting → Type
  | roots => List Path
  | includePatterns | excludePatterns => List String
  | filter => Resolution.Filter
  | isolate | enabled => Bool
  | debounce => Nat
  | level => Log.Level
  | file => Option Path
  | verbosity => Int

def get (s : Settings) : (x : Setting) → x.Kind
  | roots => s.workspace.roots
  | includePatterns => s.workspace.includePatterns
  | excludePatterns => s.workspace.excludePatterns
  | filter => s.resolver.filter
  | isolate => s.resolver.isolate
  | enabled => s.watch.enabled
  | debounce => s.watch.debounce
  | level => s.logging.level
  | file => s.logging.file
  | verbosity => s.logging.verbosity

theorem exists_get (values : (x : Setting) → x.Kind) : ∃ s : Settings, ∀ x, get s x = values x := by
  refine ⟨⟨⟨values roots, values includePatterns, values excludePatterns⟩,
    ⟨values filter, values isolate⟩, ⟨values enabled, values debounce⟩,
    ⟨values level, values file, values verbosity⟩⟩, fun x => ?_⟩
  cases x <;> rfl

def check : (x : Setting) → Value → Checked x.Kind
  | roots => checkRoots
  | includePatterns | excludePatterns => checkList checkText
  | filter => checkFilter
  | isolate | enabled => checkFlag
  | debounce => checkDebounce
  | level => checkLevel
  | file => checkOptionalPath
  | verbosity => checkInteger

theorem check_mapping (x : Setting) (fields others : Fields) :
    x.check (.mapping fields) = x.check (.mapping others) := by
  cases x <;> rfl

/-- The value of a setting: its default, unless something else stands for it. -/
def read (x : Setting) (value : Option Value) : Checked x.Kind :=
  value.elim (.ok (get default x)) x.check

def valueIn (x : Setting) (fields : Fields) : Option Value :=
  (fields.lookup (.name x.home.name)).bind (Value.get? (.name x.name))

end Setting

/-! ### Known keys -/

def Section.Knows (group : Section) (key : Key) : Prop :=
  ∃ x : Setting, x.home = group ∧ key = .name x.name

/-- Every key of the configuration names a section, and every key of a section one of its
settings. -/
structure KnowsKeys (fields : Fields) : Prop where
  ofSections : ∀ key ∈ fields.map Prod.fst, ∃ group : Section, key = .name group.name
  ofSettings : ∀ (group : Section) (inner : Fields),
    fields.lookup (.name group.name) = some (.mapping inner) → ∀ key ∈ inner.map Prod.fst,
      group.Knows key

def Section.IsMappingIn (group : Section) (fields : Fields) : Prop :=
  ∀ value, fields.lookup (.name group.name) = some value → ∃ inner, value = .mapping inner

def HasSections (fields : Fields) : Prop :=
  ∀ group : Section, group.IsMappingIn fields

/-! ### Parts of a check -/

namespace Checked

variable {α β : Type}

theorem and_eq_ok {a : Checked α} {b : Checked β} {x : α} {y : β} :
    a.and b = .ok (x, y) ↔ a = .ok x ∧ b = .ok y := by
  cases a <;> cases b <;> simp [Checked.and]

theorem under_eq_ok {c : Checked α} {step : Step} {x : α} : c.under step = .ok x ↔ c = .ok x := by
  cases c with
  | ok _ => exact Iff.rfl
  | error _ =>
    constructor
    · intro failed
      cases failed
    · intro failed
      cases failed

theorem close_eq_ok {c : Checked α} {found : List Fault} {x : α} :
    c.close found = .ok x ↔ c = .ok x ∧ found = [] := by
  cases c <;> cases found <;> simp [close]

end Checked

section

variable {α : Type} {fields : Fields} {known : List String} {check : Fields → Checked α} {a d : α}

theorem unknownFields_eq_nil : unknownFields known fields = [] ↔
    ∀ key ∈ fields.map Prod.fst, ∃ name ∈ known, key = .name name := by
  rw [unknownFields, List.filterMap_eq_nil_iff, List.forall_mem_map]
  refine forall₂_congr fun entry _ => ?_
  obtain ⟨key, value⟩ := entry
  cases key <;> simp

theorem checkFields_eq_ok :
    checkFields known check fields = .ok a ↔
      (∀ key ∈ fields.map Prod.fst, ∃ name ∈ known, key = .name name) ∧ check fields = .ok a := by
  rw [checkFields]
  split
  · rw [Checked.close_eq_ok, unknownFields_eq_nil, and_comm]
  · rename_i broken
    refine ⟨nofun, fun ⟨allKnown, _⟩ => (broken ?_).elim⟩
    rw [List.all_eq_true]
    intro entry member
    obtain ⟨name, _, named⟩ := allKnown entry.1 (List.mem_map_of_mem member)
    rw [named]
    rfl

theorem checkField_eq_ok {name : String} {check : Value → Checked α} :
    checkField fields name d check = .ok a ↔
      ((fields.lookup (.name name)).elim (.ok d) check) = .ok a := by
  rw [checkField]
  cases fields.lookup (.name name) with
  | none => exact Iff.rfl
  | some value => exact Checked.under_eq_ok

def Section.fieldNames : Section → List String
  | workspace => workspaceFields
  | resolver => resolverFields
  | watch => watchFields
  | logging => loggingFields

def Section.HoldsIn (group : Section) (fields : Fields) : Prop :=
  ∀ value, fields.lookup (.name group.name) = some value → ∃ inner, value = .mapping inner ∧
    ∀ key ∈ inner.map Prod.fst, ∃ name ∈ group.fieldNames, key = .name name

def entriesOf (fields : Fields) (group : Section) : Fields :=
  match fields.lookup (.name group.name) with
  | some (.mapping inner) => inner
  | _ => []

theorem checkField_section (group : Section) (fresh : check [] = .ok d) :
    checkField fields group.name d (checkSection group.fieldNames check) = .ok a ↔
      group.HoldsIn fields ∧ check (entriesOf fields group) = .ok a := by
  rw [checkField_eq_ok, entriesOf, Section.HoldsIn]
  cases fields.lookup (.name group.name) with
  | none => simp [fresh]
  | some value =>
    cases value with
    | mapping inner => simp [checkSection, checkFields_eq_ok]
    | _ => simp [checkSection, Checked.fail]

end

theorem lookup_entriesOf (fields : Fields) (x : Setting) :
    (entriesOf fields x.home).lookup (.name x.name) = x.valueIn fields := by
  rw [entriesOf, Setting.valueIn]
  cases fields.lookup (.name x.home.name) with
  | none => rfl
  | some value => cases value <;> rfl

/-! ### Sections -/

section

variable {fields : Fields}

theorem checkWorkspace_eq_ok {w : WorkspaceSettings} :
    checkWorkspace fields = .ok w ↔
      Setting.roots.read (fields.lookup (.name "roots")) = .ok w.roots ∧
      Setting.includePatterns.read (fields.lookup (.name "include_patterns")) =
        .ok w.includePatterns ∧
      Setting.excludePatterns.read (fields.lookup (.name "exclude_patterns")) =
        .ok w.excludePatterns := by
  simp only [checkWorkspace, map_eq_ok, Prod.exists, Checked.and_eq_ok, checkField_eq_ok]
  constructor
  · rintro ⟨roots, included, excluded, parts, rfl⟩
    exact parts
  · intro parts
    exact ⟨w.roots, w.includePatterns, w.excludePatterns, parts, rfl⟩

theorem checkResolver_eq_ok {r : ResolverSettings} :
    checkResolver fields = .ok r ↔
      Setting.filter.read (fields.lookup (.name "match_filter")) = .ok r.filter ∧
      Setting.isolate.read (fields.lookup (.name "isolate_workspace_folders")) = .ok r.isolate := by
  simp only [checkResolver, map_eq_ok, Prod.exists, Checked.and_eq_ok, checkField_eq_ok]
  constructor
  · rintro ⟨filter, isolate, parts, rfl⟩
    exact parts
  · intro parts
    exact ⟨r.filter, r.isolate, parts, rfl⟩

theorem checkWatch_eq_ok {w : WatchSettings} :
    checkWatch fields = .ok w ↔
      Setting.enabled.read (fields.lookup (.name "enabled")) = .ok w.enabled ∧
      Setting.debounce.read (fields.lookup (.name "debounce_ms")) = .ok w.debounce := by
  simp only [checkWatch, map_eq_ok, Prod.exists, Checked.and_eq_ok, checkField_eq_ok]
  constructor
  · rintro ⟨enabled, debounce, parts, rfl⟩
    exact parts
  · intro parts
    exact ⟨w.enabled, w.debounce, parts, rfl⟩

theorem checkLogging_eq_ok {l : LoggingSettings} :
    checkLogging fields = .ok l ↔
      Setting.level.read (fields.lookup (.name "level")) = .ok l.level ∧
      Setting.file.read (fields.lookup (.name "file")) = .ok l.file ∧
      Setting.verbosity.read (fields.lookup (.name "verbose")) = .ok l.verbosity := by
  simp only [checkLogging, map_eq_ok, Prod.exists, Checked.and_eq_ok, checkField_eq_ok]
  constructor
  · rintro ⟨level, file, verbosity, parts, rfl⟩
    exact parts
  · intro parts
    exact ⟨l.level, l.file, l.verbosity, parts, rfl⟩

theorem checkSections_eq_ok {s : Settings} :
    checkSections fields = .ok s ↔
      checkField fields Section.workspace.name default.workspace
        (checkSection Section.workspace.fieldNames checkWorkspace) = .ok s.workspace ∧
      checkField fields Section.resolver.name default.resolver
        (checkSection Section.resolver.fieldNames checkResolver) = .ok s.resolver ∧
      checkField fields Section.watch.name default.watch
        (checkSection Section.watch.fieldNames checkWatch) = .ok s.watch ∧
      checkField fields Section.logging.name default.logging
        (checkSection Section.logging.fieldNames checkLogging) = .ok s.logging := by
  simp only [checkSections, map_eq_ok, Prod.exists, Checked.and_eq_ok]
  constructor
  · rintro ⟨workspace, resolver, watch, logging, parts, rfl⟩
    exact parts
  · intro parts
    exact ⟨s.workspace, s.resolver, s.watch, s.logging, parts, rfl⟩

end

/-! ### The whole configuration -/

theorem mem_sections_iff {key : Key} :
    (∃ name ∈ sections, key = .name name) ↔ ∃ group : Section, key = .name group.name := by
  constructor
  · rintro ⟨name, member, rfl⟩
    simp only [sections, List.mem_cons, List.not_mem_nil, or_false] at member
    rcases member with rfl | rfl | rfl | rfl
    · exact ⟨.workspace, rfl⟩
    · exact ⟨.resolver, rfl⟩
    · exact ⟨.watch, rfl⟩
    · exact ⟨.logging, rfl⟩
  · rintro ⟨group, rfl⟩
    refine ⟨group.name, ?_, rfl⟩
    cases group <;> decide

theorem knows_iff {group : Section} {key : Key} :
    group.Knows key ↔ ∃ name ∈ group.fieldNames, key = .name name := by
  constructor
  · rintro ⟨x, rfl, rfl⟩
    refine ⟨x.name, ?_, rfl⟩
    cases x <;> decide
  · rintro ⟨name, member, rfl⟩
    cases group <;>
      simp only [Section.fieldNames, workspaceFields, resolverFields, watchFields, loggingFields,
        List.mem_cons, List.not_mem_nil, or_false] at member
    · rcases member with rfl | rfl | rfl
      · exact ⟨.roots, rfl, rfl⟩
      · exact ⟨.includePatterns, rfl, rfl⟩
      · exact ⟨.excludePatterns, rfl, rfl⟩
    · rcases member with rfl | rfl
      · exact ⟨.filter, rfl, rfl⟩
      · exact ⟨.isolate, rfl, rfl⟩
    · rcases member with rfl | rfl
      · exact ⟨.enabled, rfl, rfl⟩
      · exact ⟨.debounce, rfl, rfl⟩
    · rcases member with rfl | rfl | rfl
      · exact ⟨.level, rfl, rfl⟩
      · exact ⟨.file, rfl, rfl⟩
      · exact ⟨.verbosity, rfl, rfl⟩

theorem knowsKeys_and_hasSections_iff {fields : Fields} :
    KnowsKeys fields ∧ HasSections fields ↔
      (∀ key ∈ fields.map Prod.fst, ∃ name ∈ sections, key = .name name) ∧
        ∀ group : Section, group.HoldsIn fields := by
  constructor
  · rintro ⟨known, mappings⟩
    refine ⟨fun key member => mem_sections_iff.mpr (known.ofSections key member), ?_⟩
    intro group value found
    obtain ⟨inner, rfl⟩ := mappings group value found
    exact ⟨inner, rfl, fun key member => knows_iff.mp (known.ofSettings group inner found key member)⟩
  · rintro ⟨keys, holds⟩
    refine ⟨⟨fun key member => mem_sections_iff.mp (keys key member), ?_⟩, ?_⟩
    · intro group inner found key member
      obtain ⟨_, same, known⟩ := holds group _ found
      cases same
      exact knows_iff.mpr (known key member)
    · intro group value found
      obtain ⟨inner, rfl, _⟩ := holds group value found
      exact ⟨inner, rfl⟩

/-- A configuration passes its check just if all its keys are known, its sections are mappings, and
every setting reads what stands for it. -/
theorem check_eq_ok {fields : Fields} {s : Settings} :
    check fields = .ok s ↔
      KnowsKeys fields ∧ HasSections fields ∧
        ∀ x : Setting, x.read (x.valueIn fields) = .ok (x.get s) := by
  have workspace : checkWorkspace [] = .ok default.workspace := rfl
  have resolver : checkResolver [] = .ok default.resolver := rfl
  have watch : checkWatch [] = .ok default.watch := rfl
  have logging : checkLogging [] = .ok default.logging := rfl
  rw [check, checkFields_eq_ok, checkSections_eq_ok, checkField_section .workspace workspace,
    checkField_section .resolver resolver, checkField_section .watch watch,
    checkField_section .logging logging, checkWorkspace_eq_ok, checkResolver_eq_ok,
    checkWatch_eq_ok, checkLogging_eq_ok]
  have at' := lookup_entriesOf fields
  constructor
  · rintro ⟨keys, ⟨workspace, roots, included, excluded⟩, ⟨resolver, filter, isolate⟩,
      ⟨watch, enabled, debounce⟩, logging, level, file, verbosity⟩
    have holds (group : Section) : group.HoldsIn fields := by cases group <;> assumption
    obtain ⟨known, mappings⟩ := knowsKeys_and_hasSections_iff.mpr ⟨keys, holds⟩
    refine ⟨known, mappings, fun x => ?_⟩
    rw [← at' x]
    cases x <;> assumption
  · rintro ⟨known, mappings, reads⟩
    obtain ⟨keys, holds⟩ := knowsKeys_and_hasSections_iff.mp ⟨known, mappings⟩
    have reads' (x : Setting) : x.read ((entriesOf fields x.home).lookup (.name x.name)) =
        .ok (x.get s) := at' x ▸ reads x
    exact ⟨keys, ⟨holds .workspace, reads' .roots, reads' .includePatterns, reads' .excludePatterns⟩,
      ⟨holds .resolver, reads' .filter, reads' .isolate⟩,
      ⟨holds .watch, reads' .enabled, reads' .debounce⟩,
      holds .logging, reads' .level, reads' .file, reads' .verbosity⟩

end KeyAtlas.Settings
