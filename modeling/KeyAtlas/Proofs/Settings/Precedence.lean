import KeyAtlas.Proofs.Settings.Override
import KeyAtlas.Proofs.Value.Same
import KeyAtlas.Settings.Load

namespace KeyAtlas.Settings

open Value (Fields)

variable {reader : DocumentReader} {e : Environment} {a : Arguments} {fields : Fields}
  {s : Settings}

/-- What stands for a setting once the environment and the arguments have been looked at. -/
def effective? (e : Environment) (a : Arguments) (fields : Fields) (x : Setting) : Option Value :=
  ((a.value? fields x).or (e.value? x)).or (x.valueIn fields)

def inEnvironment (e : Environment) (fields : Fields) : Fields :=
  Value.mergeFields fields e.overrides

def overridden (e : Environment) (a : Arguments) (fields : Fields) : Fields :=
  Value.mergeFields (inEnvironment e fields) (a.parts (inEnvironment e fields)).fields

theorem excludePatterns_valueIn_inEnvironment :
    Setting.excludePatterns.valueIn (inEnvironment e fields) =
      Setting.excludePatterns.valueIn fields := by
  rw [inEnvironment, e.overrides_eq, Parts.valueIn_mergeFields e.parts_isProper, e.valueIn_parts]
  rfl

theorem Arguments.value?_congr {others : Fields}
    (same : Setting.excludePatterns.valueIn others = Setting.excludePatterns.valueIn fields)
    (x : Setting) : a.value? others x = a.value? fields x := by
  have globs : globsIn others = globsIn fields := by rw [globsIn, globsIn, same]
  cases x <;> simp only [value?, globs]

theorem read_overridden (x : Setting) :
    x.read (x.valueIn (overridden e a fields)) = x.read (effective? e a fields x) := by
  have proper := a.parts_isProper (inEnvironment e fields)
  rw [overridden, Parts.read_mergeFields proper, a.valueIn_parts,
    Arguments.value?_congr excludePatterns_valueIn_inEnvironment, effective?, Option.or_assoc]
  cases a.value? fields x with
  | some value => rfl
  | none =>
    rw [Option.none_or, Option.none_or, inEnvironment, e.overrides_eq,
      Parts.read_mergeFields e.parts_isProper, e.valueIn_parts]

theorem knowsKeys_overridden : KnowsKeys (overridden e a fields) ↔ KnowsKeys fields := by
  rw [overridden, Parts.knowsKeys_mergeFields (a.parts_isProper _), inEnvironment, e.overrides_eq,
    Parts.knowsKeys_mergeFields e.parts_isProper]

theorem hasSections_overridden :
    HasSections (overridden e a fields) ↔
      ∀ group : Section, a.part (inEnvironment e fields) group = [] → e.parts.within group = [] →
        group.IsMappingIn fields := by
  refine forall_congr' fun group => ?_
  rw [overridden, Parts.isMappingIn_mergeFields (a.parts_isProper _), a.within_parts, inEnvironment,
    e.overrides_eq, Parts.isMappingIn_mergeFields e.parts_isProper]

theorem named_overridden : (∀ key ∈ (overridden e a fields).map Prod.fst, isNamed key) ↔
    ∀ key ∈ fields.map Prod.fst, isNamed key := by
  simp only [overridden, inEnvironment, e.overrides_eq, Value.mem_keys_mergeFields]
  constructor
  · exact fun named key member => named key (.inl (.inl member))
  · rintro named key ((own | new) | new)
    · exact named key own
    all_goals
      obtain ⟨part, _, rfl, _⟩ := Parts.mem_keys_fields.mp new
      rfl

theorem checkNamed_of_named (named : ∀ key ∈ fields.map Prod.fst, isNamed key) :
    checkNamed fields = (check fields).mapError .invalid := by
  rw [checkNamed, if_pos]
  exact List.all_eq_true.mpr fun entry member => named entry.1 (List.mem_map_of_mem member)

theorem KnowsKeys.named (known : KnowsKeys fields) : ∀ key ∈ fields.map Prod.fst, isNamed key := by
  intro key member
  obtain ⟨group, rfl⟩ := known.ofSections key member
  rfl

theorem checkNamed_eq_ok :
    checkNamed fields = .ok s ↔
      KnowsKeys fields ∧ HasSections fields ∧
        ∀ x : Setting, x.read (x.valueIn fields) = .ok (x.get s) := by
  rw [← check_eq_ok]
  constructor
  · intro checked
    rw [checkNamed] at checked
    split at checked
    · cases passed : check fields with
      | error faults => rw [passed] at checked; cases checked
      | ok t => rw [passed] at checked; cases checked; rfl
    · cases checked
  · intro passed
    rw [checkNamed_of_named (check_eq_ok.mp passed).1.named, passed]
    rfl

theorem Arguments.applyTo_eq_ok {merged : Fields} :
    a.applyTo (inEnvironment e fields) = .ok merged ↔
      a.Suits (inEnvironment e fields) ∧ overridden e a fields = merged := by
  rw [Arguments.applyTo, overridden]
  constructor
  · intro applied
    cases made : a.overrides (inEnvironment e fields) with
    | error e => rw [made] at applied; cases applied
    | ok found =>
      rw [made] at applied
      obtain ⟨suits, rfl⟩ := Arguments.overrides_eq_ok.mp made
      cases applied
      exact ⟨suits, rfl⟩
  · rintro ⟨suits, rfl⟩
    rw [Arguments.overrides_eq_ok.mpr ⟨suits, rfl⟩]
    rfl

theorem ofDocument_of_suits {document : Value} (held : fieldsOf document = .ok fields)
    (suits : a.Suits (inEnvironment e fields)) :
    ofDocument document e a = checkNamed (overridden e a fields) := by
  have applied := Arguments.applyTo_eq_ok.mpr ⟨suits, rfl⟩
  rw [inEnvironment] at applied
  simp only [ofDocument, held, applied]

theorem load_eq_ok {tree : FileTree} {cwd : Path} {file : Option Path} :
    load reader tree cwd file e a = .ok s ↔
      ∃ document, readFile reader tree cwd file = .ok document ∧
        ofDocument document e a = .ok s := by
  rw [load]
  cases readFile reader tree cwd file <;> simp

/-- A document leads to settings just if it has fields that the arguments can be applied to, all its
keys are known, each section is a mapping or gives way to an override, and every setting reads what
stands for it. -/
theorem ofDocument_eq_ok {document : Value} :
    ofDocument document e a = .ok s ↔ ∃ fields, fieldsOf document = .ok fields ∧
      a.Suits (inEnvironment e fields) ∧ KnowsKeys fields ∧ HasSections (overridden e a fields) ∧
        ∀ x : Setting, x.read (effective? e a fields x) = .ok (x.get s) := by
  have checked (fields : Fields) : checkNamed (overridden e a fields) = .ok s ↔
      KnowsKeys fields ∧ HasSections (overridden e a fields) ∧
        ∀ x : Setting, x.read (effective? e a fields x) = .ok (x.get s) := by
    rw [checkNamed_eq_ok, knowsKeys_overridden]
    simp only [read_overridden]
  constructor
  · intro loaded
    have whole := loaded
    rw [ofDocument] at loaded
    split at loaded
    · cases loaded
    · rename_i fields held
      split at loaded
      · cases loaded
      · rename_i merged applied
        obtain ⟨suits, rfl⟩ := Arguments.applyTo_eq_ok.mp applied
        exact ⟨fields, held, suits, (checked fields).mp loaded⟩
  · rintro ⟨fields, held, suits, rest⟩
    rw [ofDocument_of_suits held suits]
    exact (checked fields).mpr rest

/-- Every section is a mapping, the excluded globs are a list, and fields go by texts. -/
structure IsRegular (fields : Fields) : Prop where
  named : ∀ key ∈ fields.map Prod.fst, isNamed key
  groups : HasSections fields
  globs : ∀ value, Setting.excludePatterns.valueIn fields = some value →
    ∃ items, value = .sequence items

theorem IsRegular.suits (regular : IsRegular fields) (lists : a.HasLists) :
    a.Suits (inEnvironment e fields) := by
  refine ⟨lists, fun _ => ⟨?_, fun value found _ => ?_⟩⟩
  · rw [inEnvironment, e.overrides_eq, Parts.isMappingIn_mergeFields e.parts_isProper]
    exact fun _ => regular.groups .workspace
  · rw [excludePatterns_valueIn_inEnvironment] at found
    obtain ⟨items, rfl⟩ := regular.globs value found
    rfl

theorem IsRegular.ofDocument_eq {document : Value} (regular : IsRegular fields)
    (held : fieldsOf document = .ok fields) (lists : a.HasLists) :
    ofDocument document e a = (check (overridden e a fields)).mapError .invalid := by
  rw [ofDocument_of_suits held (regular.suits lists),
    checkNamed_of_named (named_overridden.mpr regular.named)]

theorem IsRegular.ofDocument_eq_ok {document : Value} (regular : IsRegular fields)
    (held : fieldsOf document = .ok fields) (lists : a.HasLists) :
    ofDocument document e a = .ok s ↔
      KnowsKeys fields ∧ ∀ x : Setting, x.read (effective? e a fields x) = .ok (x.get s) := by
  rw [Settings.ofDocument_eq_ok]
  constructor
  · rintro ⟨_, held', _, known, _, reads⟩
    cases held.symm.trans held'
    exact ⟨known, reads⟩
  · rintro ⟨known, reads⟩
    refine ⟨fields, held, regular.suits lists, known, ?_, reads⟩
    exact hasSections_overridden.mpr fun group _ _ => regular.groups group

/-- Something goes before what the configuration has for a setting. Excluded globs are not replaced,
they are only added to. -/
def IsReplaced (e : Environment) (a : Arguments) (x : Setting) : Prop :=
  x ≠ .excludePatterns ∧ ((a.value? [] x).or (e.value? x)).isSome

theorem effective?_congr {others : Fields}
    (alike : ∀ x, ¬IsReplaced e a x → x.valueIn others = x.valueIn fields) (x : Setting) :
    effective? e a others x = effective? e a fields x := by
  have globs := alike .excludePatterns fun replaced => replaced.1 rfl
  rw [effective?, effective?, Arguments.value?_congr globs]
  by_cases replaced : IsReplaced e a x
  · obtain ⟨other, given⟩ := replaced
    have own : a.value? fields x = a.value? [] x := by
      cases x <;> first | rfl | exact absurd rfl other
    rw [← own] at given
    obtain ⟨value, found⟩ := Option.isSome_iff_exists.mp given
    rw [found, Option.some_or, Option.some_or]
  · rw [alike x replaced]

theorem load_of_readFile {tree : FileTree} {cwd : Path} {file : Option Path} {document : Value}
    (found : readFile reader tree cwd file = .ok document) :
    load reader tree cwd file e a = ofDocument document e a := by
  rw [load, found]

/-- Settings are made of what each setting reads, or what cannot be read is refused: with a regular
configuration nothing else can happen, and what has been replaced is of no account. -/
theorem load_effective {tree : FileTree} {cwd : Path} {file : Option Path} {document : Value}
    (found : readFile reader tree cwd file = .ok document) (held : fieldsOf document = .ok fields)
    (regular : IsRegular fields) (lists : a.HasLists) :
    (∀ s, load reader tree cwd file e a = .ok s ↔
      KnowsKeys fields ∧ ∀ x : Setting, x.read (effective? e a fields x) = .ok (x.get s)) ∧
    ((∃ faults, load reader tree cwd file e a = .error (.invalid faults)) ↔
      ¬KnowsKeys fields ∨ ∃ (x : Setting) (faults : List Fault),
        x.read (effective? e a fields x) = .error faults) ∧
    (∀ fault, load reader tree cwd file e a = .error fault → ∃ faults, fault = .invalid faults) ∧
    ∀ (otherTree : FileTree) (otherFile : Option Path) (other : Value) (others : Fields),
      readFile reader otherTree cwd otherFile = .ok other → fieldsOf other = .ok others →
      IsRegular others → (KnowsKeys others ↔ KnowsKeys fields) →
      (∀ x, ¬IsReplaced e a x → x.valueIn others = x.valueIn fields) →
      (load reader otherTree cwd otherFile e a).toOption =
        (load reader tree cwd file e a).toOption := by
  have loads (s : Settings) : load reader tree cwd file e a = .ok s ↔
      KnowsKeys fields ∧ ∀ x : Setting, x.read (effective? e a fields x) = .ok (x.get s) := by
    rw [load_of_readFile found, regular.ofDocument_eq_ok held lists]
  have refusals (fault : LoadError) (refused : load reader tree cwd file e a = .error fault) :
      ∃ faults, fault = .invalid faults := by
    rw [load_of_readFile found, regular.ofDocument_eq held lists] at refused
    cases checked : check (overridden e a fields) with
    | ok s => rw [checked] at refused; cases refused
    | error faults => rw [checked] at refused; cases refused; exact ⟨faults, rfl⟩
  refine ⟨loads, ⟨?_, ?_⟩, refusals, ?_⟩
  · rintro ⟨faults, refused⟩
    by_contra! ⟨known, valid⟩
    -- If every setting can be read, the values together are settings.
    have values (x : Setting) : ∃ value, x.read (effective? e a fields x) = .ok value := by
      cases got : x.read (effective? e a fields x) with
      | ok value => exact ⟨value, rfl⟩
      | error faults => exact absurd got (valid x faults)
    choose value reads using values
    obtain ⟨s, same⟩ := Setting.exists_get value
    have loaded := (loads s).mpr ⟨known, fun x => (reads x).trans (congrArg _ (same x).symm)⟩
    rw [refused] at loaded
    cases loaded
  · intro broken
    cases result : load reader tree cwd file e a with
    | error fault =>
      obtain ⟨faults, rfl⟩ := refusals fault result
      exact ⟨faults, rfl⟩
    | ok s =>
      obtain ⟨known, reads⟩ := (loads s).mp result
      rcases broken with unknown | ⟨x, faults, refused⟩
      · exact absurd known unknown
      · rw [reads x] at refused
        cases refused
  · intro otherTree otherFile other others otherFound otherHeld otherRegular known alike
    have same (s : Settings) : load reader otherTree cwd otherFile e a = .ok s ↔
        load reader tree cwd file e a = .ok s := by
      rw [loads, load_of_readFile otherFound, otherRegular.ofDocument_eq_ok otherHeld lists, known]
      simp only [effective?_congr alike]
    cases one : load reader tree cwd file e a with
    | ok s => rw [(same s).mpr one]
    | error fault =>
      cases another : load reader otherTree cwd otherFile e a with
      | ok s => exact absurd ((same s).mp another) (by rw [one]; nofun)
      | error _ => rfl

theorem load_effective_overridden :
    let text := "logging:\n  level: loud\n  verbose: 2\n"
    let tree : FileTree := ⟨.directory [("c.yaml", .file (Text.Utf8.encode text.toList))]⟩
    let a := { Arguments.none with exclude := .texts ["*.bak"] }
    ∃ s, load yaml tree (.ofString "/") (some (.ofString "c.yaml")) ⟨"", "DEBUG", ""⟩ a = .ok s ∧
      s.logging.level = .debug ∧ s.logging.verbosity = 2 ∧
        s.workspace.excludePatterns = Host.defaultExcludes ++ ["*.bak"] := by
  intro text tree a
  let fields : Fields :=
    [(.name "logging", .mapping [(.name "level", .text "loud"), (.name "verbose", .int 2)])]
  have found : readFile yaml tree (.ofString "/") (some (.ofString "c.yaml")) =
      .ok (.mapping fields) := Value.eq_ok_of_isSame (by decide +kernel)
  have regular : IsRegular fields := by
    refine ⟨by decide, fun group value found => ?_, nofun⟩
    cases group <;> cases found
    exact ⟨_, rfl⟩
  have known : KnowsKeys fields := by
    refine ⟨fun key member => ⟨.logging, List.mem_singleton.mp member⟩, ?_⟩
    intro group inner found key member
    cases group <;> cases found
    rcases List.mem_pair.mp member with rfl | rfl
    · exact ⟨.level, rfl, rfl⟩
    · exact ⟨.verbosity, rfl, rfl⟩
  let s : Settings := { default with
    workspace := { default.workspace with excludePatterns := Host.defaultExcludes ++ ["*.bak"] }
    logging := ⟨.debug, none, 2⟩ }
  refine ⟨s, ?_, rfl, rfl, rfl⟩
  have lists : a.HasLists := ⟨nofun, fun _ => rfl⟩
  refine ((load_effective found rfl regular lists).1 s).mpr ⟨known, fun x => ?_⟩
  cases x <;> rfl

end KeyAtlas.Settings
