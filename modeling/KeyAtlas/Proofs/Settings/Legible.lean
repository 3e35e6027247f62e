import KeyAtlas.Proofs.Settings.Precedence

namespace KeyAtlas.Settings

open Value (Fields)

variable {e : Environment} {a : Arguments} {fields : Fields} {document : Value}

/-- The faults that loading is meant to end with. -/
def LoadError.isReported : LoadError → Bool
  | fileMissing _ | invalid _ => true
  | _ => false

def IsPair (entry : Value) : Prop :=
  ∃ key value, entry.listed? = some [key, value] ∧ key.key?.isSome

/-- A document with fields is empty or false, a mapping, or a list of pairs. -/
def HasFields (document : Value) : Prop :=
  document.isTruthy → (∃ fields, document = .mapping fields) ∨
    ∃ entries, document.listed? = some entries ∧ ∀ entry ∈ entries, IsPair entry

theorem pairOf_isOk {entry : Value} : (∃ pair, pairOf entry = .ok pair) ↔ IsPair entry := by
  rw [pairOf, IsPair]
  constructor
  · rintro ⟨pair, got⟩
    split at got
    · cases got
    · rename_i key value listed
      split at got
      · rename_i known
        exact ⟨key, value, listed, by rw [known]; rfl⟩
      · cases got
    · cases got
  · rintro ⟨key, value, listed, known⟩
    obtain ⟨k, known⟩ := Option.isSome_iff_exists.mp known
    rw [listed]
    dsimp only
    rw [known]
    exact ⟨_, rfl⟩

theorem fieldsFrom_isOk {entries : List Value} (found : Fields) :
    (∃ fields, fieldsFrom found entries = .ok fields) ↔ ∀ entry ∈ entries, IsPair entry := by
  induction entries generalizing found with
  | nil => simp [fieldsFrom]
  | cons entry rest ih =>
    rw [fieldsFrom, List.forall_mem_cons, ← pairOf_isOk]
    cases pairOf entry with
    | error fault => simp
    | ok pair => simp [ih]

theorem fieldsOf_isOk : (∃ fields, fieldsOf document = .ok fields) ↔ HasFields document := by
  unfold fieldsOf HasFields
  by_cases present : document.isTruthy
  · simp only [present, if_true, forall_const]
    cases document with
    | mapping fields => simp
    | _ =>
      simp only [reduceCtorEq, exists_false, false_or]
      split
      · rename_i listed
        rw [fieldsFrom_isOk, listed]
        simp
      · rename_i listed
        rw [listed]
        simp
  · simp [present]

/-- The excluded globs of a configuration can be added to: its workspace section is a mapping, unless
the environment puts one in its place, and lists them, if it has any. -/
structure Extends (e : Environment) (fields : Fields) : Prop where
  group : e.workspace = "" → Section.workspace.IsMappingIn fields
  globs : ∀ value, Setting.excludePatterns.valueIn fields = some value →
    value.isGiven → value.listed?.isSome

theorem Environment.within_workspace : e.parts.within .workspace = [] ↔ e.workspace = "" := by
  rw [within_parts]
  by_cases unset : e.workspace = "" <;> simp [unset]

theorem listsGlobs_inEnvironment : ListsGlobs (inEnvironment e fields) ↔ Extends e fields := by
  have place : Setting.excludePatterns.valueIn (inEnvironment e fields) =
      Setting.excludePatterns.valueIn fields := excludePatterns_valueIn_inEnvironment
  have group : Section.workspace.IsMappingIn (inEnvironment e fields) ↔
      (e.workspace = "" → Section.workspace.IsMappingIn fields) := by
    rw [inEnvironment, e.overrides_eq, Parts.isMappingIn_mergeFields e.parts_isProper,
      Environment.within_workspace]
  exact ⟨fun lists => ⟨group.mp lists.group, place ▸ lists.globs⟩,
    fun lists => ⟨group.mpr lists.group, place ▸ lists.globs⟩⟩

/-- What stands in a configuration file leads to fields that the check can go through, with the
overrides in their places. -/
def IsLegible (reader : DocumentReader) (e : Environment) (a : Arguments)
    (content : List UInt8) : Prop :=
  ∃ text document, Text.Utf8.decode? content = some text ∧
    reader (Text.unifyLineEnds [] text) = .ok document ∧ HasFields document ∧
    ∀ fields, fieldsOf document = .ok fields →
      (∀ key ∈ fields.map Prod.fst, isNamed key) ∧ (a.exclude.isTruthy → Extends e fields)

def EndsReported (result : Except LoadError Settings) : Prop :=
  ∀ fault, result = .error fault → fault.isReported

theorem EndsReported.ok (s : Settings) : EndsReported (.ok s) := by
  intro fault failed
  cases failed

theorem endsReported_error {fault : LoadError} :
    EndsReported (.error fault) ↔ fault.isReported := by
  refine ⟨fun reported => reported fault rfl, fun reported other same => ?_⟩
  cases same
  exact reported

theorem pairOf_not_reported {entry : Value} {fault : LoadError}
    (refused : pairOf entry = .error fault) : fault.isReported = false := by
  rw [pairOf] at refused
  split at refused
  · cases refused; rfl
  · split at refused <;> cases refused
    rfl
  · cases refused; rfl

theorem fieldsFrom_not_reported {entries : List Value} {found : Fields} {fault : LoadError}
    (refused : fieldsFrom found entries = .error fault) : fault.isReported = false := by
  induction entries generalizing found with
  | nil => cases refused
  | cons entry rest ih =>
    rw [fieldsFrom] at refused
    split at refused
    · exact ih refused
    · rename_i broken
      cases refused
      exact pairOf_not_reported broken

theorem fieldsOf_not_reported {fault : LoadError} (refused : fieldsOf document = .error fault) :
    fault.isReported = false := by
  unfold fieldsOf at refused
  split at refused
  · split at refused
    · cases refused
    · split at refused
      · exact fieldsFrom_not_reported refused
      · cases refused; rfl
  · cases refused

theorem checkNamed_endsReported :
    EndsReported (checkNamed fields) ↔ ∀ key ∈ fields.map Prod.fst, isNamed key := by
  constructor
  · intro reported key member
    by_contra unnamed
    obtain ⟨entry, inside, rfl⟩ := List.mem_map.mp member
    have failing : ¬(fields.all fun f => isNamed f.1) = true :=
      fun named => unnamed (List.all_eq_true.mp named entry inside)
    have fault := reported .nameNotText (by rw [checkNamed, if_neg failing])
    cases fault
  · intro named fault refused
    rw [checkNamed_of_named named] at refused
    cases checked : check fields with
    | ok s => rw [checked] at refused; cases refused
    | error faults => rw [checked] at refused; cases refused; rfl

theorem ofDocument_endsReported (lists : a.HasLists) :
    EndsReported (ofDocument document e a) ↔ HasFields document ∧
      ∀ fields, fieldsOf document = .ok fields →
        (∀ key ∈ fields.map Prod.fst, isNamed key) ∧ (a.exclude.isTruthy → Extends e fields) := by
  rw [← fieldsOf_isOk]
  cases held : fieldsOf document with
  | error fault =>
    have unreported := fieldsOf_not_reported held
    have broken : ofDocument document e a = .error fault := by simp only [ofDocument, held]
    rw [broken, endsReported_error, unreported]
    refine ⟨fun reported => ?_, fun legible => ?_⟩
    · cases reported
    · obtain ⟨_, held'⟩ := legible.1
      cases held'
  | ok fields =>
    by_cases suits : a.Suits (inEnvironment e fields)
    · rw [ofDocument_of_suits held suits, checkNamed_endsReported, named_overridden]
      have lists (given : a.exclude.isTruthy) : Extends e fields :=
        listsGlobs_inEnvironment.mp (suits.globs given)
      refine ⟨fun named => ⟨⟨fields, rfl⟩, fun others same => ?_⟩, fun legible => ?_⟩
      · cases same
        exact ⟨named, lists⟩
      · exact (legible.2 fields rfl).1
    · refine ⟨fun reported => ?_, fun legible => (suits ?_).elim⟩
      · cases applied : a.applyTo (inEnvironment e fields) with
        | ok merged => exact absurd (Arguments.applyTo_eq_ok.mp applied).1 suits
        | error fault =>
          rw [inEnvironment] at applied
          have unreported := reported (.override fault) (by simp only [ofDocument, held, applied])
          cases unreported
      · exact ⟨lists, fun given =>
          listsGlobs_inEnvironment.mpr ((legible.2 fields rfl).2 given)⟩

section

variable {reader : DocumentReader} {tree : FileTree} {cwd path : Path} {content : List UInt8}

theorem readFile_notText (there : tree.reach (cwd.under path) = .ok (.file content))
    (decoded : Text.Utf8.decode? content = none) :
    readFile reader tree cwd (some path) = .error .notText := by
  rw [readFile, readDocument, there]
  dsimp only
  rw [decoded]

theorem readFile_text (there : tree.reach (cwd.under path) = .ok (.file content))
    {text : List Char} (decoded : Text.Utf8.decode? content = some text) :
    readFile reader tree cwd (some path) =
      (reader (Text.unifyLineEnds [] text)).mapError .document := by
  rw [readFile, readDocument, there]
  dsimp only
  rw [decoded]

theorem load_of_fault {file : Option Path} {fault : LoadError}
    (broken : readFile reader tree cwd file = .error fault) :
    load reader tree cwd file e a = .error fault := by
  rw [load, broken]

theorem load_endsReported (there : tree.reach (cwd.under path) = .ok (.file content))
    (lists : a.HasLists) :
    EndsReported (load reader tree cwd (some path) e a) ↔ IsLegible reader e a content := by
  rw [IsLegible]
  cases decoded : Text.Utf8.decode? content with
  | none =>
    rw [load_of_fault (readFile_notText there decoded), endsReported_error]
    refine ⟨fun reported => ?_, ?_⟩
    · cases reported
    · rintro ⟨_, _, impossible, _⟩
      cases impossible
  | some text =>
    have read : readFile reader tree cwd (some path) = _ := readFile_text there decoded
    cases parsed : reader (Text.unifyLineEnds [] text) with
    | error fault =>
      rw [parsed] at read
      rw [load_of_fault read, endsReported_error]
      refine ⟨fun reported => ?_, ?_⟩
      · cases reported
      · rintro ⟨_, _, same, impossible, _⟩
        cases same
        cases parsed.symm.trans impossible
    | ok document =>
      rw [parsed] at read
      rw [load_of_readFile read, ofDocument_endsReported lists]
      constructor
      · exact fun legible => ⟨text, document, rfl, parsed, legible⟩
      · rintro ⟨_, _, same, parsed', legible⟩
        cases same
        cases parsed.symm.trans parsed'
        exact legible

end

end KeyAtlas.Settings
