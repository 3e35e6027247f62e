import KeyAtlas.Proofs.Result
import KeyAtlas.Proofs.Yaml.Depth
import KeyAtlas.Settings.Load

namespace KeyAtlas.Settings

open Value (Fields apply_cut cut cut_cut cut_mapping cutFields cutFields_append
  cutFields_cutFields cutFields_mergeFields isTruthy_cut key?_cut listed?_cut lookup_cutFields
  putEntry_cutFields)

variable {depth : Nat}

/-! ### Checks -/

theorem checkItems_cut {α : Type} {check : Value → Checked α}
    (same : ∀ v, check (v.cut depth) = check v) (position : Nat) (items : List Value) :
    checkItems check position (items.map (cut depth)) = checkItems check position items := by
  induction items generalizing position with
  | nil => rfl
  | cons item rest ih => rw [List.map_cons, checkItems, checkItems, same, ih]

theorem checkList_cut {α : Type} {check : Value → Checked α}
    (same : ∀ v, check (v.cut depth) = check v) (v : Value) :
    checkList check (v.cut (depth + 1)) = checkList check v := by
  cases v with
  | sequence items => exact checkItems_cut same 0 items
  | _ => rfl

theorem checkField_cut {α : Type} {check : Value → Checked α}
    (same : ∀ v, check (v.cut depth) = check v) (fields : Fields) (name : String) (default : α) :
    checkField (cutFields depth fields) name default check =
      checkField fields name default check := by
  rw [checkField, checkField, lookup_cutFields]
  cases fields.lookup (.name name) with
  | none => rfl
  | some v => exact congrArg (Checked.under _) (same v)

theorem checkFields_cut {α : Type} {check : Fields → Checked α}
    (same : ∀ fields, check (cutFields depth fields) = check fields) (known : List String)
    (fields : Fields) :
    checkFields known check (cutFields depth fields) = checkFields known check fields := by
  have whole : (cutFields depth fields).all (fun f => isWhole f.1) =
      fields.all fun f => isWhole f.1 := by
    simp [cutFields, List.all_map, Function.comp_def]
  have unknown : unknownFields known (cutFields depth fields) = unknownFields known fields := by
    simp [unknownFields, cutFields, List.filterMap_map, Function.comp_def]
  rw [checkFields, checkFields, whole, unknown, same]

theorem checkSection_cut {α : Type} {check : Fields → Checked α}
    (same : ∀ fields, check (cutFields depth fields) = check fields) (known : List String)
    (v : Value) : checkSection known check (v.cut (depth + 1)) = checkSection known check v := by
  cases v with
  | mapping fields => exact checkFields_cut same known fields
  | _ => rfl

theorem checkRoots_cut (v : Value) : checkRoots (v.cut (depth + 2)) = checkRoots v := by
  rw [checkRoots, checkRoots, checkList_cut (apply_cut (fun _ _ => rfl) (fun _ _ => rfl) depth)]

theorem checkWorkspace_cut (fields : Fields) :
    checkWorkspace (cutFields (depth + 2) fields) = checkWorkspace fields := by
  have texts := checkList_cut (apply_cut (f := checkText) (fun _ _ => rfl) (fun _ _ => rfl) depth)
  simp only [checkWorkspace, checkField_cut checkRoots_cut, checkField_cut texts]

theorem checkResolver_cut (fields : Fields) :
    checkResolver (cutFields (depth + 1) fields) = checkResolver fields := by
  have filter := apply_cut (f := checkFilter) (fun _ _ => rfl) (fun _ _ => rfl) depth
  have flag := apply_cut (f := checkFlag) (fun _ _ => rfl) (fun _ _ => rfl) depth
  simp only [checkResolver, checkField_cut filter, checkField_cut flag]

theorem checkWatch_cut (fields : Fields) :
    checkWatch (cutFields (depth + 1) fields) = checkWatch fields := by
  have flag := apply_cut (f := checkFlag) (fun _ _ => rfl) (fun _ _ => rfl) depth
  have delay := apply_cut (f := checkDebounce) (fun _ _ => rfl) (fun _ _ => rfl) depth
  simp only [checkWatch, checkField_cut flag, checkField_cut delay]

theorem checkLogging_cut (fields : Fields) :
    checkLogging (cutFields (depth + 1) fields) = checkLogging fields := by
  have level := apply_cut (f := checkLevel) (fun _ _ => rfl) (fun _ _ => rfl) depth
  have file := apply_cut (f := checkOptionalPath) (fun _ _ => rfl) (fun _ _ => rfl) depth
  have count := apply_cut (f := checkInteger) (fun _ _ => rfl) (fun _ _ => rfl) depth
  simp only [checkLogging, checkField_cut level, checkField_cut file, checkField_cut count]

theorem checkNamed_cut (fields : Fields) :
    checkNamed (cutFields (depth + 3) fields) = checkNamed fields := by
  have sections (fields : Fields) :
      checkSections (cutFields (depth + 3) fields) = checkSections fields := by
    simp only [checkSections, checkField_cut (checkSection_cut checkWorkspace_cut _),
      checkField_cut (checkSection_cut checkResolver_cut _),
      checkField_cut (checkSection_cut checkWatch_cut _),
      checkField_cut (checkSection_cut checkLogging_cut _)]
  have named : (cutFields (depth + 3) fields).all (fun f => isNamed f.1) =
      fields.all fun f => isNamed f.1 := by
    simp [cutFields, List.all_map, Function.comp_def]
  rw [checkNamed, checkNamed, named, check, checkFields_cut sections, check]

/-! ### Overrides -/

theorem itemsOf_cut (v : Value) :
    itemsOf (v.cut (depth + 2)) = (itemsOf v).map (List.map (cut (depth + 1))) := by
  rw [itemsOf, itemsOf, listed?_cut]
  cases v.listed? <;> rfl

theorem excludedGlobs_cut (config : Fields) :
    excludedGlobs (cutFields (depth + 3) config) =
      (excludedGlobs config).map (List.map (cut (depth + 1))) := by
  have defaults : (Host.defaultExcludes.map Value.text).map (cut (depth + 1)) =
      Host.defaultExcludes.map Value.text := by
    rw [List.map_map]
    rfl
  rw [excludedGlobs, excludedGlobs, lookup_cutFields]
  cases config.lookup (.name "workspace") with
  | none => exact congrArg Except.ok defaults.symm
  | some v =>
    cases v with
    | mapping fields =>
      rw [Option.map_some, cut_mapping]
      dsimp only
      rw [lookup_cutFields]
      cases fields.lookup (.name "exclude_patterns") with
      | none => exact congrArg Except.ok defaults.symm
      | some v =>
        cases v with
        | null => exact congrArg Except.ok defaults.symm
        | _ => exact itemsOf_cut _
    | _ => rfl

theorem cutFields_grouped (name : String) (fields : List (String × Value)) :
    cutFields (depth + 1) (grouped name fields) =
      grouped name (fields.map (Prod.map id (cut depth))) := by
  rw [grouped, grouped, List.isEmpty_map]
  split
  · rfl
  · simp [cutFields, cut, Value.record, Function.comp_def]

theorem excludeField_cut (depth : Nat) (config : Fields) (extra : Value) :
    (excludeField (cutFields (depth + 3) config) extra).map
        (List.map (Prod.map id (cut (depth + 2)))) =
      (excludeField config extra).map (List.map (Prod.map id (cut (depth + 2)))) := by
  rw [excludeField, excludeField, excludedGlobs_cut]
  split
  · cases excludedGlobs config with
    | error fault => rfl
    | ok globs =>
      cases itemsOf extra with
      | error fault => rfl
      | ok items => simp [Except.map, bind, Except.bind, pure, Except.pure, cut, cut_cut]
  · rfl

theorem overrides_cut (depth : Nat) (a : Arguments) (config : Fields) :
    (a.overrides (cutFields (depth + 3) config)).map (cutFields (depth + 3)) =
      (a.overrides config).map (cutFields (depth + 3)) := by
  rw [Arguments.overrides, Arguments.overrides]
  cases rootsField a.workspace with
  | error fault => rfl
  | ok roots =>
    obtain ⟨fault, one, other⟩ | ⟨_, _, one, other, same⟩ :=
      cases_of_map_eq (excludeField_cut depth config a.exclude)
    · rw [one, other]
    · rw [one, other]
      simp only [bind, Except.bind, pure, Except.pure, Except.map, cutFields_append,
        cutFields_grouped, List.map_append, same]

theorem applyTo_cut (depth : Nat) (a : Arguments) (config : Fields) :
    (a.applyTo (cutFields (depth + 3) config)).map (cutFields (depth + 3)) =
      (a.applyTo config).map (cutFields (depth + 3)) := by
  rw [Arguments.applyTo, Arguments.applyTo]
  obtain ⟨fault, one, other⟩ | ⟨_, _, one, other, same⟩ :=
    cases_of_map_eq (overrides_cut depth a config)
  · rw [one, other]
    rfl
  · rw [one, other]
    simp only [Except.map, cutFields_mergeFields, cutFields_cutFields, Nat.min_self, same]

/-! ### Documents -/

theorem pairOf_cut (entry : Value) :
    pairOf (entry.cut (depth + 2)) = (pairOf entry).map (Prod.map id (cut (depth + 1))) := by
  rw [pairOf, pairOf, listed?_cut]
  rcases entry.listed? with _ | _ | ⟨key, _ | ⟨value, _ | ⟨_, _⟩⟩⟩ <;> try rfl
  simp only [Option.map_some, List.map_cons, List.map_nil, key?_cut]
  cases key.key? <;> rfl

theorem fieldsFrom_cut (found : Fields) (entries : List Value) :
    fieldsFrom (cutFields (depth + 1) found) (entries.map (cut (depth + 2))) =
      (fieldsFrom found entries).map (cutFields (depth + 1)) := by
  induction entries generalizing found with
  | nil => rfl
  | cons entry rest ih =>
    rw [List.map_cons, fieldsFrom, fieldsFrom, pairOf_cut]
    cases pairOf entry with
    | error fault => rfl
    | ok pair =>
      obtain ⟨key, v⟩ := pair
      simp only [Except.map, Prod.map_apply, id, putEntry_cutFields, ih]

/-- In a list of pairs fields stand one level deeper than in a mapping. -/
theorem fieldsOf_cut (depth : Nat) (document : Value) :
    (fieldsOf (document.cut (depth + 3))).map (cutFields (depth + 1)) =
      (fieldsOf document).map (cutFields (depth + 1)) := by
  unfold fieldsOf
  rw [isTruthy_cut]
  split
  · cases document with
    | mapping fields => simp [cut_mapping, Except.map, cutFields_cutFields]
    | sequence items =>
      have pairs : fieldsFrom [] (items.map (cut (depth + 2))) =
          (fieldsFrom [] items).map (cutFields (depth + 1)) := fieldsFrom_cut [] items
      refine (congrArg (Except.map _) pairs).trans ?_
      simp only [Value.listed?]
      cases fieldsFrom [] items <;> simp [Except.map, cutFields_cutFields]
    | _ => rfl
  · rfl

/-- Settings look five levels into a document at most: at a list of pairs, a pair, a section, a list
of globs and a glob. -/
theorem ofDocument_cut (depth : Nat) (document : Value) (e : Environment) (a : Arguments) :
    ofDocument (document.cut (depth + 5)) e a = ofDocument document e a := by
  rw [ofDocument, ofDocument]
  obtain ⟨fault, one, other⟩ | ⟨fields, others, one, other, same⟩ :=
    cases_of_map_eq (fieldsOf_cut (depth + 2) document)
  · rw [one, other]
  · rw [one, other]
    have applied : (a.applyTo (Value.mergeFields fields e.overrides)).map (cutFields (depth + 3)) =
        (a.applyTo (Value.mergeFields others e.overrides)).map (cutFields (depth + 3)) := by
      rw [← applyTo_cut, cutFields_mergeFields, same, ← cutFields_mergeFields, applyTo_cut]
    dsimp only
    obtain ⟨fault, one, other⟩ | ⟨merged, merged', one, other, same⟩ := cases_of_map_eq applied
    · rw [one, other]
    · rw [one, other]
      dsimp only
      rw [← checkNamed_cut, same, checkNamed_cut]

theorem load_congr {reader other : DocumentReader} {tree : FileTree} {cwd : Path}
    {file : Option Path} {e : Environment} {a : Arguments}
    (alike : ∀ text, (reader text).map (cut deepestPart) = (other text).map (cut deepestPart)) :
    load reader tree cwd file e a = load other tree cwd file e a := by
  rcases file with _ | path
  · rfl
  · rw [load, load, readFile, readFile, readDocument, readDocument]
    cases tree.reach (cwd.under path) with
    | error fault => cases fault <;> rfl
    | ok node =>
      cases node with
      | directory children => rfl
      | file content =>
        dsimp only
        cases Text.Utf8.decode? content with
        | none => rfl
        | some text =>
          obtain ⟨fault, one, another⟩ | ⟨v, w, one, another, same⟩ :=
            cases_of_map_eq (alike (Text.unifyLineEnds [] text))
          · simp only [one, another]
          · simp only [one, another, Except.mapError]
            rw [← ofDocument_cut 3, show v.cut (3 + 5) = w.cut (3 + 5) from same, ofDocument_cut]

/-- What lies below the depth to which a document is read is of no account. -/
theorem load_deeper {tree : FileTree} {cwd : Path} {file : Option Path}
    {e : Environment} {a : Arguments} (deep : deepestPart ≤ depth) :
    load (Yaml.load depth) tree cwd file e a = load yaml tree cwd file e a :=
  load_congr fun text => Yaml.load_cut deep text

end KeyAtlas.Settings
