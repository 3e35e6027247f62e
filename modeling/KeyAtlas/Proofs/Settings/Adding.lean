import KeyAtlas.Proofs.Settings.Legible

namespace KeyAtlas.Settings

open Value (Fields)

variable {reader : DocumentReader} {e : Environment} {a : Arguments} {fields : Fields}
  {document value : Value}

def textOf? (item : Value) : Option String :=
  (checkText item).toOption

theorem checkItems_eq_ok {α : Type} {check : Value → Checked α} {items : List Value} {xs : List α}
    {position : Nat} :
    checkItems check position items = .ok xs ↔
      items.mapM (fun item => (check item).toOption) = some xs := by
  induction items generalizing xs position with
  | nil => simp [checkItems]
  | cons item rest ih =>
    rw [checkItems, map_eq_ok, List.mapM_cons]
    simp only [Prod.exists, Checked.and_eq_ok, Checked.under_eq_ok, ih, Option.bind_eq_bind,
      Option.bind_eq_some_iff, toOption_eq_some, Option.pure_def, Option.some.injEq, and_assoc,
      exists_and_left]

theorem checkTexts_eq_ok {items : List Value} {globs : List String} :
    checkList checkText (.sequence items) = .ok globs ↔ items.mapM textOf? = some globs :=
  checkItems_eq_ok

theorem mapM_textOf?_map {α : Type} {f : α → Value} {g : α → String}
    (same : ∀ x, textOf? (f x) = some (g x)) (xs : List α) :
    (xs.map f).mapM textOf? = some (xs.map g) := by
  induction xs with
  | nil => rfl
  | cons x rest ih =>
    rw [List.map_cons, List.mapM_cons, same, ih]
    rfl

theorem mapM_textOf?_texts (globs : List String) :
    (globs.map Value.text).mapM textOf? = some globs := by
  rw [mapM_textOf?_map (g := id) fun _ => rfl, List.map_id]

theorem mapM_textOf?_append {items : List Value} {extra found : List String} :
    (items ++ extra.map Value.text).mapM textOf? = some found ↔
      ∃ globs, items.mapM textOf? = some globs ∧ found = globs ++ extra := by
  rw [List.mapM_append, mapM_textOf?_texts]
  cases items.mapM textOf? <;> simp [eq_comm]

/-- The globs that a value is read as once others are added to it, when it is no list of texts. -/
def spelled? : Value → Option (List String)
  | .null => some Host.defaultExcludes
  | .text s => some (s.toList.map fun c => String.ofList [c])
  | .points codes => some (codes.map fun code => Value.shownPoints [code])
  | .octets [] => some []
  | .mapping fields => fields.mapM fun field => textOf? (Value.ofKey field.1)
  | _ => none

theorem textOf?_ofPoints (code : Nat) :
    textOf? (Value.ofPoints [code]) = some (Value.shownPoints [code]) := by
  rw [Value.ofPoints, Value.shownPoints]
  by_cases half : Value.isHalf code <;>
    simp [half, textOf?, checkText, Value.shownPoints, Except.toOption]

theorem spelled?_eq_some {globs : List String}
    (unlisted : ∀ found, checkList checkText value ≠ .ok found) :
    spelled? value = some globs ↔ (value.isGiven → value.listed?.isSome) ∧
      (globsOf (Host.defaultExcludes.map Value.text) (some value)).mapM textOf? = some globs := by
  have listed {items : List Value} (own : value.listed? = some items) (given : value.isGiven) :
      (value.isGiven → value.listed?.isSome) ∧
        (globsOf (Host.defaultExcludes.map Value.text) (some value)).mapM textOf? = some globs ↔
      items.mapM textOf? = some globs := by
    rw [globsOf_of_given given, Value.items, own]
    simp
  cases value with
  | null => rw [spelled?, globsOf, mapM_textOf?_texts]; simp [Value.isGiven]
  | text s => rw [listed rfl rfl, mapM_textOf?_map fun _ => rfl]; rfl
  | points codes => rw [listed rfl rfl, mapM_textOf?_map textOf?_ofPoints]; rfl
  | octets bytes =>
    rw [listed rfl rfl]
    cases bytes with
    | nil => rfl
    | cons byte rest => rw [List.map_cons, List.mapM_cons]; rfl
  | mapping inner => rw [listed rfl rfl, List.mapM_map]; rfl
  | sequence items =>
    have refused := mt checkTexts_eq_ok.mpr (unlisted globs)
    rw [listed rfl rfl]
    simpa [spelled?] using refused
  | flag _ | int _ | float _ | opaqueScalar _ =>
    simp [spelled?, Value.isGiven, Value.listed?]

def globsParts (globs : List String) : Parts :=
  [(.workspace, [("exclude_patterns", .texts globs)])]

def excluding (fields : Fields) (globs : List String) : Fields :=
  Value.mergeFields fields (globsParts globs).fields

theorem globsParts_isProper (globs : List String) : (globsParts globs).IsProper := by
  refine ⟨List.nodup_singleton _, fun part member => ?_⟩
  cases List.mem_singleton.mp member
  have named : ["exclude_patterns"].Sublist workspaceFields := by decide
  exact named

theorem within_globsParts {globs : List String} {group : Section} :
    (globsParts globs).within group = [] ↔ group ≠ .workspace := by
  cases group with
  | workspace => exact ⟨nofun, fun other => absurd rfl other⟩
  | _ => exact ⟨fun _ => nofun, fun _ => rfl⟩

theorem valueIn_excluding (globs : List String) {x : Setting} (other : x ≠ .excludePatterns) :
    x.valueIn (excluding fields globs) = x.valueIn fields := by
  have proper := globsParts_isProper globs
  have absent : x.valueIn (globsParts globs).fields = none := by
    rw [Parts.valueIn_fields proper.distinct]
    cases x <;> first | rfl | exact absurd rfl other
  rw [excluding, Parts.valueIn_mergeFields proper, absent]

theorem excludePatterns_valueIn_excluding (globs : List String) :
    Setting.excludePatterns.valueIn (excluding fields globs) = some (.texts globs) := by
  have proper := globsParts_isProper globs
  rw [excluding, Parts.valueIn_mergeFields proper, Parts.valueIn_fields proper.distinct]
  rfl

theorem fieldsOf_mapping : fieldsOf (.mapping fields) = .ok fields := by
  cases fields <;> rfl

theorem hasSections_excluding (given : a.exclude.isTruthy) (globs : List String) :
    HasSections (overridden e a (excluding fields globs)) ↔ HasSections (overridden e a fields) := by
  rw [hasSections_overridden, hasSections_overridden]
  refine forall_congr' fun group => ?_
  have proper := globsParts_isProper globs
  rw [excluding, Parts.isMappingIn_mergeFields proper, within_globsParts]
  cases group with
  | workspace =>
    have touched (others : Fields) : a.part others .workspace ≠ [] := by
      simp [Arguments.part, Arguments.excludePart, given]
    exact ⟨fun _ untouched => absurd untouched (touched _),
      fun _ untouched => absurd untouched (touched _)⟩
  | _ =>
    exact ⟨fun mappings untouched within => mappings untouched within (by decide),
      fun mappings untouched within _ => mappings untouched within⟩

theorem effective?_excluding (globs : List String) {x : Setting} (other : x ≠ .excludePatterns) :
    effective? e a (excluding fields globs) x = effective? e a fields x := by
  have own : a.value? (excluding fields globs) x = a.value? fields x := by
    cases x <;> first | rfl | exact absurd rfl other
  rw [effective?, effective?, own, valueIn_excluding globs other]

theorem isMappingIn_of_valueIn {x : Setting} (found : x.valueIn fields = some value) :
    x.home.IsMappingIn fields := by
  rw [Setting.valueIn] at found
  intro held there
  rw [there] at found
  cases held with
  | mapping inner => exact ⟨inner, rfl⟩
  | _ => cases found

theorem suits_of_valueIn (found : Setting.excludePatterns.valueIn fields = some value) :
    a.Suits (inEnvironment e fields) ↔
      a.HasLists ∧ (a.exclude.isTruthy → value.isGiven → value.listed?.isSome) := by
  constructor
  · rintro ⟨lists, globs⟩
    exact ⟨lists, fun given => (listsGlobs_inEnvironment.mp (globs given)).globs value found⟩
  · rintro ⟨lists, listed⟩
    refine ⟨lists, fun given => listsGlobs_inEnvironment.mpr ⟨?_, fun other same => ?_⟩⟩
    · exact fun _ => isMappingIn_of_valueIn found
    · cases found.symm.trans same
      exact listed given

section

variable {extra : List String} {s : Settings}

theorem isTruthy_of_added (added : a.exclude = .texts extra) (any : extra ≠ []) :
    a.exclude.isTruthy := by
  rw [added]
  simp [Value.texts, Value.isTruthy, any]

theorem read_adding (added : a.exclude = .texts extra) (any : extra ≠ []) {found : List String} :
    Setting.excludePatterns.read (effective? e a fields .excludePatterns) = .ok found ↔
      ∃ globs, (globsIn fields).mapM textOf? = some globs ∧ found = globs ++ extra := by
  have whole : effective? e a fields .excludePatterns =
      some (.sequence (globsIn fields ++ extra.map Value.text)) := by
    rw [effective?, Arguments.value?, if_pos (isTruthy_of_added added any), added]
    rfl
  rw [whole]
  exact checkTexts_eq_ok.trans mapM_textOf?_append

theorem read_excluding (added : a.exclude = .texts extra) (any : extra ≠ []) {globs : List String}
    (items : (globsIn fields).mapM textOf? = some globs) (x : Setting) :
    x.read (effective? e a (excluding fields globs) x) = .ok (x.get s) ↔
      x.read (effective? e a fields x) = .ok (x.get s) := by
  by_cases excludes : x = .excludePatterns
  · subst excludes
    have replaced : globsIn (excluding fields globs) = globs.map .text := by
      rw [globsIn, excludePatterns_valueIn_excluding]
      rfl
    rw [read_adding added any, read_adding added any, replaced, mapM_textOf?_texts, items]
  · rw [effective?_excluding globs excludes]

theorem ofDocument_excluding (held : fieldsOf document = .ok fields)
    (stands : Setting.excludePatterns.valueIn fields = some value)
    (added : a.exclude = .texts extra) (any : extra ≠ []) {globs : List String}
    (listed : value.isGiven → value.listed?.isSome)
    (items : (globsIn fields).mapM textOf? = some globs) :
    ofDocument (.mapping (excluding fields globs)) e a = .ok s ↔ ofDocument document e a = .ok s := by
  have given := isTruthy_of_added added any
  have known := Parts.knowsKeys_mergeFields (globsParts_isProper globs) fields
  have suits : a.Suits (inEnvironment e (excluding fields globs)) ↔
      a.Suits (inEnvironment e fields) := by
    rw [suits_of_valueIn stands, suits_of_valueIn (excludePatterns_valueIn_excluding globs)]
    exact and_congr_right fun _ => ⟨fun _ _ => listed, fun _ _ _ => rfl⟩
  have alike : (a.Suits (inEnvironment e (excluding fields globs)) ∧
      KnowsKeys (excluding fields globs) ∧ HasSections (overridden e a (excluding fields globs)) ∧
        ∀ x : Setting, x.read (effective? e a (excluding fields globs) x) = .ok (x.get s)) ↔
      a.Suits (inEnvironment e fields) ∧ KnowsKeys fields ∧ HasSections (overridden e a fields) ∧
        ∀ x : Setting, x.read (effective? e a fields x) = .ok (x.get s) := by
    rw [suits, hasSections_excluding given globs, forall_congr' (read_excluding added any items)]
    rw [excluding, known]
  rw [ofDocument_eq_ok, ofDocument_eq_ok]
  constructor
  · rintro ⟨_, held', made⟩
    cases fieldsOf_mapping.symm.trans held'
    exact ⟨fields, held, alike.mp made⟩
  · rintro ⟨_, held', made⟩
    cases held.symm.trans held'
    exact ⟨_, fieldsOf_mapping, alike.mpr made⟩

end

/-- A value that is no list of texts is refused as what a configuration excludes. Once globs are added
it counts as the globs that it spells, if it spells any. -/
theorem load_adding {tree : FileTree} {cwd : Path} {file : Option Path} {extra : List String}
    (found : readFile reader tree cwd file = .ok document) (held : fieldsOf document = .ok fields)
    (stands : Setting.excludePatterns.valueIn fields = some value)
    (unlisted : ∀ globs, checkList checkText value ≠ .ok globs)
    (alone : a.exclude.isTruthy = false) (any : extra ≠ []) :
    (∀ s, load reader tree cwd file e a ≠ .ok s) ∧
    ∀ s, load reader tree cwd file e { a with exclude := .texts extra } = .ok s ↔
      ∃ globs, spelled? value = some globs ∧ s.workspace.excludePatterns = globs ++ extra ∧
        ofDocument (.mapping (excluding fields globs)) e { a with exclude := .texts extra } =
          .ok s := by
  rw [load_of_readFile found]
  refine ⟨fun s made => ?_, fun s => ?_⟩
  · obtain ⟨_, held', _, _, _, reads⟩ := ofDocument_eq_ok.mp made
    cases held.symm.trans held'
    have read := reads .excludePatterns
    rw [effective?, Arguments.value?, if_neg (by simp [alone]), stands] at read
    exact unlisted _ read
  · rw [load_of_readFile found]
    have own : globsIn fields =
        globsOf (Host.defaultExcludes.map Value.text) (some value) := by rw [globsIn, stands]
    constructor
    · intro made
      obtain ⟨_, held', suits, _, _, reads⟩ := ofDocument_eq_ok.mp made
      cases held.symm.trans held'
      have listed := ((suits_of_valueIn stands).mp suits).2 (isTruthy_of_added rfl any)
      obtain ⟨globs, items, excluded⟩ := (read_adding rfl any).mp (reads .excludePatterns)
      have spelled := (spelled?_eq_some unlisted).mpr ⟨listed, own ▸ items⟩
      refine ⟨globs, spelled, excluded, ?_⟩
      exact (ofDocument_excluding held stands rfl any listed items).mpr made
    · rintro ⟨globs, spelled, _, made⟩
      obtain ⟨listed, items⟩ := (spelled?_eq_some unlisted).mp spelled
      exact (ofDocument_excluding held stands rfl any listed (own ▸ items)).mp made

theorem load_adding_keys :
    let text := "workspace:\n  exclude_patterns:\n    a: 1\n"
    let tree : FileTree := ⟨.directory [("c.yaml", .file (Text.Utf8.encode text.toList))]⟩
    let a := { Arguments.none with exclude := .texts ["x"] }
    (∀ s, load yaml tree (.ofString "/") (some (.ofString "c.yaml")) ⟨"", "", ""⟩ .none ≠ .ok s) ∧
    ∃ s, load yaml tree (.ofString "/") (some (.ofString "c.yaml")) ⟨"", "", ""⟩ a = .ok s ∧
      s.workspace.excludePatterns = ["a", "x"] := by
  intro text tree a
  let value : Value := .mapping [(.name "a", .int 1)]
  let fields : Fields := [(.name "workspace", .mapping [(.name "exclude_patterns", value)])]
  have found : readFile yaml tree (.ofString "/") (some (.ofString "c.yaml")) =
      .ok (.mapping fields) := Value.eq_ok_of_isSame (by decide +kernel)
  have unlisted : ∀ globs, checkList checkText value ≠ .ok globs := nofun
  obtain ⟨refused, added⟩ := load_adding (e := ⟨"", "", ""⟩) (a := .none) found rfl
    (show Setting.excludePatterns.valueIn fields = some value from rfl) unlisted rfl
    (show ["x"] ≠ [] from nofun)
  have accepted : (load yaml tree (.ofString "/") (some (.ofString "c.yaml")) ⟨"", "", ""⟩
      a).toOption.map (·.workspace.excludePatterns.length) = some 2 := by decide +kernel
  obtain ⟨s, loaded, _⟩ := map_toOption_eq_some.mp accepted
  obtain ⟨globs, spelled, excluded, _⟩ := (added s).mp loaded
  cases spelled
  exact ⟨refused, s, loaded, excluded⟩

/-- A text is no list of globs, and yet its letters are excluded once a glob is added. -/
theorem text_laundered :
    let text := "workspace:\n  exclude_patterns: ab\n"
    let tree : FileTree := ⟨.directory [("c.yaml", .file (Text.Utf8.encode text.toList))]⟩
    let a := { Arguments.none with exclude := .texts ["x"] }
    load yaml tree (.ofString "/") (some (.ofString "c.yaml")) ⟨"", "", ""⟩ .none =
      .error (.invalid [⟨.notList,
        [.field (.name "workspace"), .field (.name "exclude_patterns")]⟩]) ∧
    ∃ s, load yaml tree (.ofString "/") (some (.ofString "c.yaml")) ⟨"", "", ""⟩ a = .ok s ∧
      s.workspace.excludePatterns = ["a", "b", "x"] := by
  intro text tree a
  have fault : faultOf?
      (load yaml tree (.ofString "/") (some (.ofString "c.yaml")) ⟨"", "", ""⟩ .none) =
      some (.invalid [⟨.notList,
        [.field (.name "workspace"), .field (.name "exclude_patterns")]⟩]) := by decide +kernel
  have accepted : (load yaml tree (.ofString "/") (some (.ofString "c.yaml")) ⟨"", "", ""⟩
      a).toOption.map (·.workspace.excludePatterns) = some ["a", "b", "x"] := by decide +kernel
  exact ⟨faultOf?_eq_some.mp fault, map_toOption_eq_some.mp accepted⟩

end KeyAtlas.Settings
