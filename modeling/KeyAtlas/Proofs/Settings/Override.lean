import KeyAtlas.Proofs.Settings.Setting
import KeyAtlas.Proofs.Value.Merge
import KeyAtlas.Settings.Override
import Mathlib.Data.List.Nodup

namespace KeyAtlas

def Value.isGiven : Value → Bool
  | null => false
  | _ => true

def Value.items (value : Value) : List Value :=
  value.listed?.getD []

namespace Settings

open Value (Fields Distinct)

/-! ### Overrides in sections -/

/-- Fields by the section that they are in. -/
abbrev Parts := List (Section × List (String × Value))

def Parts.fields (parts : Parts) : Fields :=
  parts.flatMap fun part => grouped part.1.name part.2

/-- No section comes twice, and the fields of each are some of its settings, in order. -/
structure Parts.IsProper (parts : Parts) : Prop where
  distinct : (parts.map Prod.fst).Nodup
  ordered : ∀ part ∈ parts, (part.2.map Prod.fst).Sublist part.1.fieldNames

def Parts.within (parts : Parts) (group : Section) : List (String × Value) :=
  (parts.lookup group).getD []

theorem Section.name_injective {group other : Section} (same : group.name = other.name) :
    group = other := by
  revert same
  cases group <;> cases other <;> decide

theorem Section.nodup_fieldNames (group : Section) : group.fieldNames.Nodup := by
  cases group <;> decide

theorem mem_keys_grouped {name : String} {fields : List (String × Value)} {key : Key} :
    key ∈ (grouped name fields).map Prod.fst ↔ key = .name name ∧ fields ≠ [] := by
  rw [grouped]
  cases fields <;> simp

def entries (fields : List (String × Value)) : Fields :=
  fields.map fun field => (.name field.1, field.2)

theorem record_eq (fields : List (String × Value)) :
    Value.record fields = .mapping (entries fields) :=
  rfl

theorem lookup_entries (fields : List (String × Value)) (name : String) :
    (entries fields).lookup (.name name) = fields.lookup name := by
  rw [entries]
  induction fields with
  | nil => rfl
  | cons field rest ih =>
    obtain ⟨n, v⟩ := field
    by_cases same : name = n
    · simp [same]
    · have other : (name == n) = false := by simpa using same
      have other' : (Key.name name == Key.name n) = false := by simpa using same
      simp [List.lookup_cons, other, other', ih]

namespace Parts

variable {parts : Parts}

theorem mem_keys_fields {key : Key} :
    key ∈ parts.fields.map Prod.fst ↔ ∃ part ∈ parts, key = .name part.1.name ∧ part.2 ≠ [] := by
  simp only [fields, List.map_flatMap, List.mem_flatMap, mem_keys_grouped]

theorem distinct_fields (distinct : (parts.map Prod.fst).Nodup) : Distinct parts.fields := by
  induction parts with
  | nil => exact List.nodup_nil
  | cons part rest ih =>
    rw [List.map_cons, List.nodup_cons] at distinct
    rw [Distinct, fields, List.flatMap_cons, List.map_append, List.nodup_append']
    refine ⟨?_, ih distinct.2, ?_⟩
    · rw [grouped]
      split <;> simp
    · intro key first later
      obtain ⟨named, _⟩ := mem_keys_grouped.mp first
      obtain ⟨other, member, same, _⟩ := mem_keys_fields.mp later
      have group := Section.name_injective (Key.name.inj (named.symm.trans same))
      exact distinct.1 (group ▸ List.mem_map_of_mem member)

theorem lookup_fields (distinct : (parts.map Prod.fst).Nodup) (group : Section) :
    parts.fields.lookup (.name group.name) =
      if parts.within group = [] then none else some (.record (parts.within group)) := by
  induction parts with
  | nil => rfl
  | cons part rest ih =>
    obtain ⟨first, inner⟩ := part
    rw [List.map_cons, List.nodup_cons] at distinct
    rw [fields, List.flatMap_cons, List.lookup_append, within, List.lookup_cons]
    by_cases same : group = first
    · subst same
      have absent : group ∉ rest.map Prod.fst := distinct.1
      have later : within rest group = [] := by
        rw [within, List.lookup_eq_none_iff.mpr, Option.getD_none]
        intro other member
        have apart : group ≠ other.1 := fun same => absent (same ▸ List.mem_map_of_mem member)
        simpa using apart
      have rest' := ih distinct.2
      rw [later, if_pos rfl, fields] at rest'
      rw [rest', Option.or_none, grouped]
      cases inner <;> simp
    · have other : (group == first) = false := by simpa using same
      have elsewhere : (grouped first.name inner).lookup (.name group.name) = none := by
        refine Value.lookup_eq_none_of_absent fun member => same ?_
        exact Section.name_injective (Key.name.inj (mem_keys_grouped.mp member).1)
      rw [elsewhere, Option.none_or, other]
      exact ih distinct.2

theorem valueIn_fields (distinct : (parts.map Prod.fst).Nodup) (x : Setting) :
    x.valueIn parts.fields = (parts.within x.home).lookup x.name := by
  rw [Setting.valueIn, lookup_fields distinct]
  split
  · rename_i absent
    rw [absent]
    rfl
  · exact lookup_entries _ _

theorem ordered_within (proper : parts.IsProper) (group : Section) :
    ((parts.within group).map Prod.fst).Sublist group.fieldNames := by
  rw [within]
  cases found : parts.lookup group with
  | none => exact List.nil_sublist _
  | some inner =>
    obtain ⟨before, after, whole, _⟩ := List.lookup_eq_some_iff.mp found
    exact proper.ordered (group, inner) (whole ▸ by simp)

/-! ### Merging -/

theorem valueIn_mergeFields (proper : parts.IsProper) (base : Fields) (x : Setting) :
    x.valueIn (Value.mergeFields base parts.fields) =
      match x.valueIn parts.fields with
      | none => x.valueIn base
      | some value => some (Value.mergeAt (x.valueIn base) value) := by
  have distinct := distinct_fields proper.distinct
  have inner : Distinct (entries (parts.within x.home)) := by
    have names := x.home.nodup_fieldNames.sublist (ordered_within proper x.home)
    have keys := names.map (f := Key.name) fun _ _ => Key.name.inj
    simpa [Distinct, entries, Function.comp_def] using keys
  rw [valueIn_fields proper.distinct, Setting.valueIn, Value.lookup_mergeFields distinct,
    lookup_fields proper.distinct]
  by_cases untouched : parts.within x.home = []
  · rw [if_pos untouched, untouched]
    rfl
  · rw [if_neg untouched]
    have merged := Value.get?_mergeAt inner (base.lookup (.name x.home.name)) (.name x.name)
    rw [lookup_entries] at merged
    exact merged

/-- Merging makes no difference to a check, for no setting is a mapping. -/
theorem check_mergeAt (x : Setting) (base : Option Value) (value : Value) :
    x.check (Value.mergeAt base value) = x.check value := by
  cases value with
  | mapping fields =>
    obtain ⟨merged, same, _⟩ := Value.mergeAt_mapping base fields
    rw [same]
    exact x.check_mapping merged fields
  | _ => rfl

theorem read_mergeFields (proper : parts.IsProper) (base : Fields) (x : Setting) :
    x.read (x.valueIn (Value.mergeFields base parts.fields)) =
      x.read ((x.valueIn parts.fields).or (x.valueIn base)) := by
  rw [valueIn_mergeFields proper]
  cases x.valueIn parts.fields with
  | none => rfl
  | some value => exact check_mergeAt x _ value

theorem lookup_mergeFields (proper : parts.IsProper) (base : Fields) (group : Section) :
    (Value.mergeFields base parts.fields).lookup (.name group.name) =
      if parts.within group = [] then base.lookup (.name group.name)
      else some (Value.mergeAt (base.lookup (.name group.name)) (.record (parts.within group))) := by
  rw [Value.lookup_mergeFields (distinct_fields proper.distinct), lookup_fields proper.distinct]
  by_cases untouched : parts.within group = []
  · rw [if_pos untouched, if_pos untouched]
  · rw [if_neg untouched, if_neg untouched]

theorem lookup_mergeFields_of_touched (proper : parts.IsProper) (base : Fields) {group : Section}
    (touched : parts.within group ≠ []) :
    ∃ inner, (Value.mergeFields base parts.fields).lookup (.name group.name) =
      some (.mapping inner) := by
  obtain ⟨inner, same, _⟩ := Value.mergeAt_mapping (base.lookup (.name group.name))
    (entries (parts.within group))
  refine ⟨inner, ?_⟩
  rw [lookup_mergeFields proper, if_neg touched, record_eq, same]

theorem knows_of_mem_within (proper : parts.IsProper) {group : Section} {key : Key}
    (member : key ∈ (entries (parts.within group)).map Prod.fst) : group.Knows key := by
  simp only [entries, List.map_map, List.mem_map, Function.comp_apply] at member
  obtain ⟨field, there, rfl⟩ := member
  have known := (ordered_within proper group).subset (List.mem_map_of_mem there)
  exact knows_iff.mpr ⟨_, known, rfl⟩

theorem knowsKeys_mergeFields (proper : parts.IsProper) (base : Fields) :
    KnowsKeys (Value.mergeFields base parts.fields) ↔ KnowsKeys base := by
  constructor
  · rintro ⟨ofSections, ofSettings⟩
    refine ⟨fun key member => ofSections key ?_, fun group inner found key member => ?_⟩
    · exact Value.mem_keys_mergeFields.mpr (.inl member)
    · have merged := lookup_mergeFields proper base group
      rw [found] at merged
      split at merged
      · exact ofSettings group inner merged key member
      · obtain ⟨whole, same, keys⟩ := Value.mergeAt_mapping (some (.mapping inner))
          (entries (parts.within group))
        rw [record_eq, same] at merged
        exact ofSettings group whole merged key ((keys key).mpr (.inl ⟨inner, rfl, member⟩))
  · rintro ⟨ofSections, ofSettings⟩
    refine ⟨fun key member => ?_, fun group inner found key member => ?_⟩
    · rcases Value.mem_keys_mergeFields.mp member with old | new
      · exact ofSections key old
      · obtain ⟨part, _, named, _⟩ := mem_keys_fields.mp new
        exact ⟨part.1, named⟩
    · rw [lookup_mergeFields proper] at found
      split at found
      · exact ofSettings group inner found key member
      · obtain ⟨whole, same, keys⟩ := Value.mergeAt_mapping (base.lookup (.name group.name))
          (entries (parts.within group))
        rw [record_eq, same] at found
        cases found
        rcases (keys key).mp member with ⟨held, there, old⟩ | new
        · exact ofSettings group held there key old
        · exact knows_of_mem_within proper new

theorem isMappingIn_mergeFields (proper : parts.IsProper) (base : Fields) (group : Section) :
    group.IsMappingIn (Value.mergeFields base parts.fields) ↔
      (parts.within group = [] → group.IsMappingIn base) := by
  rw [Section.IsMappingIn, Section.IsMappingIn]
  by_cases untouched : parts.within group = []
  · simp only [lookup_mergeFields proper, untouched, if_true, forall_const]
  · obtain ⟨inner, touched⟩ := lookup_mergeFields_of_touched proper base untouched
    rw [touched]
    refine ⟨fun _ same => absurd same untouched, fun _ value found => ?_⟩
    exact ⟨inner, (Option.some.inj found).symm⟩

end Parts

/-! ### Optional fields -/

theorem sublist_optional (c : Prop) [Decidable c] (name : String) (value : Value) :
    ((if c then [(name, value)] else []).map Prod.fst).Sublist [name] := by
  split <;> simp

theorem lookup_optional (c : Prop) [Decidable c] (name other : String) (value : Value) :
    (if c then [(name, value)] else []).lookup other =
      if c ∧ other = name then some value else none := by
  by_cases there : c
  · rw [if_pos there, List.lookup_cons]
    by_cases same : other = name
    · simp [there, same]
    · have apart : (other == name) = false := by simpa using same
      simp [apart, same]
  · simp [there]

theorem textField_eq (name text : String) :
    textField name text = if text ≠ "" then [(name, .text text)] else [] := by
  rw [textField, ite_not]

theorem givenField_eq (name : String) (value : Value) :
    givenField name value = if value.isGiven then [(name, value)] else [] := by
  cases value <;> rfl

/-! ### The environment -/

theorem lowercase_eq_nil_iff {text : List Char} : Text.lowercase text = [] ↔ text = [] := by
  cases text with
  | nil => simp [Text.lowercase, Text.Lowercase.lowerFrom]
  | cons c rest =>
    rw [Text.lowercase, Text.Lowercase.lowerFrom, List.append_eq_nil_iff]
    refine ⟨fun ⟨here, _⟩ => ?_, nofun⟩
    split at here <;> [skip; split at here <;> [split at here; skip]] <;> cases here

namespace Environment

def value? (e : Environment) : Setting → Option Value
  | .roots => if e.workspace ≠ "" then some (.texts (rootsOf e.workspace)) else none
  | .level =>
    if e.logLevel ≠ "" then some (.text (String.ofList (Text.lowercase e.logLevel.toList)))
    else none
  | .filter => if e.filter ≠ "" then some (.text e.filter) else none
  | _ => none

def parts (e : Environment) : Parts :=
  [(.workspace, if e.workspace ≠ "" then [("roots", .texts (rootsOf e.workspace))] else []),
   (.logging, textField "level" (String.ofList (Text.lowercase e.logLevel.toList))),
   (.resolver, textField "match_filter" e.filter)]

theorem overrides_eq (e : Environment) : e.overrides = e.parts.fields := by
  simp [overrides, parts, Parts.fields, Section.name]

theorem parts_isProper (e : Environment) : e.parts.IsProper := by
  have distinct : [Section.workspace, .logging, .resolver].Nodup := by decide
  refine ⟨distinct, fun part member => ?_⟩
  simp only [parts, textField_eq, List.mem_cons, List.not_mem_nil, or_false] at member
  rcases member with rfl | rfl | rfl
  · have named : ["roots"].Sublist workspaceFields := by decide
    exact (sublist_optional _ _ _).trans named
  · have named : ["level"].Sublist loggingFields := by decide
    exact (sublist_optional _ _ _).trans named
  · have named : ["match_filter"].Sublist resolverFields := by decide
    exact (sublist_optional _ _ _).trans named

theorem within_parts (e : Environment) (group : Section) :
    e.parts.within group =
      match group with
      | .workspace => if e.workspace ≠ "" then [("roots", .texts (rootsOf e.workspace))] else []
      | .logging => textField "level" (String.ofList (Text.lowercase e.logLevel.toList))
      | .resolver => textField "match_filter" e.filter
      | .watch => [] := by
  cases group <;> rfl

theorem valueIn_parts (e : Environment) (x : Setting) : x.valueIn e.parts.fields = e.value? x := by
  have lower : String.ofList (Text.lowercase e.logLevel.toList) = "" ↔ e.logLevel = "" := by
    rw [String.ofList_eq_empty_iff, lowercase_eq_nil_iff, String.toList_eq_nil_iff]
  rw [Parts.valueIn_fields e.parts_isProper.distinct, within_parts]
  cases x <;> simp only [Setting.home, Setting.name, textField_eq, lookup_optional, value?] <;>
    simp [lower]

end Environment

/-! ### The arguments -/

def globsOf (defaults : List Value) : Option Value → List Value
  | none | some .null => defaults
  | some globs => globs.items

def globsIn (fields : Fields) : List Value :=
  globsOf (Host.defaultExcludes.map Value.text) (Setting.excludePatterns.valueIn fields)

structure ListsGlobs (fields : Fields) : Prop where
  group : Section.workspace.IsMappingIn fields
  globs : ∀ value, Setting.excludePatterns.valueIn fields = some value →
    value.isGiven → value.listed?.isSome

theorem itemsOf_eq_ok {value : Value} {items : List Value} :
    itemsOf value = .ok items ↔ value.listed?.isSome ∧ value.items = items := by
  rw [itemsOf, Value.items]
  cases value.listed? <;> simp

theorem globsOf_of_given {value : Value} (given : value.isGiven) (defaults : List Value) :
    globsOf defaults (some value) = value.items := by
  cases value <;> first | rfl | cases given

theorem globsOf_eq_ok (defaults : List Value) {found : Option Value} {globs : List Value} :
    (match found with
      | none | some .null => Except.ok defaults
      | some value => itemsOf value) = .ok globs ↔
      (∀ value, found = some value → value.isGiven → value.listed?.isSome) ∧
        globsOf defaults found = globs := by
  cases found with
  | none => simp [globsOf]
  | some value =>
    by_cases null : value = .null
    · subst null
      simp [globsOf, Value.isGiven]
    · have given : value.isGiven = true := by cases value <;> first | rfl | exact absurd rfl null
      rw [globsOf_of_given given]
      simp [given, itemsOf_eq_ok]

theorem excludedGlobs_eq_ok {fields : Fields} {globs : List Value} :
    excludedGlobs fields = .ok globs ↔ ListsGlobs fields ∧ globsIn fields = globs := by
  have lists : ListsGlobs fields ↔
      (∀ value, fields.lookup (.name "workspace") = some value → ∃ inner, value = .mapping inner) ∧
      ∀ value, Setting.excludePatterns.valueIn fields = some value →
        value.isGiven → value.listed?.isSome :=
    ⟨fun ⟨group, globs⟩ => ⟨group, globs⟩, fun ⟨group, globs⟩ => ⟨group, globs⟩⟩
  have place : Setting.excludePatterns.valueIn fields =
      (fields.lookup (.name "workspace")).bind (Value.get? (.name "exclude_patterns")) := rfl
  rw [lists, excludedGlobs, globsIn, place]
  generalize Host.defaultExcludes.map Value.text = defaults
  cases fields.lookup (.name "workspace") with
  | none => simp [globsOf]
  | some value =>
    cases value with
    | mapping inner =>
      have isMapping : ∀ value, some (Value.mapping inner) = some value →
          ∃ other, value = .mapping other := fun _ same => ⟨inner, (Option.some.inj same).symm⟩
      rw [and_iff_right isMapping]
      exact globsOf_eq_ok defaults
    | _ => simp

namespace Arguments

structure HasLists (a : Arguments) : Prop where
  workspace : a.workspace.isTruthy → a.workspace.listed?.isSome
  exclude : a.exclude.isTruthy → a.exclude.listed?.isSome

/-- What the arguments put in the place of a setting. Excluded globs are added to those of the
configuration. -/
def value? (a : Arguments) (fields : Fields) : Setting → Option Value
  | .roots =>
    if a.workspace.isTruthy then some (.texts (a.workspace.items.map Value.display)) else .none
  | .excludePatterns =>
    if a.exclude.isTruthy then some (.sequence (globsIn fields ++ a.exclude.items)) else .none
  | .filter => if a.filter.isTruthy then some a.filter else .none
  | .isolate => if a.noIsolation.isTruthy then some (.flag false) else .none
  | .debounce => if a.debounce.isGiven then some a.debounce else .none
  | .level => if a.logLevel.isTruthy then some a.logLevel else .none
  | .file => if a.logFile.isTruthy then some a.logFile else .none
  | .verbosity => if a.verbosity.isGiven then some a.verbosity else .none
  | .includePatterns | .enabled => .none

theorem value?_none (fields : Fields) (x : Setting) : Arguments.none.value? fields x = .none := by
  cases x <;> rfl

def rootsPart (a : Arguments) : List (String × Value) :=
  if a.workspace.isTruthy then [("roots", .texts (a.workspace.items.map Value.display))] else []

def excludePart (a : Arguments) (fields : Fields) : List (String × Value) :=
  if a.exclude.isTruthy then [("exclude_patterns", .sequence (globsIn fields ++ a.exclude.items))]
  else []

def part (a : Arguments) (fields : Fields) : Section → List (String × Value)
  | .workspace => a.rootsPart ++ a.excludePart fields
  | .resolver =>
    truthyField "match_filter" a.filter ++
      if a.noIsolation.isTruthy then [("isolate_workspace_folders", .flag false)] else []
  | .watch => givenField "debounce_ms" a.debounce
  | .logging =>
    truthyField "level" a.logLevel ++ (truthyField "file" a.logFile ++
      givenField "verbose" a.verbosity)

def parts (a : Arguments) (fields : Fields) : Parts :=
  [Section.workspace, .resolver, .watch, .logging].map fun group => (group, a.part fields group)

theorem within_parts (a : Arguments) (fields : Fields) (group : Section) :
    (a.parts fields).within group = a.part fields group := by
  cases group <;> rfl

theorem parts_isProper (a : Arguments) (fields : Fields) : (a.parts fields).IsProper := by
  have distinct : [Section.workspace, .resolver, .watch, .logging].Nodup := by decide
  refine ⟨distinct, fun part member => ?_⟩
  obtain ⟨group, _, rfl⟩ := List.mem_map.mp member
  dsimp only
  cases group with
  | workspace =>
    have named : (["roots"] ++ ["exclude_patterns"]).Sublist workspaceFields := by decide
    rw [Arguments.part, List.map_append]
    exact ((sublist_optional _ _ _).append (sublist_optional _ _ _)).trans named
  | resolver =>
    have named : (["match_filter"] ++ ["isolate_workspace_folders"]).Sublist resolverFields := by
      decide
    rw [Arguments.part, List.map_append]
    exact ((sublist_optional _ _ _).append (sublist_optional _ _ _)).trans named
  | watch =>
    have named : ["debounce_ms"].Sublist watchFields := by decide
    rw [Arguments.part, givenField_eq]
    exact (sublist_optional _ _ _).trans named
  | logging =>
    have named : (["level"] ++ (["file"] ++ ["verbose"])).Sublist loggingFields := by decide
    rw [Arguments.part, givenField_eq, List.map_append, List.map_append]
    have later := (sublist_optional a.logFile.isTruthy "file" a.logFile).append
      (sublist_optional a.verbosity.isGiven "verbose" a.verbosity)
    exact ((sublist_optional _ _ _).append later).trans named

theorem valueIn_parts (a : Arguments) (fields : Fields) (x : Setting) :
    x.valueIn (a.parts fields).fields = a.value? fields x := by
  rw [Parts.valueIn_fields (a.parts_isProper fields).distinct, within_parts]
  cases x <;>
    simp only [Setting.home, Setting.name, part, rootsPart, excludePart, truthyField, givenField_eq,
      List.lookup_append, lookup_optional, value?] <;> simp

end Arguments

theorem rootsField_eq_ok {a : Arguments} {found : List (String × Value)} :
    rootsField a.workspace = .ok found ↔
      (a.workspace.isTruthy → a.workspace.listed?.isSome) ∧ a.rootsPart = found := by
  rw [rootsField, Arguments.rootsPart]
  cases a.workspace.isTruthy with
  | false => simp [pure, Except.pure]
  | true =>
    simp only [if_true, bind_eq_ok, itemsOf_eq_ok]
    simp [pure, Except.pure]

theorem excludeField_eq_ok {a : Arguments} {fields : Fields} {found : List (String × Value)} :
    excludeField fields a.exclude = .ok found ↔
      (a.exclude.isTruthy → ListsGlobs fields ∧ a.exclude.listed?.isSome) ∧
        a.excludePart fields = found := by
  rw [excludeField, Arguments.excludePart]
  cases a.exclude.isTruthy with
  | false => simp [pure, Except.pure]
  | true =>
    simp only [if_true, bind_eq_ok, excludedGlobs_eq_ok, itemsOf_eq_ok]
    simp [pure, Except.pure, and_assoc]

structure Arguments.Suits (a : Arguments) (fields : Fields) : Prop where
  lists : a.HasLists
  globs : a.exclude.isTruthy → ListsGlobs fields

theorem Arguments.overrides_eq_ok {a : Arguments} {fields made : Fields} :
    a.overrides fields = .ok made ↔ a.Suits fields ∧ (a.parts fields).fields = made := by
  rw [overrides]
  simp only [bind_eq_ok, rootsField_eq_ok, excludeField_eq_ok]
  constructor
  · rintro ⟨_, ⟨workspace, rfl⟩, _, ⟨exclude, rfl⟩, same⟩
    refine ⟨⟨⟨workspace, fun given => (exclude given).2⟩, fun given => (exclude given).1⟩, ?_⟩
    cases same
    simp [parts, Parts.fields, part, Section.name]
  · rintro ⟨⟨lists, globs⟩, rfl⟩
    refine ⟨_, ⟨lists.workspace, rfl⟩, _, ⟨fun given => ⟨globs given, lists.exclude given⟩, rfl⟩, ?_⟩
    simp [parts, Parts.fields, part, Section.name, pure, Except.pure]

end Settings

end KeyAtlas
