import KeyAtlas.Proofs.Value.Merge
import Mathlib.Data.List.Nodup
import Mathlib.Data.List.Perm.Lattice

namespace KeyAtlas.Value

def isMapping : Value → Bool
  | mapping _ => true
  | _ => false

mutual

/-- The values that are no mappings, each with the keys that lead to it. -/
def leaves : Value → List (List Key × Value)
  | mapping fields => leavesAmong fields
  | value => [([], value)]

def leavesAmong : Fields → List (List Key × Value)
  | [] => []
  | (key, value) :: rest =>
    (value.leaves.map fun leaf => (key :: leaf.1, leaf.2)) ++ leavesAmong rest

end

/-- Whether the path leads to a mapping without the next key. -/
def runsOut : List Key → Value → Bool
  | key :: path, mapping fields => (fields.lookup key).elim true (runsOut path)
  | _, _ => false

mutual

/-- Every mapping names each of its keys once. -/
def isProper : Value → Bool
  | mapping fields => decide (fields.map Prod.fst).Nodup && allProper fields
  | _ => true

def allProper : Fields → Bool
  | [] => true
  | (_, value) :: rest => value.isProper && allProper rest

end

theorem mapping_induction {motive : Value → Prop}
    (leaf : ∀ value : Value, value.isMapping = false → motive value)
    (nested : ∀ fields : Fields, (∀ entry ∈ fields, motive entry.2) → motive (mapping fields)) :
    ∀ value, motive value
  | mapping fields => nested fields fun entry _ => mapping_induction leaf nested entry.2
  | null => leaf _ rfl
  | flag _ => leaf _ rfl
  | int _ => leaf _ rfl
  | float _ => leaf _ rfl
  | text _ => leaf _ rfl
  | points _ => leaf _ rfl
  | octets _ => leaf _ rfl
  | opaqueScalar _ => leaf _ rfl
  | sequence _ => leaf _ rfl
termination_by value => sizeOf value
decreasing_by
  have smaller := List.sizeOf_lt_of_mem ‹entry ∈ fields›
  obtain ⟨key, value⟩ := entry
  simp only [mapping.sizeOf_spec, Prod.mk.sizeOf_spec] at smaller ⊢
  omega

theorem exists_fields_of_isMapping {value : Value} (isMapping : value.isMapping = true) :
    ∃ fields, value = mapping fields := by
  cases value with
  | mapping fields => exact ⟨fields, rfl⟩
  | _ => cases isMapping

/-! ### Proper values -/

theorem allProper_iff {fields : Fields} :
    allProper fields = true ↔ ∀ entry ∈ fields, entry.2.isProper = true := by
  induction fields with
  | nil => simp [allProper]
  | cons entry rest ih => simp [allProper, ih]

theorem isProper_mapping_iff {fields : Fields} :
    (mapping fields).isProper = true ↔
      Distinct fields ∧ ∀ entry ∈ fields, entry.2.isProper = true := by
  rw [isProper, Bool.and_eq_true, decide_eq_true_iff, allProper_iff, Distinct]

theorem mem_of_lookup {fields : Fields} {key : Key} {value : Value}
    (found : fields.lookup key = some value) : (key, value) ∈ fields := by
  obtain ⟨before, after, rfl, -⟩ := List.lookup_eq_some_iff.mp found
  simp

theorem lookup_of_mem {fields : Fields} (distinct : Distinct fields) {key : Key} {value : Value}
    (member : (key, value) ∈ fields) : fields.lookup key = some value :=
  (OrderedMap.get?_eq_some_iff (m := ⟨fields, distinct⟩)).mpr member

theorem isProper_of_get? {value held : Value} (proper : value.isProper = true) {key : Key}
    (found : value.get? key = some held) : held.isProper = true := by
  cases value with
  | mapping fields => exact (isProper_mapping_iff.mp proper).2 _ (mem_of_lookup found)
  | _ => cases found

/-! ### Merging -/

theorem mergeAt_of_not_mapping {value : Value} (leaf : value.isMapping = false)
    (base : Option Value) : mergeAt base value = value := by
  cases value with
  | mapping fields => cases leaf
  | _ => rfl

theorem isProper_mergeFields {override : Fields}
    (merged : ∀ entry ∈ override, ∀ base : Option Value, (∀ held ∈ base, held.isProper = true) →
      (mergeAt base entry.2).isProper = true) {base : Fields}
    (proper : (mapping base).isProper = true) :
    (mapping (mergeFields base override)).isProper = true := by
  induction override generalizing base with
  | nil => exact proper
  | cons entry rest ih =>
    obtain ⟨key, value⟩ := entry
    rw [mergeFields]
    apply ih fun entry member => merged entry (List.mem_cons_of_mem _ member)
    rw [isProper_mapping_iff] at proper ⊢
    refine ⟨OrderedMap.keys_nodup_putEntry key _ proper.1, fun entry member => ?_⟩
    rcases OrderedMap.mem_of_mem_putEntry member with same | before
    · rw [same]
      apply merged (key, value) List.mem_cons_self
      intro held found
      exact proper.2 _ (mem_of_lookup found)
    · exact proper.2 entry before

theorem isProper_mergeAt (value : Value) : ∀ base : Option Value, value.isProper = true →
    (∀ held ∈ base, held.isProper = true) → (mergeAt base value).isProper = true := by
  induction value using mapping_induction with
  | leaf value leaf =>
    intro base proper _
    rwa [mergeAt_of_not_mapping leaf]
  | nested fields ih =>
    intro base proper under
    have inner := (isProper_mapping_iff.mp proper).2
    cases base with
    | none => exact proper
    | some held =>
      cases held with
      | mapping held =>
        exact isProper_mergeFields
          (fun entry member base => ih entry member base (inner entry member)) (under _ rfl)
      | _ => exact proper

theorem mergeFields_of_held {base override : Fields}
    (held : ∀ entry ∈ override, ∃ value, base.lookup entry.1 = some value ∧
      mergeAt (some value) entry.2 = value) : mergeFields base override = base := by
  induction override with
  | nil => rfl
  | cons entry rest ih =>
    obtain ⟨key, value⟩ := entry
    obtain ⟨before, found, same⟩ := held _ List.mem_cons_self
    rw [mergeFields, found, same, OrderedMap.putEntry_of_lookup found]
    exact ih fun entry member => held entry (List.mem_cons_of_mem _ member)

theorem mergeAt_self (value : Value) : value.isProper = true → mergeAt (some value) value = value := by
  induction value using mapping_induction with
  | leaf value leaf => exact fun _ => mergeAt_of_not_mapping leaf _
  | nested fields ih =>
    intro proper
    obtain ⟨distinct, inner⟩ := isProper_mapping_iff.mp proper
    refine congrArg mapping (mergeFields_of_held fun entry member => ?_)
    exact ⟨entry.2, lookup_of_mem distinct member, ih entry member (inner entry member)⟩

theorem mergeAt_mergeAt (value : Value) : ∀ base : Option Value, value.isProper = true →
    mergeAt (some (mergeAt base value)) value = mergeAt base value := by
  induction value using mapping_induction with
  | leaf value leaf =>
    intro base _
    rw [mergeAt_of_not_mapping leaf, mergeAt_of_not_mapping leaf]
  | nested fields ih =>
    intro base proper
    cases base with
    | none => exact mergeAt_self _ proper
    | some held =>
      cases held with
      | mapping held =>
        obtain ⟨distinct, inner⟩ := isProper_mapping_iff.mp proper
        refine congrArg mapping (mergeFields_of_held fun entry member => ?_)
        refine ⟨_, ?_, ih entry member (held.lookup entry.1) (inner entry member)⟩
        rw [lookup_mergeFields distinct, lookup_of_mem distinct member]
      | _ => exact mergeAt_self _ proper

/-! ### Leaves -/

theorem leaves_of_not_mapping {value : Value} (leaf : value.isMapping = false) :
    value.leaves = [([], value)] := by
  cases value with
  | mapping fields => cases leaf
  | _ => rfl

theorem leaves_mapping (fields : Fields) :
    (mapping fields).leaves =
      fields.flatMap fun entry => entry.2.leaves.map fun leaf => (entry.1 :: leaf.1, leaf.2) := by
  rw [leaves]
  induction fields with
  | nil => rfl
  | cons entry rest ih => rw [leavesAmong, ih, List.flatMap_cons]

theorem not_mem_leaves_mapping_nil {fields : Fields} {leaf : Value} :
    ([], leaf) ∉ (mapping fields).leaves := by
  simp [leaves_mapping]

theorem mem_leaves_cons_iff {value : Value} (proper : value.isProper = true) {key : Key}
    {path : List Key} {leaf : Value} :
    (key :: path, leaf) ∈ value.leaves ↔
      ∃ held, value.get? key = some held ∧ (path, leaf) ∈ held.leaves := by
  cases isMapping : value.isMapping with
  | false =>
    have absent : value.get? key = none := by
      cases value with
      | mapping fields => cases isMapping
      | _ => rfl
    simp [leaves_of_not_mapping isMapping, absent]
  | true =>
    obtain ⟨fields, rfl⟩ := exists_fields_of_isMapping isMapping
    have distinct := (isProper_mapping_iff.mp proper).1
    rw [leaves_mapping, List.mem_flatMap]
    constructor
    · rintro ⟨⟨key', held⟩, member, found⟩
      obtain ⟨⟨path', leaf'⟩, present, same⟩ := List.mem_map.mp found
      cases same
      exact ⟨held, lookup_of_mem distinct member, present⟩
    · rintro ⟨held, found, present⟩
      exact ⟨(key, held), mem_of_lookup found, List.mem_map.mpr ⟨_, present, rfl⟩⟩

theorem nodup_leaves (value : Value) : value.isProper = true →
    (value.leaves.map Prod.fst).Nodup := by
  induction value using mapping_induction with
  | leaf value leaf =>
    intro _
    rw [leaves_of_not_mapping leaf]
    exact List.nodup_singleton _
  | nested fields ih =>
    intro proper
    obtain ⟨distinct, inner⟩ := isProper_mapping_iff.mp proper
    have paths : ∀ entry : Key × Value,
        (entry.2.leaves.map fun leaf => (entry.1 :: leaf.1, leaf.2)).map Prod.fst =
          (entry.2.leaves.map Prod.fst).map (entry.1 :: ·) := by
      intro entry
      rw [List.map_map, List.map_map]
      rfl
    rw [leaves_mapping, List.map_flatMap, List.nodup_flatMap]
    constructor
    · intro entry member
      rw [paths]
      exact (ih entry member (inner entry member)).map List.cons_injective
    · -- Paths of different entries differ in their first key.
      refine (List.pairwise_map.mp distinct).imp ?_
      intro entry other differs
      show List.Disjoint (List.map Prod.fst _) (List.map Prod.fst _)
      rw [paths, paths]
      intro path member member'
      obtain ⟨_, -, rfl⟩ := List.mem_map.mp member
      obtain ⟨_, -, same⟩ := List.mem_map.mp member'
      exact differs (List.cons.inj same).1.symm

theorem runsOut_of_mem_leaves {path : List Key} {leaf : Value} {value : Value}
    (proper : value.isProper = true) (member : (path, leaf) ∈ value.leaves) :
    runsOut path value = false := by
  induction path generalizing value with
  | nil => rfl
  | cons key path ih =>
    obtain ⟨held, found, present⟩ := (mem_leaves_cons_iff proper).mp member
    have later := ih (isProper_of_get? proper found) present
    cases value with
    | mapping fields =>
      rw [get?] at found
      rw [runsOut, found, Option.elim_some, later]
    | _ => rfl

theorem exists_mem_leaves_cons_iff {base : Option Value} (under : ∀ held ∈ base, held.isProper = true)
    {key : Key} {path : List Key} {leaf : Value} :
    (∃ held ∈ base, (key :: path, leaf) ∈ held.leaves) ↔
      ∃ held ∈ base.bind (get? key), (path, leaf) ∈ held.leaves := by
  cases base with
  | none => simp
  | some held => simp [mem_leaves_cons_iff (under held rfl)]

/-- A leaf of merged values is one of the override, or one under it whose path runs out. -/
theorem mem_leaves_mergeAt {base : Option Value} {override : Value}
    (under : ∀ held ∈ base, held.isProper = true) (proper : override.isProper = true)
    {path : List Key} {leaf : Value} :
    (path, leaf) ∈ (mergeAt base override).leaves ↔
      (path, leaf) ∈ override.leaves ∨
        runsOut path override = true ∧ ∃ held ∈ base, (path, leaf) ∈ held.leaves := by
  -- Along the path the override holds the next key, lacks it, or is no mapping any more.
  induction path generalizing base override with
  | nil =>
    cases override with
    | mapping fields =>
      obtain ⟨merged, same, -⟩ := mergeAt_mapping base fields
      simp [same, not_mem_leaves_mapping_nil, runsOut]
    | _ => simp [mergeAt, runsOut]
  | cons key path ih =>
    cases override with
    | mapping fields =>
      obtain ⟨distinct, inner⟩ := isProper_mapping_iff.mp proper
      rw [mem_leaves_cons_iff (isProper_mergeAt _ base proper under), mem_leaves_cons_iff proper,
        exists_mem_leaves_cons_iff under, get?_mergeAt distinct, get?, runsOut]
      cases found : fields.lookup key with
      | none => simp
      | some value =>
        have under' : ∀ held ∈ base.bind (get? key), held.isProper = true := by
          intro held member
          obtain ⟨outer, same, present⟩ := Option.bind_eq_some_iff.mp member
          exact isProper_of_get? (under outer same) present
        simpa using ih under' (inner _ (mem_of_lookup found))
    | _ => simp [mergeAt, runsOut]

/-- Merged fields hold the leaves of the override, and those under it whose path runs out in the
override, each once and no others. To merge the override again changes nothing, and neither does it to
merge fields with themselves. -/
theorem leaves_mergeFields {base override : Fields} (proper : (mapping base).isProper = true)
    (proper' : (mapping override).isProper = true) :
    (mapping (mergeFields base override)).leaves.Perm
      ((mapping override).leaves ++
        (mapping base).leaves.filter fun leaf => runsOut leaf.1 (mapping override)) ∧
    ((mapping (mergeFields base override)).leaves.map Prod.fst).Nodup ∧
    (mapping (mergeFields base override)).isProper = true ∧
    mergeFields (mergeFields base override) override = mergeFields base override ∧
    mergeFields base base = base := by
  have under : ∀ held ∈ some (mapping base), held.isProper = true := by
    rintro held ⟨⟩
    exact proper
  have merged : (mapping (mergeFields base override)).isProper = true :=
    isProper_mergeAt (mapping override) (some (mapping base)) proper' under
  have paths := nodup_leaves _ merged
  refine ⟨?_, paths, merged, ?_, ?_⟩
  · apply (List.perm_ext_iff_of_nodup (List.Nodup.of_map _ paths) ?_).mpr
    · rintro ⟨path, leaf⟩
      have split : (path, leaf) ∈ (mapping (mergeFields base override)).leaves ↔ _ :=
        mem_leaves_mergeAt under proper'
      rw [split, List.mem_append, List.mem_filter]
      simp [and_comm]
    · refine List.Nodup.append (.of_map _ (nodup_leaves _ proper'))
        ((List.Nodup.of_map _ (nodup_leaves _ proper)).filter _) ?_
      rintro ⟨path, leaf⟩ member kept
      have out := (List.mem_filter.mp kept).2
      rw [runsOut_of_mem_leaves proper' member] at out
      cases out
  · exact mapping.inj (mergeAt_mergeAt (mapping override) (some (mapping base)) proper')
  · exact mapping.inj (mergeAt_self (mapping base) proper)

def someNested : Fields :=
  [(.name "a", mapping [(.name "x", .int 1), (.name "y", mapping [(.name "z", .int 2)])]),
    (.name "b", .int 3), (.name "c", mapping [(.name "d", .int 4)]),
    (.name "e", mapping [(.name "f", .int 5)]), (.name "g", .int 6)]

def otherNested : Fields :=
  [(.name "a", mapping [(.name "y", mapping [(.name "w", .int 7)]), (.name "x", mapping [])]),
    (.name "b", mapping [(.name "h", .int 8)]), (.name "c", .int 9), (.name "e", mapping []),
    (.name "g", mapping [])]

theorem leaves_mergeFields_nested :
    (mapping someNested).isProper = true ∧ (mapping otherNested).isProper = true ∧
      (mapping (mergeFields someNested otherNested)).leaves.Perm
        [([.name "a", .name "y", .name "w"], .int 7), ([.name "b", .name "h"], .int 8),
          ([.name "c"], .int 9), ([.name "a", .name "y", .name "z"], .int 2),
          ([.name "e", .name "f"], .int 5)] ∧
      mergeFields (mergeFields someNested otherNested) otherNested =
        mergeFields someNested otherNested := by
  have proper : (mapping someNested).isProper = true := by decide
  have proper' : (mapping otherNested).isProper = true := by decide
  obtain ⟨leaves, -, -, again, -⟩ := leaves_mergeFields proper proper'
  exact ⟨proper, proper', leaves, again⟩

end KeyAtlas.Value
