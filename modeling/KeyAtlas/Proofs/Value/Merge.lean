import KeyAtlas.Proofs.OrderedMap
import KeyAtlas.Value.Merge

namespace KeyAtlas.Value

def Distinct (fields : Fields) : Prop :=
  (fields.map Prod.fst).Nodup

@[simp] theorem mergeAt_none (value : Value) : mergeAt none value = value := by
  cases value <;> rfl

theorem mem_keys_mergeFields {base override : Fields} {key : Key} :
    key ∈ (mergeFields base override).map Prod.fst ↔
      key ∈ base.map Prod.fst ∨ key ∈ override.map Prod.fst := by
  induction override generalizing base with
  | nil => simp [mergeFields]
  | cons entry rest ih =>
    obtain ⟨k, v⟩ := entry
    rw [mergeFields, ih, OrderedMap.mem_keys_putEntry, List.map_cons, List.mem_cons]
    exact or_assoc.trans or_left_comm

theorem lookup_mergeFields_of_absent {override : Fields} {key : Key}
    (absent : key ∉ override.map Prod.fst) (base : Fields) :
    (mergeFields base override).lookup key = base.lookup key := by
  induction override generalizing base with
  | nil => simp [mergeFields]
  | cons entry rest ih =>
    obtain ⟨k, v⟩ := entry
    rw [List.map_cons, List.mem_cons, not_or] at absent
    have other : (key == k) = false := by simpa using absent.1
    simp [mergeFields, ih absent.2, OrderedMap.lookup_putEntry, other]

theorem lookup_eq_none_of_absent {fields : Fields} {key : Key}
    (absent : key ∉ fields.map Prod.fst) : fields.lookup key = none := by
  rw [List.lookup_eq_none_iff]
  intro entry member
  have other : key ≠ entry.1 := fun same => absent (same ▸ List.mem_map_of_mem member)
  simpa using other

theorem lookup_mergeFields {override : Fields} (distinct : Distinct override) (base : Fields)
    (key : Key) :
    (mergeFields base override).lookup key =
      match override.lookup key with
      | none => base.lookup key
      | some value => some (mergeAt (base.lookup key) value) := by
  induction override generalizing base with
  | nil => simp [mergeFields]
  | cons entry rest ih =>
    obtain ⟨k, v⟩ := entry
    rw [Distinct, List.map_cons, List.nodup_cons] at distinct
    by_cases same : key = k
    · subst same
      have later := lookup_mergeFields_of_absent distinct.1
      simp [mergeFields, later, OrderedMap.lookup_putEntry]
    · have other : (key == k) = false := by simpa using same
      simp [mergeFields, ih distinct.2, OrderedMap.lookup_putEntry, List.lookup_cons, other]

/-- A mapping that overrides anything at all decides at its own keys, merged with what a mapping under
it held there, and leaves the other keys of that mapping as they were. -/
theorem get?_mergeAt {override : Fields} (distinct : Distinct override) (base : Option Value)
    (key : Key) :
    (mergeAt base (mapping override)).get? key =
      match override.lookup key with
      | none => base.bind (get? key)
      | some value => some (mergeAt (base.bind (get? key)) value) := by
  have alone : (mapping override).get? key =
      match override.lookup key with
      | none => none
      | some value => some (mergeAt none value) := by
    cases found : override.lookup key <;> simp [get?, found]
  cases base with
  | none => exact alone
  | some held =>
    cases held with
    | mapping fields => exact lookup_mergeFields distinct fields key
    | _ => exact alone

theorem mergeAt_mapping (base : Option Value) (override : Fields) :
    ∃ merged, mergeAt base (mapping override) = mapping merged ∧ ∀ key,
      key ∈ merged.map Prod.fst ↔
        (∃ held, base = some (mapping held) ∧ key ∈ held.map Prod.fst) ∨
          key ∈ override.map Prod.fst := by
  cases base with
  | none => simp
  | some held =>
    cases held with
    | mapping fields =>
      refine ⟨mergeFields fields override, rfl, fun key => ?_⟩
      simp [mem_keys_mergeFields]
    | _ => simp [mergeAt]

end KeyAtlas.Value
