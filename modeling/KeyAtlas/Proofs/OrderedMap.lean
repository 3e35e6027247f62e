import KeyAtlas.OrderedMap
import Mathlib.Logic.Basic

namespace KeyAtlas.OrderedMap

variable {α β : Type}

theorem ext_entries {m n : OrderedMap α β} (same : m.entries = n.entries) : m = n := by
  obtain ⟨entries, distinct⟩ := m
  cases same
  rfl

theorem eq_empty_of_isEmpty {m : OrderedMap α β} (isEmpty : m.isEmpty = true) : m = .empty :=
  ext_entries (List.isEmpty_iff.mp isEmpty)

variable [BEq α]

@[simp] theorem get?_empty (key : α) : (empty : OrderedMap α β).get? key = none :=
  rfl

theorem entries_insert [LawfulBEq α] (m : OrderedMap α β) (key : α) (value : β) :
    (m.insert key value).entries = putEntry key value m.entries :=
  rfl

theorem entries_erase [LawfulBEq α] (m : OrderedMap α β) (key : α) :
    (m.erase key).entries = m.entries.filter fun entry => entry.1 != key :=
  rfl

@[simp] theorem erase_erase [LawfulBEq α] (m : OrderedMap α β) (key : α) :
    (m.erase key).erase key = m.erase key :=
  ext_entries (by simp [entries_erase])

theorem mem_of_mem_putEntry {key : α} {value : β} {entries : List (α × β)} {entry : α × β}
    (member : entry ∈ putEntry key value entries) : entry.2 = value ∨ entry ∈ entries := by
  induction entries with
  | nil =>
    rw [putEntry, List.mem_singleton] at member
    exact .inl (congrArg Prod.snd member)
  | cons first rest ih =>
    obtain ⟨k, v⟩ := first
    rw [putEntry] at member
    split at member
    · rcases List.mem_cons.mp member with rfl | later
      · exact .inl rfl
      · exact .inr (List.mem_cons_of_mem _ later)
    · rcases List.mem_cons.mp member with rfl | later
      · exact .inr List.mem_cons_self
      · exact (ih later).imp_right (List.mem_cons_of_mem _)

theorem putEntry_map {γ : Type} (f : β → γ) (key : α) (value : β) (entries : List (α × β)) :
    putEntry key (f value) (entries.map (Prod.map id f)) =
      (putEntry key value entries).map (Prod.map id f) := by
  induction entries with
  | nil => rfl
  | cons entry rest ih =>
    obtain ⟨k, v⟩ := entry
    simp only [List.map_cons, Prod.map_apply, id, putEntry, ih]
    split <;> rfl

variable [LawfulBEq α]

theorem get?_eq_some_iff {m : OrderedMap α β} {key : α} {value : β} :
    m.get? key = some value ↔ (key, value) ∈ m.entries := by
  obtain ⟨entries, distinct⟩ := m
  simp only [get?]
  induction entries with
  | nil => simp
  | cons entry rest ih =>
    obtain ⟨k, v⟩ := entry
    rw [List.map_cons, List.nodup_cons] at distinct
    rw [List.lookup_cons]
    by_cases same : key = k
    · subst same
      have fresh : (key, value) ∉ rest := fun member =>
        distinct.1 (List.mem_map.mpr ⟨_, member, rfl⟩)
      simp [fresh, eq_comm]
    · have other : (key == k) = false := by simpa using same
      simp [same, other, ih distinct.2]

theorem get?_eq_none_iff {m : OrderedMap α β} {key : α} : m.get? key = none ↔ key ∉ m.keys := by
  rw [get?, List.lookup_eq_none_iff]
  constructor
  · intro absent member
    obtain ⟨entry, present, rfl⟩ := List.mem_map.mp member
    simpa using absent entry present
  · intro absent entry present
    have other : key ≠ entry.1 := fun same => absent (List.mem_map.mpr ⟨entry, present, same.symm⟩)
    simpa using other

theorem contains_iff {m : OrderedMap α β} {key : α} : m.contains key = true ↔ key ∈ m.keys := by
  rw [contains, ← Option.ne_none_iff_isSome, Ne, get?_eq_none_iff, not_not]

theorem putEntry_of_absent {key : α} (value : β) {entries : List (α × β)}
    (absent : key ∉ entries.map Prod.fst) :
    putEntry key value entries = entries ++ [(key, value)] := by
  induction entries with
  | nil => rfl
  | cons entry rest ih =>
    obtain ⟨k, v⟩ := entry
    rw [List.map_cons, List.mem_cons, not_or] at absent
    have other : (k == key) = false := by simpa using Ne.symm absent.1
    simp [putEntry, other, ih absent.2]

theorem putEntry_of_present {key : α} (value : β) {entries : List (α × β)}
    (distinct : (entries.map Prod.fst).Nodup) (present : key ∈ entries.map Prod.fst) :
    putEntry key value entries =
      entries.map fun entry => if entry.1 == key then (key, value) else entry := by
  induction entries with
  | nil => cases present
  | cons entry rest ih =>
    obtain ⟨k, v⟩ := entry
    rw [List.map_cons, List.nodup_cons] at distinct
    by_cases same : k = key
    · subst same
      have others : ∀ entry ∈ rest, (if entry.1 == k then (k, value) else entry) = entry := by
        intro entry member
        have other : entry.1 ≠ k := fun same => distinct.1 (List.mem_map.mpr ⟨entry, member, same⟩)
        simp [other]
      simp [putEntry, List.map_congr_left others]
    · have later : key ∈ rest.map Prod.fst := by
        rcases List.mem_cons.mp present with here | later
        · exact absurd here.symm same
        · exact later
      simp [putEntry, same, ih distinct.2 later]

theorem putEntry_of_lookup {key : α} {value : β} {entries : List (α × β)}
    (found : entries.lookup key = some value) : putEntry key value entries = entries := by
  induction entries with
  | nil => cases found
  | cons entry rest ih =>
    obtain ⟨k, v⟩ := entry
    rw [List.lookup_cons] at found
    by_cases same : key = k
    · subst same
      rw [beq_self_eq_true] at found
      cases found
      simp [putEntry]
    · have other : (key == k) = false := by simpa using same
      have other' : (k == key) = false := by simpa using Ne.symm same
      rw [other] at found
      simp [putEntry, other', ih found]

theorem lookup_putEntry (key other : α) (value : β) (entries : List (α × β)) :
    (putEntry key value entries).lookup other =
      if other == key then some value else entries.lookup other := by
  induction entries with
  | nil =>
    cases same : other == key <;> simp [putEntry, List.lookup_cons, same]
  | cons entry rest ih =>
    obtain ⟨k, v⟩ := entry
    by_cases here : k = key
    · subst here
      cases same : other == k <;> simp [putEntry, List.lookup_cons, same]
    · cases found : other == k
      · simp [putEntry, here, List.lookup_cons, found, ih]
      · cases eq_of_beq found
        simp [putEntry, here]

theorem get?_insert (m : OrderedMap α β) (key other : α) (value : β) :
    (m.insert key value).get? other = if other == key then some value else m.get? other :=
  lookup_putEntry key other value m.entries

@[simp] theorem get?_insert_self (m : OrderedMap α β) (key : α) (value : β) :
    (m.insert key value).get? key = some value := by
  simp [get?_insert]

theorem get?_erase (m : OrderedMap α β) (key other : α) :
    (m.erase key).get? other = if other == key then none else m.get? other := by
  by_cases same : other = key
  · subst same
    rw [beq_self_eq_true, if_pos rfl, get?, List.lookup_eq_none_iff]
    intro entry kept
    have other : entry.1 ≠ other := by simpa using (List.mem_filter.mp kept).2
    simpa using Ne.symm other
  · rw [if_neg (by simpa using same)]
    cases found : m.get? other with
    | none =>
      rw [get?_eq_none_iff] at found ⊢
      intro member
      obtain ⟨entry, kept, rfl⟩ := List.mem_map.mp member
      exact found (List.mem_map_of_mem (List.mem_filter.mp kept).1)
    | some value =>
      rw [get?_eq_some_iff] at found ⊢
      exact List.mem_filter.mpr ⟨found, by simpa using same⟩

theorem get?_insertLast (m : OrderedMap α β) (key other : α) (value : β) :
    (m.insertLast key value).get? other = if other == key then some value else m.get? other := by
  rw [insertLast, get?_insert, get?_erase]
  split <;> rfl

theorem entries_insertLast (m : OrderedMap α β) (key : α) (value : β) :
    (m.insertLast key value).entries = (m.erase key).entries ++ [(key, value)] := by
  refine putEntry_of_absent value fun member => ?_
  obtain ⟨entry, kept, same⟩ := List.mem_map.mp member
  have other : entry.1 ≠ key := by simpa using (List.mem_filter.mp kept).2
  exact other same

theorem size_erase (m : OrderedMap α β) (key : α) :
    (m.erase key).size + (if m.contains key then 1 else 0) = m.size := by
  have kept : (m.erase key).size = m.keys.countP (· != key) := by
    rw [size, entries_erase, keys, List.countP_map, List.countP_eq_length_filter]
    rfl
  have dropped : (if m.contains key then 1 else 0) = m.keys.count key := by
    rw [keys, m.keys_nodup.count]
    exact if_congr contains_iff rfl rfl
  have split := List.length_eq_countP_add_countP (· != key) (l := m.keys)
  rw [kept, dropped, size, List.count]
  simpa [keys, bne] using split.symm

theorem mem_keys_insert {m : OrderedMap α β} {key other : α} {value : β} :
    other ∈ (m.insert key value).keys ↔ other = key ∨ other ∈ m.keys :=
  mem_keys_putEntry

theorem mem_keys_erase {m : OrderedMap α β} {key other : α} :
    other ∈ (m.erase key).keys ↔ other ≠ key ∧ other ∈ m.keys := by
  rw [← not_iff_not, ← get?_eq_none_iff, get?_erase, not_and, ← get?_eq_none_iff]
  by_cases same : other = key <;> simp [same]

end KeyAtlas.OrderedMap
