/-!
A finite map that keeps its keys in the order of their first insertion. Overwriting a key keeps
its place; erasing and inserting it again moves it to the end.
-/

namespace KeyAtlas

structure OrderedMap (α : Type) (β : Type) where
  entries : List (α × β)
  keys_nodup : (entries.map Prod.fst).Nodup

namespace OrderedMap

variable {α β : Type}

def empty : OrderedMap α β :=
  ⟨[], List.nodup_nil⟩

instance : Inhabited (OrderedMap α β) := ⟨empty⟩

def keys (m : OrderedMap α β) : List α :=
  m.entries.map Prod.fst

def values (m : OrderedMap α β) : List β :=
  m.entries.map Prod.snd

def size (m : OrderedMap α β) : Nat :=
  m.entries.length

def isEmpty (m : OrderedMap α β) : Bool :=
  m.entries.isEmpty

variable [BEq α]

def get? (m : OrderedMap α β) (key : α) : Option β :=
  m.entries.lookup key

def contains (m : OrderedMap α β) (key : α) : Bool :=
  (m.get? key).isSome

/-- Overwrites the value at `key` in place, or appends a new entry. -/
def putEntry (key : α) (value : β) : List (α × β) → List (α × β)
  | [] => [(key, value)]
  | (k, v) :: rest => if k == key then (k, value) :: rest else (k, v) :: putEntry key value rest

variable [LawfulBEq α]

theorem mem_keys_putEntry {key other : α} {value : β} {entries : List (α × β)} :
    other ∈ (putEntry key value entries).map Prod.fst ↔
      other = key ∨ other ∈ entries.map Prod.fst := by
  induction entries with
  | nil => simp [putEntry]
  | cons entry rest ih =>
    obtain ⟨k, v⟩ := entry
    by_cases same : k = key
    · subst same
      simp [putEntry]
    · simp only [putEntry, beq_iff_eq, same, ↓reduceIte, List.map_cons, List.mem_cons, ih]
      exact or_left_comm

theorem keys_nodup_putEntry (key : α) (value : β) {entries : List (α × β)}
    (distinct : (entries.map Prod.fst).Nodup) :
    ((putEntry key value entries).map Prod.fst).Nodup := by
  induction entries with
  | nil => simp [putEntry]
  | cons entry rest ih =>
    obtain ⟨k, v⟩ := entry
    rw [List.map_cons, List.nodup_cons] at distinct
    by_cases same : k = key
    · subst same
      simpa only [putEntry, beq_self_eq_true, ↓reduceIte, List.map_cons, List.nodup_cons]
        using distinct
    · simp only [putEntry, beq_iff_eq, same, ↓reduceIte, List.map_cons, List.nodup_cons]
      refine ⟨fun member => ?_, ih distinct.2⟩
      rcases mem_keys_putEntry.mp member with found | found
      · exact same found
      · exact distinct.1 found

def insert (m : OrderedMap α β) (key : α) (value : β) : OrderedMap α β :=
  ⟨putEntry key value m.entries, keys_nodup_putEntry key value m.keys_nodup⟩

def erase (m : OrderedMap α β) (key : α) : OrderedMap α β :=
  ⟨m.entries.filter fun entry => entry.1 != key, m.keys_nodup.sublist (List.filter_sublist.map _)⟩

def insertLast (m : OrderedMap α β) (key : α) (value : β) : OrderedMap α β :=
  (m.erase key).insert key value

def insertNew (m : OrderedMap α β) (key : α) (value : β) : OrderedMap α β :=
  if m.contains key then m else m.insert key value

end OrderedMap

end KeyAtlas
