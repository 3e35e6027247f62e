import KeyAtlas.Proofs.OrderedMap
import KeyAtlas.Value.Merge

namespace KeyAtlas.Value

/-- The value down to a depth, with nothing in place of what lies deeper. -/
def cut : Nat → Value → Value
  | 0, _ => .null
  | depth + 1, .sequence items => .sequence (items.map (cut depth))
  | depth + 1, .mapping fields => .mapping (fields.map (Prod.map id (cut depth)))
  | _ + 1, scalar => scalar

def cutFields (depth : Nat) (fields : Fields) : Fields :=
  fields.map (Prod.map id (cut depth))

theorem cut_mapping (depth : Nat) (fields : Fields) :
    (mapping fields).cut (depth + 1) = .mapping (cutFields depth fields) :=
  rfl

theorem cut_cut (v : Value) (m n : Nat) : (v.cut m).cut n = v.cut (min m n) := by
  induction m generalizing v n with
  | zero => cases n <;> simp [cut]
  | succ m ih =>
    cases n with
    | zero => simp [cut]
    | succ n =>
      rw [Nat.add_min_add_right]
      cases v with
      | sequence items => simp [cut, ih]
      | mapping fields => simp [cut, Prod.map, ih]
      | _ => rfl

theorem cut_of_cut {v w : Value} {m n : Nat} (same : v.cut n = w.cut n) (le : m ≤ n) :
    v.cut m = w.cut m := by
  have both := congrArg (cut m) same
  rwa [cut_cut, cut_cut, Nat.min_eq_right le] at both

theorem cutFields_cutFields (fields : Fields) (m n : Nat) :
    cutFields n (cutFields m fields) = cutFields (min m n) fields := by
  simp [cutFields, Prod.map, cut_cut]

/-- A question that lists and mappings answer all alike has its answer one level down. -/
theorem apply_cut {α : Type} {f : Value → α}
    (lists : ∀ items others, f (.sequence items) = f (.sequence others))
    (mappings : ∀ fields others, f (.mapping fields) = f (.mapping others)) (depth : Nat)
    (v : Value) : f (v.cut (depth + 1)) = f v := by
  cases v with
  | sequence items => exact lists _ _
  | mapping fields => exact mappings _ _
  | _ => rfl

theorem isTruthy_cut (depth : Nat) (v : Value) : (v.cut (depth + 1)).isTruthy = v.isTruthy := by
  cases v <;> simp [cut, isTruthy]

theorem key?_cut (depth : Nat) (v : Value) : (v.cut (depth + 1)).key? = v.key? :=
  apply_cut (fun _ _ => rfl) (fun _ _ => rfl) depth v

theorem cut_ofKey (depth : Nat) (key : Key) : (ofKey key).cut (depth + 1) = ofKey key := by
  cases key <;> rfl

theorem cut_ofPoints (depth : Nat) (codes : List Nat) :
    (ofPoints codes).cut (depth + 1) = ofPoints codes := by
  rw [ofPoints]
  split <;> rfl

theorem listed?_cut (depth : Nat) (v : Value) :
    (v.cut (depth + 2)).listed? = v.listed?.map (List.map (cut (depth + 1))) := by
  cases v with
  | points codes => simp [cut, listed?, cut_ofPoints]
  | mapping fields => simp [cut, listed?, cut_ofKey]
  | _ => simp [cut, listed?]

theorem cutFields_append (depth : Nat) (fields others : Fields) :
    cutFields depth (fields ++ others) = cutFields depth fields ++ cutFields depth others :=
  List.map_append

theorem lookup_cutFields (depth : Nat) (fields : Fields) (key : Key) :
    (cutFields depth fields).lookup key = (fields.lookup key).map (cut depth) := by
  induction fields with
  | nil => rfl
  | cons field rest ih =>
    obtain ⟨k, v⟩ := field
    rw [cutFields, List.map_cons, Prod.map_apply, List.lookup_cons, List.lookup_cons, id]
    cases key == k
    · exact ih
    · rfl

theorem putEntry_cutFields (depth : Nat) (key : Key) (v : Value) (fields : Fields) :
    OrderedMap.putEntry key (v.cut depth) (cutFields depth fields) =
      cutFields depth (OrderedMap.putEntry key v fields) :=
  OrderedMap.putEntry_map (cut depth) key v fields

theorem cutFields_mergeFields_of {depth : Nat}
    (one : ∀ base v, (mergeAt base v).cut depth = mergeAt (base.map (cut depth)) (v.cut depth))
    (base override : Fields) :
    cutFields depth (mergeFields base override) =
      mergeFields (cutFields depth base) (cutFields depth override) := by
  induction override generalizing base with
  | nil => rfl
  | cons field rest ih =>
    obtain ⟨key, v⟩ := field
    rw [mergeFields, ih, ← putEntry_cutFields, one, ← lookup_cutFields]
    rfl

/-- Merging looks at a level of the one value only together with the same level of the other. -/
theorem cut_mergeAt (depth : Nat) (base : Option Value) (v : Value) :
    (mergeAt base v).cut depth = mergeAt (base.map (cut depth)) (v.cut depth) := by
  induction depth generalizing base v with
  | zero => cases base <;> rfl
  | succ depth ih =>
    cases v with
    | mapping override =>
      rcases base with _ | base
      · rfl
      · cases base with
        | mapping fields =>
          rw [mergeAt, cut_mapping, cutFields_mergeFields_of ih]
          rfl
        | _ => rfl
    | _ => cases base <;> rfl

theorem cutFields_mergeFields (depth : Nat) (base override : Fields) :
    cutFields depth (mergeFields base override) =
      mergeFields (cutFields depth base) (cutFields depth override) :=
  cutFields_mergeFields_of (cut_mergeAt depth) base override

end KeyAtlas.Value
