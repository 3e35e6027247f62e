import KeyAtlas.Index
import KeyAtlas.Proofs.OrderedMap
import Mathlib.Data.List.Perm.Basic

namespace KeyAtlas

theorem eraseDups_filter {α : Type} [BEq α] [LawfulBEq α] (keep : α → Bool) (l : List α) :
    (l.filter keep).eraseDups = l.eraseDups.filter keep := by
  match l with
  | [] => rfl
  | a :: rest =>
    have shorter := List.length_filter_le (fun b => !b == a) rest
    have later := eraseDups_filter keep (rest.filter fun b => !b == a)
    rw [List.filter_cons, List.eraseDups_cons, List.filter_cons]
    rw [List.filter_filter, List.filter_congr fun b _ => Bool.and_comm .., ← List.filter_filter]
      at later
    split
    · rw [List.eraseDups_cons, later]
    · rename_i dropped
      have unchanged : rest.filter keep = (rest.filter keep).filter fun b => !b == a := by
        rw [List.filter_filter]
        refine List.filter_congr fun b _ => ?_
        by_cases same : b = a
        · subst same
          simp [dropped]
        · simp [same]
      rw [unchanged, later]
termination_by l.length
decreasing_by simp only [List.length_cons]; omega

theorem nodup_eraseDups {α : Type} [BEq α] [LawfulBEq α] (l : List α) : l.eraseDups.Nodup := by
  match l with
  | [] => exact List.nodup_nil
  | a :: rest =>
    have shorter := List.length_filter_le (fun b => !b == a) rest
    rw [List.eraseDups_cons, List.nodup_cons]
    refine ⟨fun member => ?_, nodup_eraseDups _⟩
    rw [List.mem_eraseDups] at member
    simpa using (List.mem_filter.mp member).2
termination_by l.length
decreasing_by simp only [List.length_cons]; omega

theorem eraseDups_concat {α : Type} [BEq α] [LawfulBEq α] (l : List α) (a : α) :
    (l ++ [a]).eraseDups = if a ∈ l then l.eraseDups else l.eraseDups ++ [a] := by
  rw [List.eraseDups_append]
  by_cases present : a ∈ l <;> simp [List.removeAll, List.eraseDups_cons, present]

namespace Index

variable {δ : Type} [Defines δ]

/-- The definitions of a list by document, in the order in which the documents first occur. -/
def grouped (ds : List δ) : List (String × List δ) :=
  (ds.map documentOf).eraseDups.map fun document =>
    (document, ds.filter fun d => documentOf d == document)

theorem keys_grouped (ds : List δ) :
    (grouped ds).map Prod.fst = (ds.map documentOf).eraseDups := by
  simp [grouped, Function.comp_def]

theorem grouped_eq_nil_iff {ds : List δ} : grouped ds = [] ↔ ds = [] := by
  constructor
  · intro ungrouped
    have documents : (ds.map documentOf).eraseDups = [] := List.map_eq_nil_iff.mp ungrouped
    cases ds with
    | nil => rfl
    | cons d rest => simp [List.eraseDups_cons] at documents
  · intro same
    subst same
    rfl

theorem mem_documents_iff {ds : List δ} {document : String} :
    document ∈ ds.map documentOf ↔ ds.filter (fun d => documentOf d == document) ≠ [] := by
  rw [List.mem_map, Ne, List.filter_eq_nil_iff]
  simp

theorem get?_grouped_eq_some_iff {m : OrderedMap String (List δ)} {ds held : List δ}
    (holds : m.entries = grouped ds) {document : String} :
    m.get? document = some held ↔
      held ≠ [] ∧ held = ds.filter fun d => documentOf d == document := by
  rw [OrderedMap.get?_eq_some_iff, holds, grouped, List.mem_map]
  simp only [List.mem_eraseDups, mem_documents_iff]
  constructor
  · rintro ⟨_, nonempty, same⟩
    cases same
    exact ⟨nonempty, rfl⟩
  · rintro ⟨nonempty, rfl⟩
    exact ⟨document, nonempty, rfl⟩

theorem get?_of_grouped {m : OrderedMap String (List δ)} {ds : List δ}
    (holds : m.entries = grouped ds) (document : String) :
    (m.get? document).getD [] = ds.filter fun d => documentOf d == document := by
  cases found : m.get? document with
  | some held => exact ((get?_grouped_eq_some_iff holds).mp found).2
  | none =>
    by_contra nonempty
    have there := (get?_grouped_eq_some_iff holds).mpr ⟨Ne.symm nonempty, rfl⟩
    rw [found] at there
    cases there

theorem append_grouped {m : OrderedMap String (List δ)} {ds : List δ}
    (holds : m.entries = grouped ds) (d : δ) :
    (append m (documentOf d) d).entries = grouped (ds ++ [d]) := by
  have value : (m.get? (documentOf d)).getD [] ++ [d] =
      (ds ++ [d]).filter fun other => documentOf other == documentOf d := by
    rw [get?_of_grouped holds]
    simp
  have keys : m.entries.map Prod.fst = (ds.map documentOf).eraseDups := by
    rw [holds, keys_grouped]
  rw [append, value, OrderedMap.entries_insert]
  by_cases present : documentOf d ∈ ds.map documentOf
  · have kept : documentOf d ∈ m.entries.map Prod.fst := by
      rw [keys, List.mem_eraseDups]
      exact present
    rw [OrderedMap.putEntry_of_present _ m.keys_nodup kept, holds, grouped, grouped, List.map_map,
      List.map_append, List.map_singleton, eraseDups_concat, if_pos present]
    refine List.map_congr_left fun document _ => ?_
    by_cases same : document = documentOf d
    · subst same
      simp
    · simp [same, Ne.symm same]
  · have fresh : documentOf d ∉ m.entries.map Prod.fst := by
      rw [keys, List.mem_eraseDups]
      exact present
    rw [OrderedMap.putEntry_of_absent _ fresh, holds, grouped, grouped, List.map_append,
      List.map_singleton, eraseDups_concat, if_neg present, List.map_append]
    congr 1
    refine List.map_congr_left fun document member => ?_
    have other : documentOf d ≠ document := by
      intro same
      subst same
      exact present (List.mem_eraseDups.mp member)
    simp [other]

theorem erase_grouped {m : OrderedMap String (List δ)} {ds : List δ}
    (holds : m.entries = grouped ds) (document : String) :
    (m.erase document).entries = grouped (ds.filter fun d => documentOf d != document) := by
  have documents : (ds.filter fun d => documentOf d != document).map documentOf =
      (ds.map documentOf).filter (· != document) := by
    rw [List.filter_map]
    rfl
  rw [OrderedMap.entries_erase, holds, grouped, grouped, documents, eraseDups_filter,
    List.filter_map]
  refine List.map_congr_left fun kept member => ?_
  have other : kept ≠ document := by simpa using (List.mem_filter.mp member).2
  rw [List.filter_filter]
  congr 1
  refine List.filter_congr fun d _ => ?_
  by_cases owned : documentOf d = kept
  · simp [owned, other]
  · simp [owned]

theorem perm_flatMap_owned {documents : List String} (distinct : documents.Nodup) (ds : List δ)
    (covered : ∀ d ∈ ds, documentOf d ∈ documents) :
    (documents.flatMap fun document => ds.filter fun d => documentOf d == document).Perm ds := by
  induction documents generalizing ds with
  | nil =>
    cases ds with
    | nil => exact .nil
    | cons d rest => cases covered d List.mem_cons_self
  | cons document rest ih =>
    rw [List.nodup_cons] at distinct
    have others : (rest.flatMap fun other => ds.filter fun d => documentOf d == other) =
        rest.flatMap fun other =>
          (ds.filter fun d => !documentOf d == document).filter fun d => documentOf d == other := by
      refine List.flatMap_congr fun other member => ?_
      rw [List.filter_filter]
      refine List.filter_congr fun d _ => ?_
      by_cases owned : documentOf d = other
      · have apart : other ≠ document := fun same => distinct.1 (same ▸ member)
        simp [owned, apart]
      · simp [owned]
    have later := ih distinct.2 (ds.filter fun d => !documentOf d == document) <| by
      intro d member
      obtain ⟨present, apart⟩ := List.mem_filter.mp member
      rcases List.mem_cons.mp (covered d present) with same | known
      · simp [same] at apart
      · exact known
    rw [List.flatMap_cons, others]
    exact (later.append_left _).trans (List.filter_append_perm _ ds)

theorem filter_flatMap_owned {documents : List String} (distinct : documents.Nodup) (ds : List δ)
    (document : String) :
    (documents.flatMap fun other => ds.filter fun d => documentOf d == other).filter
        (fun d => documentOf d == document) =
      if document ∈ documents then ds.filter fun d => documentOf d == document else [] := by
  induction documents with
  | nil => simp
  | cons first rest ih =>
    rw [List.nodup_cons] at distinct
    rw [List.flatMap_cons, List.filter_append, ih distinct.2, List.filter_filter]
    by_cases same : document = first
    · subst same
      simp [distinct.1]
    · have apart : ds.filter (fun d => documentOf d == document && documentOf d == first) = [] := by
        refine List.filter_eq_nil_iff.mpr fun d _ => ?_
        intro both
        rw [Bool.and_eq_true, beq_iff_eq, beq_iff_eq] at both
        exact same (both.1.symm.trans both.2)
      simp [apart, same]

theorem filter_flatten_grouped (ds : List δ) (document : String) :
    ((grouped ds).map Prod.snd).flatten.filter (fun d => documentOf d == document) =
      ds.filter fun d => documentOf d == document := by
  rw [grouped, List.map_map, ← List.flatMap_def]
  refine (filter_flatMap_owned (nodup_eraseDups _) ds document).trans ?_
  split
  · rfl
  · rename_i absent
    rw [eq_comm, List.filter_eq_nil_iff]
    intro d member owned
    exact absent (List.mem_eraseDups.mpr (List.mem_map.mpr ⟨d, member, eq_of_beq owned⟩))

theorem perm_flatten_grouped (ds : List δ) : ((grouped ds).map Prod.snd).flatten.Perm ds := by
  rw [grouped, List.map_map, ← List.flatMap_def]
  refine perm_flatMap_owned (nodup_eraseDups _) ds fun d member => ?_
  exact List.mem_eraseDups.mpr (List.mem_map_of_mem member)

end Index

end KeyAtlas
