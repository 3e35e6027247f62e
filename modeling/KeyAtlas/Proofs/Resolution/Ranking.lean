import KeyAtlas.Proofs.OrderedMap
import KeyAtlas.Resolution.Ranking
import Mathlib.Data.List.Sort
import Mathlib.Data.String.Basic

/-!
One match for each document, ranked. The match kept for a document is the result of a fold over the
matches of that document alone, and a ranking of distinct documents is determined by its members.
-/

namespace KeyAtlas.Resolution

/-- The better of the match kept so far and the next one; an equal one does not replace it. -/
def better (kept : Option Match) (m : Match) : Option Match :=
  match kept with
  | none => some m
  | some best => if best.level < m.level then some m else some best

def ofDocument (document : String) (found : List Match) : List Match :=
  found.filter fun m => m.document == document

theorem get?_keepBetter (best : OrderedMap String Match) (m : Match) (document : String) :
    (keepBetter best m).get? document =
      if document == m.document then better (best.get? document) m else best.get? document := by
  by_cases same : document = m.document
  · subst same
    rw [keepBetter, if_pos (beq_self_eq_true _)]
    cases kept : best.get? m.document with
    | none => simp [better]
    | some worse =>
      simp only [better]
      split
      · simp
      · exact kept
  · rw [keepBetter, if_neg (by simpa using same)]
    cases best.get? m.document with
    | none => simp [OrderedMap.get?_insert, same]
    | some worse =>
      simp only
      split
      · simp [OrderedMap.get?_insert, same]
      · rfl

theorem get?_foldl_keepBetter (found : List Match) (best : OrderedMap String Match)
    (document : String) :
    (found.foldl keepBetter best).get? document =
      (ofDocument document found).foldl better (best.get? document) := by
  induction found generalizing best with
  | nil => rfl
  | cons m rest ih =>
    rw [List.foldl_cons, ih, get?_keepBetter, ofDocument, ofDocument]
    by_cases same : document = m.document
    · simp [same]
    · simp [same, Ne.symm same]

def Keyed (best : OrderedMap String Match) : Prop :=
  ∀ document m, best.get? document = some m → m.document = document

theorem Keyed.insert {best : OrderedMap String Match} (keyed : Keyed best) (m : Match) :
    Keyed (best.insert m.document m) := by
  intro document other found
  rw [OrderedMap.get?_insert] at found
  split at found
  · rename_i same
    cases found
    exact (eq_of_beq same).symm
  · exact keyed _ _ found

theorem Keyed.keepBetter {best : OrderedMap String Match} (keyed : Keyed best) (m : Match) :
    Keyed (keepBetter best m) := by
  rw [Resolution.keepBetter]
  split
  · exact keyed.insert m
  · split
    · exact keyed.insert m
    · exact keyed

theorem Keyed.foldl {best : OrderedMap String Match} (keyed : Keyed best) (found : List Match) :
    Keyed (found.foldl Resolution.keepBetter best) := by
  induction found generalizing best with
  | nil => exact keyed
  | cons m rest ih => exact ih (keyed.keepBetter m)

theorem keyed_best (found : List Match) : Keyed (found.foldl keepBetter .empty) := by
  have start : Keyed .empty := by
    intro document m found
    cases found
  exact start.foldl found

theorem mem_bestPerDocument {found : List Match} {m : Match} :
    m ∈ bestPerDocument found ↔ (ofDocument m.document found).foldl better none = some m := by
  have kept := get?_foldl_keepBetter found .empty m.document
  rw [OrderedMap.get?_empty] at kept
  rw [← kept, bestPerDocument, OrderedMap.values, List.mem_map, OrderedMap.get?_eq_some_iff]
  constructor
  · intro facts
    obtain ⟨⟨document, other⟩, member, rfl⟩ := facts
    have same := keyed_best found document other (OrderedMap.get?_eq_some_iff.mpr member)
    exact same ▸ member
  · intro member
    exact ⟨_, member, rfl⟩

theorem nodup_documents_bestPerDocument (found : List Match) :
    ((bestPerDocument found).map Match.document).Nodup := by
  have same : (bestPerDocument found).map Match.document =
      (found.foldl keepBetter .empty).entries.map Prod.fst := by
    rw [bestPerDocument, OrderedMap.values, List.map_map]
    refine List.map_congr_left fun ⟨document, m⟩ member => ?_
    exact keyed_best found document m (OrderedMap.get?_eq_some_iff.mpr member)
  rw [same]
  exact OrderedMap.keys_nodup _

theorem ranksBefore_iff {m other : Match} : ranksBefore m other = true ↔
    other.level < m.level ∨ m.level = other.level ∧ m.document ≤ other.document := by
  simp [ranksBefore]

theorem ranksBefore_trans (a b c : Match) (first : ranksBefore a b = true)
    (second : ranksBefore b c = true) : ranksBefore a c = true := by
  rw [ranksBefore_iff] at first second ⊢
  rcases first with higher | ⟨level, document⟩ <;> rcases second with higher' | ⟨level', document'⟩
  · left; omega
  · left; omega
  · left; omega
  · right; exact ⟨level.trans level', le_trans document document'⟩

theorem ranksBefore_total (a b : Match) : (ranksBefore a b || ranksBefore b a) = true := by
  rw [Bool.or_eq_true, ranksBefore_iff, ranksBefore_iff]
  rcases lt_trichotomy a.level b.level with lower | level | higher
  · exact .inr (.inl lower)
  · rcases le_total a.document b.document with document | document
    · exact .inl (.inr ⟨level, document⟩)
    · exact .inr (.inr ⟨level.symm, document⟩)
  · exact .inl (.inl higher)

theorem document_eq_of_ranksBefore {a b : Match} (first : ranksBefore a b = true)
    (second : ranksBefore b a = true) : a.document = b.document := by
  rw [ranksBefore_iff] at first second
  rcases first with higher | ⟨level, document⟩ <;> rcases second with higher' | ⟨level', document'⟩
  · omega
  · omega
  · omega
  · exact le_antisymm document document'

theorem eq_of_document_eq {found : List Match} (distinct : (found.map Match.document).Nodup)
    {a b : Match} (ha : a ∈ found) (hb : b ∈ found) (same : a.document = b.document) : a = b :=
  List.inj_on_of_nodup_map distinct ha hb same

/-- The matches stand in the order of a ranking, one for each document. -/
structure Ranked (found : List Match) : Prop where
  sorted : found.Pairwise fun a b => ranksBefore a b = true
  distinct : (found.map Match.document).Nodup

theorem Ranked.eq_of_mem_iff {left right : List Match} (hl : Ranked left) (hr : Ranked right)
    (same : ∀ m, m ∈ left ↔ m ∈ right) : left = right := by
  have perm : left.Perm right :=
    (List.perm_ext_iff_of_nodup hl.distinct.of_map hr.distinct.of_map).mpr same
  refine perm.eq_of_pairwise ?_ hl.sorted hr.sorted
  intro a b ha hb first second
  exact eq_of_document_eq hl.distinct ha ((same b).mpr hb) (document_eq_of_ranksBefore first second)

theorem Ranked.filter {found : List Match} (ranked : Ranked found) (keep : Match → Bool) :
    Ranked (found.filter keep) :=
  ⟨ranked.sorted.filter keep, ranked.distinct.sublist (List.filter_sublist.map Match.document)⟩

theorem ranked_mergeSort {found : List Match} (distinct : (found.map Match.document).Nodup) :
    Ranked (found.mergeSort ranksBefore) :=
  ⟨List.pairwise_mergeSort ranksBefore_trans ranksBefore_total found,
    ((List.mergeSort_perm found ranksBefore).map Match.document).nodup_iff.mpr distinct⟩

theorem mergeSort_ranksBefore_eq {left right : List Match}
    (distinctLeft : (left.map Match.document).Nodup)
    (distinctRight : (right.map Match.document).Nodup) (same : ∀ m, m ∈ left ↔ m ∈ right) :
    left.mergeSort ranksBefore = right.mergeSort ranksBefore := by
  refine (ranked_mergeSort distinctLeft).eq_of_mem_iff (ranked_mergeSort distinctRight) fun m => ?_
  rw [List.mem_mergeSort, List.mem_mergeSort, same]

end KeyAtlas.Resolution
