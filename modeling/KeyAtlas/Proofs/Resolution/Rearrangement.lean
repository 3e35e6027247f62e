import KeyAtlas.Proofs.Resolution.Isolation
import Mathlib.Data.List.Induction

namespace KeyAtlas.Resolution

/-- The matches of a document at a level, in the order in which they were found. -/
def tied (document : String) (level : Int) (found : List Match) : List Match :=
  (ofDocument document found).filter fun m => m.level == level

/-- Two orders of the same matches that agree on the matches of each document at each level. -/
structure Rearranged (found other : List Match) : Prop where
  perm : found.Perm other
  tied : ∀ document level, tied document level found = tied document level other

/-- `m` is the first of the matches at the highest level. -/
structure Leads (found : List Match) (m : Match) : Prop where
  first : (found.filter fun other => other.level == m.level).head? = some m
  highest : ∀ other ∈ found, other.level ≤ m.level

/-- `m` is the first match at the highest level that its document has. -/
def IsBest (found : List Match) (m : Match) : Prop :=
  Leads (ofDocument m.document found) m

/-- Higher levels come first, and documents of one level in the strict order of their names. -/
def Outranks (m other : Match) : Prop :=
  other.level < m.level ∨ m.level = other.level ∧ m.document < other.document

theorem Leads.mem {found : List Match} {m : Match} (leads : Leads found m) : m ∈ found :=
  List.mem_of_mem_filter (List.mem_of_mem_head? leads.first)

theorem Leads.unique {found : List Match} {m other : Match} (leads : Leads found m)
    (leads' : Leads found other) : m = other := by
  have below := leads.highest other leads'.mem
  have above := leads'.highest m leads.mem
  have level : m.level = other.level := by omega
  have same := leads.first
  rw [level, leads'.first] at same
  exact (Option.some.inj same).symm

theorem leads_concat_of_lt {found : List Match} {m last : Match} (leads : Leads found m)
    (higher : m.level < last.level) : Leads (found ++ [last]) last := by
  have unmatched : found.filter (fun other => other.level == last.level) = [] := by
    apply List.filter_eq_nil_iff.mpr
    intro other member level
    have bound := leads.highest other member
    have same : other.level = last.level := by simpa using level
    omega
  refine ⟨by simp [unmatched], fun other member => ?_⟩
  rcases List.mem_append.mp member with before | here
  · have bound := leads.highest other before
    omega
  · rw [List.mem_singleton.mp here]

theorem leads_concat_of_le {found : List Match} {m last : Match} (leads : Leads found m)
    (lower : last.level ≤ m.level) : Leads (found ++ [last]) m := by
  refine ⟨by simp [leads.first], fun other member => ?_⟩
  rcases List.mem_append.mp member with before | here
  · exact leads.highest other before
  · rw [List.mem_singleton.mp here]
    exact lower

theorem leads_foldl_better {found : List Match} (nonempty : found ≠ []) :
    ∃ m, found.foldl better none = some m ∧ Leads found m := by
  induction found using List.reverseRecOn with
  | nil => exact absurd rfl nonempty
  | append_singleton before last ih =>
    rw [List.foldl_concat]
    by_cases empty : before = []
    · subst empty
      exact ⟨last, rfl, by simp, by simp⟩
    · obtain ⟨m, kept, leads⟩ := ih empty
      rw [kept, better]
      split
      · rename_i higher
        exact ⟨last, rfl, leads_concat_of_lt leads higher⟩
      · rename_i lower
        exact ⟨m, rfl, leads_concat_of_le leads (by omega)⟩

theorem foldl_better_eq_some_iff {found : List Match} {m : Match} :
    found.foldl better none = some m ↔ Leads found m := by
  constructor
  · intro kept
    have nonempty : found ≠ [] := by
      rintro rfl
      cases kept
    obtain ⟨other, kept', leads⟩ := leads_foldl_better nonempty
    rw [kept] at kept'
    cases kept'
    exact leads
  · intro leads
    obtain ⟨other, kept, leads'⟩ := leads_foldl_better (List.ne_nil_of_mem leads.mem)
    rw [kept, leads.unique leads']

theorem mem_bestPerDocument_iff_isBest {found : List Match} {m : Match} :
    m ∈ bestPerDocument found ↔ IsBest found m := by
  rw [mem_bestPerDocument, foldl_better_eq_some_iff, IsBest]

theorem tied_append (document : String) (level : Int) (first later : List Match) :
    tied document level (first ++ later) =
      tied document level first ++ tied document level later := by
  rw [tied, ofDocument, List.filter_append, List.filter_append, tied, tied, ofDocument, ofDocument]

theorem rearranged_swap (before after : List Match) {m other : Match}
    (apart : m.document ≠ other.document ∨ m.level ≠ other.level) :
    Rearranged (before ++ m :: other :: after) (before ++ other :: m :: after) := by
  refine ⟨(List.Perm.swap other m after).append_left before, fun document level => ?_⟩
  have absent : tied document level [m] = [] ∨ tied document level [other] = [] := by
    simp only [tied, ofDocument, List.filter_filter, List.filter_eq_nil_iff, List.mem_singleton,
      forall_eq, Bool.and_eq_true, beq_iff_eq]
    grind
  have cut : ∀ a b, tied document level (before ++ a :: b :: after) =
      tied document level before ++
        ((tied document level [a] ++ tied document level [b]) ++ tied document level after) := by
    intro a b
    rw [← tied_append document level [a], ← tied_append document level ([a] ++ [b]), ← tied_append]
    rfl
  rw [cut, cut]
  rcases absent with alone | alone <;> simp [alone]

theorem Rearranged.isBest {found other : List Match} (rearranged : Rearranged found other)
    {m : Match} (best : IsBest found m) : IsBest other m := by
  refine ⟨?_, fun rival member => best.highest rival ?_⟩
  · exact (congrArg List.head? (rearranged.tied m.document m.level)).symm.trans best.first
  · obtain ⟨present, same⟩ := List.mem_filter.mp member
    exact List.mem_filter.mpr ⟨rearranged.perm.mem_iff.mpr present, same⟩

theorem Rearranged.symm {found other : List Match} (rearranged : Rearranged found other) :
    Rearranged other found :=
  ⟨rearranged.perm.symm, fun document level => (rearranged.tied document level).symm⟩

theorem Rearranged.rank {found other : List Match} (rearranged : Rearranged found other) :
    rank (bestPerDocument found) = rank (bestPerDocument other) := by
  apply mergeSort_ranksBefore_eq
  · exact nodup_documents_bestPerDocument found
  · exact nodup_documents_bestPerDocument other
  · intro m
    rw [mem_bestPerDocument_iff_isBest, mem_bestPerDocument_iff_isBest]
    exact ⟨rearranged.isBest, rearranged.symm.isBest⟩

theorem Ranked.outranks {found : List Match} (ranked : Ranked found) :
    found.Pairwise Outranks := by
  have apart : found.Pairwise fun m other => m.document ≠ other.document :=
    List.pairwise_map.mp ranked.distinct
  apply (ranked.sorted.and apart).imp
  intro m other facts
  obtain ⟨before, differs⟩ := facts
  rcases ranksBefore_iff.mp before with higher | ⟨level, document⟩
  · exact .inl higher
  · exact .inr ⟨level, lt_of_le_of_ne document differs⟩

theorem Filter.apply_sublist (filter : Filter) (length : Int) (found : List Match) :
    (filter.apply length found).Sublist found := by
  cases filter with
  | all => exact List.Sublist.refl found
  | top => exact List.filter_sublist
  | perfect => exact List.filter_sublist

namespace Policy

theorem restrict_sublist (p : Policy) (source : Option String) (found : List Match) :
    (p.restrict source found).Sublist found := by
  unfold restrict
  split
  · split
    · unfold isolated
      split
      · exact List.Sublist.refl found
      · exact List.filter_sublist
    · exact List.Sublist.refl found
  · exact List.Sublist.refl found

theorem select_sublist (p : Policy) (lookup : List String → List Match) (path : List String)
    (filter : Filter) (source : Option String) :
    (p.select lookup path filter source).Sublist (rank (bestPerDocument (lookup path))) :=
  (filter.apply_sublist _ _).trans (p.restrict_sublist source _)

/-- Whatever a lookup gives for a reference, its order does not matter beyond the order of the
matches of one document at one level. What is shown is strictly ordered, from higher to lower levels
and by document within a level, with at most one match for each document, and that is the first one at
the document's highest level. Without isolation the filter `all` shows every such match. -/
theorem resolve_of_rearranged (p : Policy) (lookup : List String → List Match)
    {path : List String} (valid : isLookup path = true) {filter : Option String} {chosen : Filter}
    (known : p.filterFor filter = .ok chosen) (source : Option String) :
    (∀ other : List String → List Match, Rearranged (lookup path) (other path) →
      p.resolve other path filter source = p.resolve lookup path filter source) ∧
    ∃ shown, p.resolve lookup path filter source = .ok (.found chosen shown) ∧
      shown.Pairwise Outranks ∧ (shown.map Match.document).Nodup ∧
      (∀ m ∈ shown, IsBest (lookup path) m) ∧
      (p.IsOpen source → chosen = .all → ∀ m, IsBest (lookup path) m → m ∈ shown) := by
  have resolved := p.resolve_of_isLookup lookup valid known source
  have ranked := ranked_rank (lookup path)
  have part := p.select_sublist lookup path chosen source
  have members : ∀ m, m ∈ rank (bestPerDocument (lookup path)) ↔ IsBest (lookup path) m := by
    intro m
    rw [rank, List.mem_mergeSort, mem_bestPerDocument_iff_isBest]
  refine ⟨fun other rearranged => ?_, _, resolved, ?_, ?_, ?_, ?_⟩
  · rw [resolved, p.resolve_of_isLookup other valid known source, select, select, rearranged.rank]
  · exact ranked.outranks.sublist part
  · exact ranked.distinct.sublist (part.map Match.document)
  · intro m member
    exact (members m).mp (part.subset member)
  · intro unrestricted all m best
    rw [all, select, restrict_of_isOpen unrestricted]
    exact (members m).mpr best

def hit (document : String) (line : Int) : Match :=
  ⟨⟨["optim", "decay"], document, ⟨line, 0, 2⟩, List.cons_ne_nil _ _⟩, 2⟩

theorem resolve_of_rearranged_tied :
    isLookup ["optim", "decay"] = true ∧ filterFor ⟨false, .top, none⟩ (some "all") = .ok .all ∧
      Rearranged [hit "b" 0, hit "a" 0, hit "b" 1, hit "a" 1]
        [hit "b" 0, hit "b" 1, hit "a" 0, hit "a" 1] ∧
      resolve ⟨false, .top, none⟩ (fun _ => [hit "b" 0, hit "b" 1, hit "a" 0, hit "a" 1])
          ["optim", "decay"] (some "all") none =
        resolve ⟨false, .top, none⟩ (fun _ => [hit "b" 0, hit "a" 0, hit "b" 1, hit "a" 1])
          ["optim", "decay"] (some "all") none := by
  have valid : isLookup ["optim", "decay"] = true := by decide
  have known : filterFor ⟨false, .top, none⟩ (some "all") = .ok .all := by decide
  have rearranged : Rearranged [hit "b" 0, hit "a" 0, hit "b" 1, hit "a" 1]
      [hit "b" 0, hit "b" 1, hit "a" 0, hit "a" 1] :=
    rearranged_swap [hit "b" 0] [hit "a" 1] (.inl (by decide))
  exact ⟨valid, known, rearranged,
    (resolve_of_rearranged ⟨false, .top, none⟩
      (fun _ => [hit "b" 0, hit "a" 0, hit "b" 1, hit "a" 1]) valid known none).1 _ rearranged⟩

end Policy

end KeyAtlas.Resolution
