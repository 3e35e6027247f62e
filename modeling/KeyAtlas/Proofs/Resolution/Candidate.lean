import KeyAtlas.Proofs.Index.Scan
import KeyAtlas.Proofs.Resolution.Ranking

namespace KeyAtlas.Resolution

def commonStart : List String → List String → Nat
  | a :: as, b :: bs => if a = b then commonStart as bs + 1 else 0
  | _, _ => 0

/-- The length of the longest common suffix of two paths. -/
def agreement (path other : List String) : Nat :=
  commonStart path.reverse other.reverse

theorem commonStart_le_length (as bs : List String) : commonStart as bs ≤ as.length := by
  induction as generalizing bs with
  | nil => simp [commonStart]
  | cons a as ih =>
    cases bs with
    | nil => simp [commonStart]
    | cons b bs =>
      rw [commonStart]
      split
      · exact Nat.succ_le_succ (ih bs)
      · exact Nat.zero_le _

theorem agreement_le_length (path other : List String) : agreement path other ≤ path.length := by
  simpa [agreement] using commonStart_le_length path.reverse other.reverse

theorem take_isPrefix_iff {as bs : List String} {level : Nat} (bound : level ≤ as.length) :
    as.take level <+: bs ↔ level ≤ commonStart as bs := by
  induction as generalizing bs level with
  | nil =>
    have zero : level = 0 := Nat.le_zero.mp bound
    simp [zero]
  | cons a as ih =>
    cases level with
    | zero => simp
    | succ level =>
      have shorter : level ≤ as.length := Nat.le_of_succ_le_succ bound
      cases bs with
      | nil => simp [commonStart]
      | cons b bs =>
        rw [List.take_succ_cons, List.cons_prefix_cons, ih shorter, commonStart]
        by_cases same : a = b <;> simp [same]

theorem ending_isSuffixOf_iff {path other : List String} {level : Nat}
    (bound : level ≤ path.length) :
    (Index.ending path level).isSuffixOf other = true ↔ level ≤ agreement path other := by
  have start : (Index.ending path level).reverse = path.reverse.take level := by
    rw [Index.ending, ← List.take_reverse]
  rw [List.isSuffixOf_iff_suffix, ← List.reverse_prefix, start, agreement]
  exact take_isPrefix_iff (by simpa using bound)

def bestLevel (path : List String) (ds : List Definition) : Nat :=
  ds.foldr (fun d best => max (agreement path d.path) best) 0

/-- The first of the definitions that agree on the most components. -/
def candidate? (path : List String) (ds : List Definition) : Option Match :=
  let level := bestLevel path ds
  if level = 0 then none
  else (ds.find? fun d => agreement path d.path == level).map fun d => ⟨d, level⟩

theorem le_bestLevel (path : List String) {ds : List Definition} {d : Definition} (member : d ∈ ds) :
    agreement path d.path ≤ bestLevel path ds := by
  induction ds with
  | nil => cases member
  | cons first rest ih =>
    rw [bestLevel, List.foldr_cons]
    rcases List.mem_cons.mp member with rfl | later
    · exact le_max_left _ _
    · exact (ih later).trans (le_max_right _ _)

theorem bestLevel_attained (path : List String) {ds : List Definition}
    (positive : bestLevel path ds ≠ 0) :
    ∃ d ∈ ds, agreement path d.path = bestLevel path ds := by
  induction ds with
  | nil => exact absurd rfl positive
  | cons first rest ih =>
    have unfolded : bestLevel path (first :: rest) =
        max (agreement path first.path) (bestLevel path rest) := rfl
    rcases le_total (bestLevel path rest) (agreement path first.path) with front | later
    · exact ⟨first, List.mem_cons_self, by rw [unfolded, max_eq_left front]⟩
    · rw [unfolded, max_eq_right later] at positive ⊢
      obtain ⟨d, member, attained⟩ := ih positive
      exact ⟨d, List.mem_cons_of_mem _ member, attained⟩

/-- What a scan finds among the definitions of one document on the levels up to `height`. -/
def hits (path : List String) (ds : List Definition) (height : Nat) : List Match :=
  (List.range' 1 height).reverse.flatMap fun level =>
    (ds.filter fun d => (Index.ending path level).isSuffixOf d.path).map fun d => ⟨d, level⟩

theorem hits_succ (path : List String) (ds : List Definition) (height : Nat) :
    hits path ds (height + 1) =
      ((ds.filter fun d => (Index.ending path (height + 1)).isSuffixOf d.path).map
        fun d => ⟨d, ((height + 1 : Nat) : Int)⟩) ++ hits path ds height := by
  rw [hits, List.range'_1_concat, List.reverse_append, List.reverse_singleton,
    List.singleton_append, List.flatMap_cons, Nat.add_comm 1 height]
  rfl

theorem level_le_of_mem_hits {path : List String} {ds : List Definition} {height : Nat} {m : Match}
    (member : m ∈ hits path ds height) : m.level ≤ height := by
  obtain ⟨level, range, found⟩ := List.mem_flatMap.mp member
  obtain ⟨d, _, rfl⟩ := List.mem_map.mp found
  rw [List.mem_reverse, List.mem_range'_1] at range
  simp only
  omega

theorem hits_descending (path : List String) (ds : List Definition) (height : Nat) :
    (hits path ds height).Pairwise fun m later => later.level ≤ m.level := by
  induction height with
  | zero => exact List.Pairwise.nil
  | succ height ih =>
    rw [hits_succ, List.pairwise_append]
    refine ⟨?_, ih, ?_⟩
    · rw [List.pairwise_map]
      exact List.pairwise_of_forall fun _ _ => le_refl _
    · intro m first later member
      obtain ⟨d, _, rfl⟩ := List.mem_map.mp first
      have bound := level_le_of_mem_hits member
      simp only
      omega

theorem foldl_better_of_le {best : Match} {later : List Match}
    (worse : ∀ m ∈ later, m.level ≤ best.level) : later.foldl better (some best) = some best := by
  induction later with
  | nil => rfl
  | cons m rest ih =>
    have kept : better (some best) m = some best := by
      have bound := worse m List.mem_cons_self
      simp [better, bound]
    rw [List.foldl_cons, kept]
    exact ih fun other member => worse other (List.mem_cons_of_mem _ member)

theorem foldl_better_of_descending {found : List Match}
    (descending : found.Pairwise fun m later => later.level ≤ m.level) :
    found.foldl better none = found.head? := by
  cases descending with
  | nil => rfl
  | cons worse _ => exact foldl_better_of_le worse

theorem head?_hits {path : List String} {ds : List Definition} {height : Nat}
    (bound : height ≤ path.length) (enough : bestLevel path ds ≤ height) :
    (hits path ds height).head? = candidate? path ds := by
  induction height with
  | zero =>
    have zero : bestLevel path ds = 0 := Nat.le_zero.mp enough
    simp [hits, candidate?, zero]
  | succ height ih =>
    have agrees : ∀ d : Definition, (Index.ending path (height + 1)).isSuffixOf d.path =
        decide (height + 1 ≤ agreement path d.path) := by
      intro d
      rw [Bool.eq_iff_iff, ending_isSuffixOf_iff bound, decide_eq_true_iff]
    rw [hits_succ, List.head?_append, List.head?_map]
    simp only [agrees]
    rcases Nat.lt_or_eq_of_le enough with lower | top
    · have unreached : ds.filter (fun d => decide (height + 1 ≤ agreement path d.path)) = [] := by
        refine List.filter_eq_nil_iff.mpr fun d member reached => ?_
        have highest := le_bestLevel path member
        have level := of_decide_eq_true reached
        omega
      rw [unreached, List.head?_nil, Option.map_none, Option.none_or]
      exact ih (by omega) (by omega)
    · have same : ∀ d ∈ ds, decide (height + 1 ≤ agreement path d.path) =
          (agreement path d.path == height + 1) := by
        intro d member
        have highest := le_bestLevel path member
        rw [Bool.eq_iff_iff, decide_eq_true_iff, beq_iff_eq]
        omega
      have positive : bestLevel path ds ≠ 0 := by omega
      obtain ⟨d, member, attained⟩ := bestLevel_attained path positive
      have found : (ds.find? fun d => agreement path d.path == height + 1).isSome := by
        rw [List.find?_isSome]
        exact ⟨d, member, by rw [attained, top, beq_self_eq_true]⟩
      obtain ⟨first, first_eq⟩ := Option.isSome_iff_exists.mp found
      rw [List.filter_congr same, List.head?_filter, candidate?, top, first_eq]
      rfl

end KeyAtlas.Resolution
