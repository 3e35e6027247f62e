import KeyAtlas.Proofs.Host.Root
import KeyAtlas.Proofs.Resolution.BruteForce

namespace KeyAtlas

namespace Index

variable {δ : Type}

theorem definitionsFor_of_not_mem {i : Index δ} {document : String}
    (absent : document ∉ i.documents) : i.definitionsFor document = [] := by
  rw [definitionsFor, OrderedMap.get?_eq_none_iff.mpr absent]
  rfl

variable [Defines δ]

def restrict (i : Index δ) (keep : String → Bool) : Index δ :=
  (i.documents.filter fun document => !keep document).foldl removeDocument i

theorem Sound.foldl_removeDocument {i : Index δ} (sound : i.Sound) (documents : List String) :
    (documents.foldl Index.removeDocument i).Sound ∧ ∀ document,
      (documents.foldl Index.removeDocument i).definitionsFor document =
        if document ∈ documents then [] else i.definitionsFor document := by
  induction documents generalizing i with
  | nil => simp [sound]
  | cons first rest ih =>
    obtain ⟨last, left⟩ := ih (sound.removeDocument first)
    refine ⟨last, fun document => (left document).trans ?_⟩
    rw [sound.definitionsFor_removeDocument]
    by_cases here : document = first <;> simp [here]

theorem Sound.restrict {i : Index δ} (sound : i.Sound) (keep : String → Bool) :
    (i.restrict keep).Sound ∧ ∀ document, (i.restrict keep).definitionsFor document =
      if keep document then i.definitionsFor document else [] := by
  obtain ⟨restricted, left⟩ :=
    sound.foldl_removeDocument (i.documents.filter fun document => !keep document)
  refine ⟨restricted, fun document => (left document).trans ?_⟩
  cases kept : keep document with
  | true => simp [kept]
  | false =>
    by_cases present : document ∈ i.documents
    · simp [kept, present]
    · simp [definitionsFor_of_not_mem present]

end Index

namespace Resolution

theorem ranked_rank (found : List Match) : Ranked (rank (bestPerDocument found)) :=
  ranked_mergeSort (nodup_documents_bestPerDocument found)

theorem mem_rank_query {i : Index Definition} {live : List Definition} (holds : i.Represents live)
    {path : List String} {m : Match} : m ∈ rank (bestPerDocument (i.query path)) ↔
      candidate? path (i.definitionsFor m.document) = some m := by
  rw [rank, List.mem_mergeSort, mem_best_of_query holds]

theorem filter_rank_query {i j : Index Definition} (sound : i.Sound) (sound' : j.Sound)
    (keep : String → Bool) (part : ∀ document, j.definitionsFor document =
      if keep document then i.definitionsFor document else []) (path : List String) :
    (rank (bestPerDocument (i.query path))).filter (fun m => keep m.document) =
      rank (bestPerDocument (j.query path)) := by
  obtain ⟨live, holds⟩ := sound
  obtain ⟨live', holds'⟩ := sound'
  refine ((ranked_rank _).filter _).eq_of_mem_iff (ranked_rank _) fun m => ?_
  rw [List.mem_filter, mem_rank_query holds, mem_rank_query holds', part]
  cases keep m.document with
  | true => simp
  | false => simp [candidate?, bestLevel]

def Policy.isolating (h : Host) (defaultFilter : Filter) : Policy :=
  ⟨true, defaultFilter, some h.rootOf⟩

variable {h : Host} {root : Path} {source : String}

theorem restrict_of_isRootOf (named : source ≠ "") (lies : h.IsRootOf root (.ofString source))
    (defaultFilter : Filter) (found : List Match) :
    (Policy.isolating h defaultFilter).restrict (some source) found =
      found.filter fun m => decide (h.IsRootOf root (.ofString m.document)) := by
  have isolated : (Policy.isolating h defaultFilter).restrict (some source) found =
      Policy.isolated h.rootOf source found := by
    simp [Policy.restrict, Policy.isolating, named]
  rw [isolated, Policy.isolated, Host.rootOf_eq_some_iff.mpr lies]
  refine List.filter_congr fun m _ => ?_
  simp only [Host.rootOf_eq_some_iff]

theorem resolve_of_part (named : source ≠ "") (lies : h.IsRootOf root (.ofString source))
    {i j : Index Definition} (sound : i.Sound) (sound' : j.Sound)
    (part : ∀ document, j.definitionsFor document =
      if h.IsRootOf root (.ofString document) then i.definitionsFor document else [])
    (defaultFilter : Filter) (path : List String) (filter : Option String) :
    (Policy.isolating h defaultFilter).resolve i.query path filter (some source) =
      (Policy.isolating h defaultFilter).resolve j.query path filter none := by
  have same := filter_rank_query sound sound'
    (fun document => decide (h.IsRootOf root (.ofString document))) (by simpa using part)
  have selected : ∀ chosen : Filter,
      (Policy.isolating h defaultFilter).select i.query path chosen (some source) =
        (Policy.isolating h defaultFilter).select j.query path chosen none := by
    intro chosen
    rw [Policy.select, Policy.select, restrict_of_isRootOf named lies, same,
      Policy.restrict_of_isOpen (.inr (.inr (.inl rfl)))]
  simp only [Policy.resolve, selected]

/-- With isolation, a reference from a document under a root is resolved by the documents of that
root alone: as without a source on the index of these documents, and alike for all indexes that
agree on them. -/
theorem resolve_isolated (h : Host) (defaultFilter : Filter) {source : String}
    (named : source ≠ "") {root : Path} (lies : h.IsRootOf root (.ofString source))
    (history : List (Index.Operation Definition)) (path : List String) (filter : Option String) :
    (Policy.isolating h defaultFilter).resolve (Index.after history).query path filter
        (some source) =
      (Policy.isolating h defaultFilter).resolve ((Index.after history).restrict
        fun document => h.IsRootOf root (.ofString document)).query path filter none ∧
    ∀ other : List (Index.Operation Definition),
      (∀ document, h.IsRootOf root (.ofString document) →
        (Index.after history).definitionsFor document =
          (Index.after other).definitionsFor document) →
      (Policy.isolating h defaultFilter).resolve (Index.after history).query path filter
          (some source) =
        (Policy.isolating h defaultFilter).resolve (Index.after other).query path filter
          (some source) := by
  have sound : (Index.after history).Sound := ⟨_, Index.represents_after history⟩
  obtain ⟨restricted, part⟩ :=
    sound.restrict fun document => h.IsRootOf root (.ofString document)
  simp only [decide_eq_true_eq] at part
  have first := resolve_of_part named lies sound restricted part defaultFilter path filter
  refine ⟨first, fun other agree => first.trans ?_⟩
  have otherPart : ∀ document, ((Index.after history).restrict fun document =>
      h.IsRootOf root (.ofString document)).definitionsFor document =
        if h.IsRootOf root (.ofString document) then (Index.after other).definitionsFor document
        else [] := by
    intro document
    rw [part]
    split
    · rename_i inside
      exact agree document inside
    · rfl
  exact (resolve_of_part named lies ⟨_, Index.represents_after other⟩ restricted otherPart
    defaultFilter path filter).symm

def nestedRoots : Host :=
  .make (.ofString "/") [.ofString "/w", .ofString "/w/inner", .ofString "w"] ["*.yaml"] []

def twoOwners (line : Int) : List (Index.Operation Definition) :=
  [.add ⟨["optim", "lr"], "/w/inner/b.yaml", ⟨line, 2, 4⟩, by decide⟩,
    .add ⟨["lr"], "/w/a.yaml", ⟨0, 0, 2⟩, by decide⟩]

theorem resolve_isolated_nestedRoots :
    "/w/c.yaml" ≠ "" ∧ nestedRoots.IsRootOf (.ofString "/w") (.ofString "/w/c.yaml") ∧
      (Policy.isolating nestedRoots .top).resolve (Index.after (twoOwners 1)).query
          ["optim", "lr"] none (some "/w/c.yaml") =
        (Policy.isolating nestedRoots .top).resolve (Index.after (twoOwners 7)).query
          ["optim", "lr"] none (some "/w/c.yaml") := by
  have lies : nestedRoots.IsRootOf (.ofString "/w") (.ofString "/w/c.yaml") := by decide +kernel
  have isolated := resolve_isolated nestedRoots .top (by decide) lies (twoOwners 1)
    ["optim", "lr"] none
  refine ⟨by decide, lies, isolated.2 (twoOwners 7) fun document inside => ?_⟩
  have outer : "/w/inner/b.yaml" ≠ document := by
    rintro rfl
    exact absurd inside (by decide +kernel)
  rw [(Index.represents_after _).definitionsFor, (Index.represents_after _).definitionsFor]
  simp [twoOwners, Index.liveAfter, Index.liveStep, Index.documentOf, Defines.definition, outer]

end Resolution

end KeyAtlas
