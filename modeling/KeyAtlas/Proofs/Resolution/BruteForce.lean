import KeyAtlas.Proofs.Index.Contents
import KeyAtlas.Proofs.Resolution.Candidate
import KeyAtlas.Resolution.Policy

namespace KeyAtlas.Resolution

/-- The candidates of all documents, by level from the highest down, and by document for one
level. -/
def candidates (i : Index Definition) (path : List String) : List Match :=
  (i.documents.filterMap fun document => candidate? path (i.definitionsFor document)).mergeSort
    fun m other => other.level < m.level || (m.level = other.level && m.document ≤ other.document)

def bruteForce (i : Index Definition) (path : List String) (filter : Filter) : List Match :=
  let ranked := candidates i path
  match filter with
  | .all => ranked
  | .top => ranked.filter fun m => (ranked.map Match.level).max? = some m.level
  | .perfect => ranked.filter fun m => m.level = path.length

theorem ofDocument_scanAt (live : List Definition) (path : List String) (level : Nat)
    (document : String) :
    ofDocument document (Index.scanAt live path level) =
      ((live.filter fun d => Index.documentOf d == document).filter fun d =>
        (Index.ending path level).isSuffixOf d.path).map fun d => ⟨d, level⟩ := by
  have flat : Index.scanAt live path level =
      ((Index.grouped (live.filter fun d => (Index.ending path level).isSuffixOf d.path)).map
        Prod.snd).flatten.map fun d => ⟨d, level⟩ := by
    rw [← List.flatMap_def, List.map_flatMap]
    rfl
  rw [ofDocument, flat, List.filter_map]
  have owned := Index.filter_flatten_grouped
    (live.filter fun d => (Index.ending path level).isSuffixOf d.path) document
  rw [List.filter_filter, List.filter_congr fun d _ => Bool.and_comm .., ← List.filter_filter]
    at owned
  exact congrArg _ owned

theorem ofDocument_scan (live : List Definition) (path : List String) (document : String) :
    ofDocument document (Index.scan live path) =
      hits path (live.filter fun d => Index.documentOf d == document) path.length := by
  rw [ofDocument, Index.scan, List.filter_flatMap, hits]
  exact List.flatMap_congr fun level _ => ofDocument_scanAt live path level document

variable {i : Index Definition} {live : List Definition}

theorem best_of_query (holds : i.Represents live) (path : List String) (document : String) :
    (ofDocument document (i.query path)).foldl better none =
      candidate? path (i.definitionsFor document) := by
  rw [holds.query, ofDocument_scan, foldl_better_of_descending (hits_descending _ _ _),
    ← holds.definitionsFor]
  refine head?_hits (le_refl _) ?_
  by_cases zero : bestLevel path (i.definitionsFor document) = 0
  · omega
  · obtain ⟨d, _, attained⟩ := bestLevel_attained path zero
    exact attained ▸ agreement_le_length path d.path

theorem mem_best_of_query (holds : i.Represents live) {path : List String} {m : Match} :
    m ∈ bestPerDocument (i.query path) ↔
      candidate? path (i.definitionsFor m.document) = some m := by
  rw [mem_bestPerDocument, best_of_query holds]

theorem rank_query_congr {j : Index Definition} {live' : List Definition}
    (holds : i.Represents live) (holds' : j.Represents live')
    (same : ∀ document, i.definitionsFor document = j.definitionsFor document)
    (path : List String) :
    rank (bestPerDocument (i.query path)) = rank (bestPerDocument (j.query path)) := by
  refine mergeSort_ranksBefore_eq (nodup_documents_bestPerDocument _)
    (nodup_documents_bestPerDocument _) fun m => ?_
  rw [mem_best_of_query holds, mem_best_of_query holds', same]

theorem document_of_candidate (holds : i.Represents live) {path : List String}
    {document : String} {m : Match}
    (found : candidate? path (i.definitionsFor document) = some m) :
    m.document = document ∧ document ∈ i.documents := by
  rw [candidate?] at found
  split at found
  · cases found
  · obtain ⟨d, first, rfl⟩ := Option.map_eq_some_iff.mp found
    have member := List.mem_of_find?_eq_some first
    rw [holds.definitionsFor] at member
    obtain ⟨present, owned⟩ := List.mem_filter.mp member
    have document_eq : Index.documentOf d = document := eq_of_beq owned
    refine ⟨document_eq, ?_⟩
    rw [holds.documents, List.mem_eraseDups]
    exact List.mem_map.mpr ⟨d, present, document_eq⟩

theorem nodup_documents_candidates (holds : i.Represents live) (path : List String) :
    ((i.documents.filterMap fun document =>
      candidate? path (i.definitionsFor document)).map Match.document).Nodup := by
  have sublist : ((i.documents.filterMap fun document =>
      candidate? path (i.definitionsFor document)).map Match.document).Sublist i.documents := by
    rw [List.map_filterMap]
    induction i.documents with
    | nil => exact .slnil
    | cons document rest ih =>
      cases found : candidate? path (i.definitionsFor document) with
      | none => simpa [found] using ih.cons document
      | some m => simpa [found, (document_of_candidate holds found).1] using ih.cons_cons document
  exact List.Nodup.sublist sublist i.byDocument.keys_nodup

theorem rank_query (holds : i.Represents live) (path : List String) :
    rank (bestPerDocument (i.query path)) = candidates i path := by
  refine mergeSort_ranksBefore_eq (nodup_documents_bestPerDocument _)
    (nodup_documents_candidates holds path) fun m => ?_
  rw [mem_best_of_query holds, List.mem_filterMap]
  constructor
  · intro found
    exact ⟨m.document, (document_of_candidate holds found).2, found⟩
  · intro facts
    obtain ⟨document, _, found⟩ := facts
    rwa [(document_of_candidate holds found).1]

theorem apply_candidates (i : Index Definition) (path : List String) (filter : Filter) :
    filter.apply path.length (candidates i path) = bruteForce i path filter := by
  cases filter with
  | all => rfl
  | perfect => rfl
  | top =>
    refine List.filter_congr fun m member => ?_
    rw [Bool.eq_iff_iff, List.all_eq_true, decide_eq_true_iff, List.max?_eq_some_iff]
    constructor
    · intro highest
      refine ⟨List.mem_map_of_mem member, fun level present => ?_⟩
      obtain ⟨other, found, rfl⟩ := List.mem_map.mp present
      exact of_decide_eq_true (highest other found)
    · intro facts other found
      obtain ⟨_, highest⟩ := facts
      exact decide_eq_true (highest _ (List.mem_map_of_mem found))

/-- What an answer shows; a refused reference shows nothing. -/
def Answer.shown : Answer → List Match
  | refused => []
  | found _ shown => shown

namespace Policy

def filterFor (p : Policy) : Option String → Except UnknownFilter Filter
  | none => .ok p.defaultFilter
  | some text => Filter.parse text

/-- Matches are not restricted to a workspace root: no roots are known, isolation is off, or the
document that holds the reference is not given. -/
def IsOpen (p : Policy) (source : Option String) : Prop :=
  p.rootOf = none ∨ p.isolate = false ∨ source = none ∨ source = some ""

theorem restrict_of_isOpen {p : Policy} {source : Option String} (unrestricted : p.IsOpen source)
    (found : List Match) : p.restrict source found = found := by
  unfold restrict
  split
  · rename_i rootOf text known
    rcases unrestricted with rootless | off | unknown | empty
    · rw [rootless] at known
      cases known
    · simp [off]
    · cases unknown
    · cases empty
      simp
  · rfl

theorem resolve_congr (p : Policy) {lookup other : List String → List Match}
    (same : ∀ path, rank (bestPerDocument (lookup path)) = rank (bestPerDocument (other path)))
    (path : List String) (filter source : Option String) :
    p.resolve lookup path filter source = p.resolve other path filter source := by
  have selected : ∀ f, p.select lookup path f source = p.select other path f source := by
    intro f
    rw [select, select, same]
  simp only [resolve, selected]

theorem resolve_of_isLookup (p : Policy) (lookup : List String → List Match) {path : List String}
    (valid : isLookup path = true) {filter : Option String} {chosen : Filter}
    (known : p.filterFor filter = .ok chosen) (source : Option String) :
    p.resolve lookup path filter source =
      .ok (.found chosen (p.select lookup path chosen source)) := by
  unfold resolve
  rw [if_pos valid]
  cases filter with
  | none =>
    cases known
    rfl
  | some text =>
    have parsed : Filter.parse text = .ok chosen := known
    simp only [parsed]

end Policy

theorem bruteForce_nil (i : Index Definition) (filter : Filter) : bruteForce i [] filter = [] := by
  have empty : candidates i [] = [] := by
    have hopeless : ∀ document, candidate? [] (i.definitionsFor document) = none := by
      intro document
      have zero : bestLevel [] (i.definitionsFor document) = 0 := by
        by_contra positive
        obtain ⟨d, _, attained⟩ := bestLevel_attained [] positive
        have bound := agreement_le_length [] d.path
        rw [List.length_nil] at bound
        omega
      simp [candidate?, zero]
    simp [candidates, hopeless]
  cases filter <;> simp [bruteForce, empty]

/-- After every history of the index, resolution without isolation is the search through every
definition, and it is the same after two histories that leave every document with the same
definitions. -/
theorem resolve_eq_bruteForce (history : List (Index.Operation Definition)) (p : Policy)
    (path : List String) (named : ∀ component ∈ path, component ≠ "") (filter : Option String)
    (chosen : Filter) (known : p.filterFor filter = .ok chosen) (source : Option String)
    (unrestricted : p.IsOpen source) :
    (p.resolve (Index.after history).query path filter source).map Answer.shown =
        .ok (bruteForce (Index.after history) path chosen) ∧
      ∀ other : List (Index.Operation Definition),
        (∀ document, (Index.after history).definitionsFor document =
          (Index.after other).definitionsFor document) →
        p.resolve (Index.after history).query path filter source =
          p.resolve (Index.after other).query path filter source := by
  have holds := Index.represents_after history
  constructor
  · cases path with
    | nil =>
      rw [bruteForce_nil]
      rfl
    | cons component rest =>
      have valid : isLookup (component :: rest) = true := by
        simpa [isLookup] using named
      rw [Policy.resolve_of_isLookup p _ valid known, Policy.select,
        Policy.restrict_of_isOpen unrestricted, rank_query holds, apply_candidates]
      rfl
  · intro other same
    refine p.resolve_congr (fun path => ?_) path filter source
    exact rank_query_congr holds (Index.represents_after other) same path

def returning : List (Index.Operation Definition) :=
  let definition (document : String) (line : Int) (component : String) (rest : List String) :=
    Definition.mk (component :: rest) document ⟨line, 0, 2⟩ (List.cons_ne_nil _ _)
  [.addAll [definition "a" 0 "model" ["lr"], definition "b" 0 "optim" ["lr"]],
    .removeDocument "a",
    .addAll [definition "a" 0 "lr" [], definition "a" 1 "optim" ["lr"], definition "a" 2 "lr" []]]

theorem resolve_eq_bruteForce_returning :
    (∀ component ∈ ["optim", "lr"], component ≠ "") ∧
      Policy.filterFor ⟨true, .top, none⟩ (some "perfect") = .ok .perfect ∧
      Policy.IsOpen ⟨true, .top, none⟩ none ∧
      (Policy.resolve ⟨true, .top, none⟩ (Index.after returning).query ["optim", "lr"]
          (some "perfect") none).map Answer.shown =
        .ok (bruteForce (Index.after returning) ["optim", "lr"] .perfect) :=
  ⟨by decide, by decide, .inl rfl,
    (resolve_eq_bruteForce returning ⟨true, .top, none⟩ ["optim", "lr"] (by decide)
      (some "perfect") .perfect (by decide) none (.inl rfl)).1⟩

end KeyAtlas.Resolution

namespace KeyAtlas.Index

/-- No question tells the indexes apart. -/
structure Alike (i j : Index Definition) : Prop where
  definitions : ∀ document, i.definitionsFor document = j.definitionsFor document
  size : i.size = j.size
  suffixCount : i.suffixCount = j.suffixCount
  answers : ∀ (p : Resolution.Policy) path filter source,
    p.resolve i.query path filter source = p.resolve j.query path filter source

theorem Sound.alike {i j : Index Definition} (sound : i.Sound) (sound' : j.Sound)
    (same : ∀ document, i.definitionsFor document = j.definitionsFor document) : i.Alike j := by
  refine ⟨same, sound.size_congr sound' same, sound.suffixCount_congr sound' same, ?_⟩
  intro p
  obtain ⟨live, holds⟩ := sound
  obtain ⟨live', holds'⟩ := sound'
  exact p.resolve_congr (Resolution.rank_query_congr holds holds' same)

end KeyAtlas.Index
