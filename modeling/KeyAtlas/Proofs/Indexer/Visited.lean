import KeyAtlas.Proofs.Indexer.Contents
import Mathlib.Data.List.TakeWhile

namespace KeyAtlas

namespace Host

variable (h : Host) (disk : Disk)

def isReadable (p : Path) : Bool :=
  match h.read disk p with
  | .ok _ => true
  | .error _ => false

def goesOn (p : Path) : Bool :=
  match h.read disk p with
  | .ok _ => true
  | .error failure => failure.isContained

def visitState (p : Path) : DocumentState :=
  if h.isReadable disk p then .indexed else .unindexed

theorem defined_of_not_isReadable {p : Path} (failed : h.isReadable disk p = false) :
    h.defined disk p = [] := by
  rw [isReadable] at failed
  rw [defined, contribution]
  cases outcome : h.read disk p with
  | ok text => simp [outcome] at failed
  | error failure => rfl

theorem flatMap_defined_filter {ps : List Path} {keep : Path → Bool}
    (unread : ∀ p ∈ ps, keep p = false → h.isReadable disk p = false) :
    (ps.filter keep).flatMap (h.defined disk) = ps.flatMap (h.defined disk) := by
  induction ps with
  | nil => rfl
  | cons p rest ih =>
    obtain ⟨here, later⟩ := List.forall_mem_cons.mp unread
    rw [List.filter_cons, List.flatMap_cons, ← ih later]
    split
    · rfl
    · rename_i dropped
      rw [h.defined_of_not_isReadable disk (here (by simpa using dropped)), List.nil_append]

theorem goesOn_of_isReadable {p : Path} (readable : h.isReadable disk p = true) :
    h.goesOn disk p = true := by
  rw [isReadable] at readable
  rw [goesOn]
  cases outcome : h.read disk p with
  | ok text => rfl
  | error failure => simp [outcome] at readable

variable {disk}

theorem goesOn_iff {p : Path} : h.goesOn disk p = true ↔
    ∀ failure, h.read disk p = .error failure → failure.isContained = true := by
  rw [goesOn]
  cases h.read disk p with
  | ok text => simp
  | error failure => simp

theorem goesOn_of_isContained (contained : disk.IsContained) (p : Path) :
    h.goesOn disk p = true :=
  h.goesOn_iff.mpr fun _ => h.isContained_of_read_error disk contained

end Host

namespace Indexer

variable {i : Indexer} {disk : Disk}

theorem mem_scannedDocuments_iff {document : String} :
    document ∈ i.scannedDocuments ↔ i.states.get? document ≠ none := by
  rw [scannedDocuments, List.mem_mergeSort, Ne, OrderedMap.get?_eq_none_iff, not_not]

theorem load_states (i : Indexer) (disk : Disk) (document : String) (p : Path) :
    (i.load document (i.host.contribution disk p)).1.states =
      if i.host.goesOn disk p then i.states.insert document (i.host.visitState disk p)
      else i.states := by
  rw [Host.contribution, Host.goesOn, Host.visitState, Host.isReadable]
  cases i.host.read disk p with
  | ok text => rfl
  | error failure =>
    cases contained : failure.isContained <;> simp [Except.map, load, contained]

theorem load_goesOn (i : Indexer) (disk : Disk) (document : String) (p : Path) :
    (∃ loaded, (i.load document (i.host.contribution disk p)).2 = .ok loaded) ↔
      i.host.goesOn disk p = true := by
  rw [Host.contribution, Host.goesOn]
  cases i.host.read disk p with
  | ok text => simp [Except.map, load]
  | error failure =>
    cases contained : failure.isContained <;> simp [Except.map, load, contained]

theorem load_of_goesOn (i : Indexer) {p : Path} (goesOn : i.host.goesOn disk p = true) :
    ∃ index, i.load (i.host.documentId p) (i.host.contribution disk p) =
      ({ i with
          removed := i.removed.filter (· ≠ i.host.documentId p)
          index := index
          states := i.states.insert (i.host.documentId p) (i.host.visitState disk p) },
        .ok (i.host.isReadable disk p)) := by
  rw [Host.contribution, Host.visitState, Host.isReadable]
  cases outcome : i.host.read disk p with
  | ok text => exact ⟨_, rfl⟩
  | error failure =>
    have passed := i.host.goesOn_iff.mp goesOn failure outcome
    exact ⟨_, by simp only [Except.map, load, if_pos passed]; rfl⟩

/-- Documents listed once each are loaded up to the first failure that is not contained. -/
theorem loadAll_visits (i : Indexer) (disk : Disk) {ps : List Path}
    (once : (ps.map i.host.documentId).Nodup) :
    let visited := ps.takeWhile (i.host.goesOn disk)
    (i.loadAll disk ps).1.index = i.index.addAll (visited.flatMap (i.host.defined disk)) ∧
      (∀ document, (i.loadAll disk ps).1.states.get? document =
        ((visited.find? fun p => i.host.documentId p == document).map
          (i.host.visitState disk)).or (i.states.get? document)) ∧
      ((∃ failed, (i.loadAll disk ps).2 = .ok failed) → visited = ps) := by
  induction ps generalizing i with
  | nil => exact ⟨rfl, fun _ => rfl, fun _ => rfl⟩
  | cons p rest ih =>
    have frame := i.load_frame (i.host.documentId p) (i.host.contribution disk p)
    have index := i.load_index (i.host.documentId p) (i.host.contribution disk p)
    have states := i.load_states disk (i.host.documentId p) p
    have goesOn := i.load_goesOn disk (i.host.documentId p) p
    obtain ⟨fresh, later⟩ := List.nodup_cons.mp once
    simp only [loadAll]
    split
    · rename_i next failure loaded
      rw [loaded] at index states goesOn
      have stopped : i.host.goesOn disk p = false := by
        rw [← Bool.not_eq_true, ← goesOn]
        simp
      have unread : i.host.defined disk p = [] := by
        refine i.host.defined_of_not_isReadable disk ?_
        rw [← Bool.not_eq_true]
        intro readable
        rw [i.host.goesOn_of_isReadable disk readable] at stopped
        cases stopped
      rw [stopped, if_neg Bool.false_ne_true] at states
      refine ⟨?_, fun document => ?_, fun done => ?_⟩
      · rw [List.takeWhile_cons_of_neg (by simp [stopped])]
        exact index.trans (congrArg i.index.addAll unread)
      · rw [List.takeWhile_cons_of_neg (by simp [stopped]), states]
        rfl
      · obtain ⟨failed, impossible⟩ := done
        cases impossible
    · rename_i next failed loaded
      rw [loaded] at frame index states goesOn
      have passed : i.host.goesOn disk p = true := goesOn.mp ⟨failed, rfl⟩
      have host : next.host = i.host := frame.1
      obtain ⟨laterIndex, laterStates, laterAll⟩ := ih next (by rwa [host])
      rw [host] at laterIndex laterStates laterAll
      rw [passed, if_pos rfl] at states
      refine ⟨?_, fun document => ?_, fun done => ?_⟩
      · rw [List.takeWhile_cons_of_pos passed, List.flatMap_cons, Index.addAll_append, Host.defined,
          ← index]
        exact laterIndex
      · rw [List.takeWhile_cons_of_pos passed, laterStates, states, OrderedMap.get?_insert,
          List.find?_cons]
        by_cases here : i.host.documentId p = document
        · have unseen : (rest.takeWhile (i.host.goesOn disk)).find?
              (fun q => i.host.documentId q == document) = none := by
            refine List.find?_eq_none.mpr fun q member owned => fresh ?_
            rw [here, ← eq_of_beq owned]
            exact List.mem_map_of_mem ((List.takeWhile_subset _) member)
          simp [here, unseen]
        · have other : (i.host.documentId p == document) = false := by simpa using here
          simp [other, Ne.symm here]
      · rw [List.takeWhile_cons_of_pos passed, laterAll]
        obtain ⟨failed, ok⟩ := done
        cases outcome : (next.loadAll disk rest).2 with
        | error failure => simp [outcome, Except.map] at ok
        | ok failed => exact ⟨failed, rfl⟩

/-- The documents that a scan comes to and goes on after. -/
def visited (i : Indexer) (disk : Disk) : List Path :=
  match i.host.listingFailure? disk.tree with
  | some _ => []
  | none => (i.targets disk.tree).takeWhile (i.host.goesOn disk)

def visited? (i : Indexer) (disk : Disk) (document : String) : Option Path :=
  (i.visited disk).find? fun p => i.host.documentId p == document

theorem visited_sublist (i : Indexer) (disk : Disk) :
    (i.visited disk).Sublist (i.targets disk.tree) := by
  rw [visited]
  split
  · exact List.nil_sublist _
  · exact List.takeWhile_sublist _

theorem once_visited (i : Indexer) (disk : Disk) :
    ((i.visited disk).map i.host.documentId).Nodup :=
  (once_targets disk.tree).sublist ((i.visited_sublist disk).map _)

theorem visited?_eq_some_iff {document : String} {p : Path} :
    i.visited? disk document = some p ↔ p ∈ i.visited disk ∧ i.host.documentId p = document := by
  rw [visited?]
  constructor
  · intro found
    exact ⟨List.mem_of_find?_eq_some found, eq_of_beq (List.find?_some found :)⟩
  · rintro ⟨member, rfl⟩
    cases found : (i.visited disk).find? fun q => i.host.documentId q == i.host.documentId p with
    | none =>
      have differs := List.find?_eq_none.mp found p member
      simp at differs
    | some q =>
      have same : i.host.documentId q = i.host.documentId p := eq_of_beq (List.find?_some found :)
      rw [List.inj_on_of_nodup_map (i.once_visited disk) (List.mem_of_find?_eq_some found) member same]

theorem scan_visits (i : Indexer) (disk : Disk) :
    (i.scan disk).1.index = i.index.addAll ((i.visited disk).flatMap (i.host.defined disk)) ∧
      (∀ document, (i.scan disk).1.states.get? document =
        ((i.visited? disk document).map (i.host.visitState disk)).or (i.states.get? document)) ∧
      ((∃ stats, (i.scan disk).2 = .ok stats) → i.visited disk = i.targets disk.tree) := by
  obtain ⟨index, states, returned⟩ := i.loadAll_visits disk (once_targets disk.tree)
  cases listing : i.host.listingFailure? disk.tree with
  | some failure =>
    simp only [scan, visited?, visited, listing]
    exact ⟨rfl, fun _ => rfl, by rintro ⟨stats, ⟨⟩⟩⟩
  | none =>
    simp only [scan, visited?, visited, listing]
    cases loaded : i.loadAll disk (i.targets disk.tree) with
    | mk next outcome =>
      rw [loaded] at index states returned
      cases outcome with
      | error failure => exact ⟨index, states, by rintro ⟨stats, ⟨⟩⟩⟩
      | ok failed => exact ⟨index, states, fun _ => returned ⟨failed, rfl⟩⟩

theorem stateOf_scan {p : Path} (visited : p ∈ i.visited disk) :
    (i.scan disk).1.stateOf (i.host.documentId p) = i.host.visitState disk p := by
  have found : i.visited? disk (i.host.documentId p) = some p :=
    visited?_eq_some_iff.mpr ⟨visited, rfl⟩
  rw [stateOf, (i.scan_visits disk).2.1, found]
  rfl

theorem mem_scannedDocuments_iff_visited (fresh : i.states = .empty) {document : String} :
    document ∈ (i.scan disk).1.scannedDocuments ↔
      ∃ p ∈ i.visited disk, i.host.documentId p = document := by
  have unseen : (OrderedMap.empty : OrderedMap String DocumentState).get? document = none := rfl
  rw [mem_scannedDocuments_iff, (i.scan_visits disk).2.1, fresh, unseen, Option.or_none, Ne,
    Option.map_eq_none_iff, ← Ne, Option.ne_none_iff_exists']
  simp only [visited?_eq_some_iff]

theorem definitionsFor_scan (sound : i.index.Sound) (disk : Disk) (document : String) :
    (i.scan disk).1.index.definitionsFor document = i.index.definitionsFor document ++
      ((i.visited? disk document).map (i.host.defined disk)).getD [] := by
  rw [(i.scan_visits disk).1, sound.definitionsFor_addAll,
    i.host.filter_flatMap_defined disk (i.once_visited disk), visited?]

theorem scan_sound (sound : i.index.Sound) (disk : Disk) : (i.scan disk).1.index.Sound :=
  (i.scan_visits disk).1 ▸ sound.addAll _

theorem visited_of_goesOn (goesOn : ∀ p ∈ i.targets disk.tree, i.host.goesOn disk p = true)
    (listable : i.host.listingFailure? disk.tree = none) :
    i.visited disk = i.targets disk.tree := by
  rw [visited, listable]
  exact List.takeWhile_eq_self_iff.mpr goesOn

theorem visited_of_isContained (contained : disk.IsContained)
    (listable : i.host.listingFailure? disk.tree = none) :
    i.visited disk = i.targets disk.tree :=
  visited_of_goesOn (fun p _ => i.host.goesOn_of_isContained contained p) listable

theorem visited?_of_isContained (contained : disk.IsContained) (document : String) :
    i.visited? disk document = i.listed? disk.tree document := by
  cases listing : i.host.listingFailure? disk.tree with
  | some failure => simp only [visited?, visited, listed?, listing, List.find?_nil]
  | none => simp only [visited?, visited_of_isContained contained listing, listed?, listing]

theorem scan_contained (contained : disk.IsContained) (sound : i.index.Sound) :
    (i.scan disk).1.index.Sound ∧ ∀ document, (i.scan disk).1.index.definitionsFor document =
      i.index.definitionsFor document ++ i.scanFinds disk document := by
  refine ⟨scan_sound sound disk, fun document => ?_⟩
  rw [definitionsFor_scan sound, visited?_of_isContained contained, scanFinds]

end Indexer

end KeyAtlas
