import KeyAtlas.Proofs.Indexer.Chronicle

namespace KeyAtlas

namespace Host

def scanning (h : Host) (disk : Disk) (p : Path) : String × Handling :=
  (h.documentId p, .scanned (h.isReadable disk p))

def updating (h : Host) (disk : Disk) (e : Update.Event) : String × Handling :=
  (h.documentId e.path,
    match e.kind with
    | .created => .created (h.isReadable disk e.path)
    | .changed => .changed (h.isReadable disk e.path)
    | .deleted => .deleted)

end Host

namespace Indexer

/-- The indexer tracks the documents that a chronicle says, in these states, and remembers the newest
of those that were deleted. -/
structure Charted (limit : Nat) (i : Indexer) (chronicle : Chronicle) : Prop where
  limited : i.historyLimit = limit
  tracked : ∀ document, i.states.get? document = chronicle.standing document
  remembers : Chronicle.Remembers limit i.removed chronicle

variable {limit : Nat} {i : Indexer} {chronicle : Chronicle} {disk : Disk}

theorem Charted.setScanned (charted : i.Charted limit chronicle) (scanned : Bool) :
    Charted limit { i with scanned := scanned } chronicle :=
  ⟨charted.limited, charted.tracked, charted.remembers⟩

/-! ### Readings -/

theorem leaves_visited (h : Host) (disk : Disk) (p : Path) (before : Option DocumentState) :
    (Handling.scanned (h.isReadable disk p)).leaves before = some (h.visitState disk p) ∧
      (Handling.created (h.isReadable disk p)).leaves before = some (h.visitState disk p) := by
  rw [Host.visitState]
  cases h.isReadable disk p <;> exact ⟨rfl, rfl⟩

theorem Charted.read (charted : i.Charted limit chronicle) {document : String} {how : Handling}
    {state : DocumentState} (leaves : how.leaves (i.states.get? document) = some state)
    {states : OrderedMap String DocumentState}
    (tracked : ∀ other, states.get? other =
      if other == document then some state else i.states.get? other)
    (index : Index Definition) :
    Charted limit
      { i with removed := i.removed.filter (· ≠ document), index := index, states := states }
      ((document, how) :: chronicle) where
  limited := charted.limited
  tracked other := by
    rw [tracked, Chronicle.standing]
    by_cases same : other = document
    · rw [if_pos (by simp [same]), if_pos same.symm, same, ← charted.tracked, leaves]
    · rw [if_neg (by simp [same]), if_neg (Ne.symm same), charted.tracked]
  remembers := by
    refine charted.remembers.read document ?_
    rintro rfl
    cases leaves

theorem Charted.loadAll (charted : i.Charted limit chronicle) (contained : disk.IsContained)
    (ps : List Path) :
    (i.loadAll disk ps).1.Charted limit ((ps.map (i.host.scanning disk)).reverse ++ chronicle) := by
  induction ps generalizing i chronicle with
  | nil => exact charted
  | cons p rest ih =>
    obtain ⟨index, loaded⟩ := i.load_of_goesOn (i.host.goesOn_of_isContained contained p)
    rw [Indexer.loadAll, loaded, List.map_cons, List.reverse_cons, List.append_assoc]
    exact ih (charted.read (leaves_visited i.host disk p _).1
      (fun other => OrderedMap.get?_insert ..) index)

theorem Charted.scan (charted : i.Charted limit chronicle) (contained : disk.IsContained) :
    (i.scan disk).1.Charted limit
      (((i.visited disk).map (i.host.scanning disk)).reverse ++ chronicle) := by
  cases listing : i.host.listingFailure? disk.tree with
  | some failure =>
    rw [Indexer.scan, visited, listing]
    exact charted
  | none =>
    have loads := charted.loadAll contained (i.targets disk.tree)
    rw [visited_of_isContained contained listing, Indexer.scan, listing]
    dsimp only
    split
    · rename_i outcome
      rw [outcome] at loads
      exact loads
    · rename_i outcome
      rw [outcome] at loads
      exact loads.setScanned true

/-! ### Updates -/

theorem reload_of_isContained (contained : disk.IsContained) (i : Indexer) (p : Path)
    (created : Bool) :
    let document := i.host.documentId p
    ∃ index, let loaded : Indexer := { i with
        removed := i.removed.filter (· ≠ document)
        index := index
        states := i.states.insert document (i.host.visitState disk p) }
      (i.reload disk p created).1 =
        if i.host.isReadable disk p && !created then
          loaded.markReindexed document (i.states.get? document)
        else loaded := by
  let cleared := { i with index := i.index.removeDocument (i.host.documentId p) }
  obtain ⟨index, loaded⟩ := cleared.load_of_goesOn (i.host.goesOn_of_isContained contained p)
  refine ⟨index, ?_⟩
  rw [reload]
  dsimp only [cleared] at loaded ⊢
  rw [loaded]

theorem Charted.create (charted : i.Charted limit chronicle) (contained : disk.IsContained)
    (p : Path) :
    (i.reload disk p true).1.Charted limit
      ((i.host.documentId p, .created (i.host.isReadable disk p)) :: chronicle) := by
  obtain ⟨index, reloaded⟩ := reload_of_isContained contained i p true
  rw [reloaded, Bool.not_true, Bool.and_false, if_neg Bool.false_ne_true]
  exact charted.read (leaves_visited i.host disk p _).2 (fun other => OrderedMap.get?_insert ..)
    index

theorem any_isIndexed_iff {previous : Option DocumentState} :
    previous.any DocumentState.isIndexed = true ↔
      previous = some .indexed ∨ previous = some .reindexed := by
  cases previous with
  | none => simp
  | some state => cases state <;> simp [DocumentState.isIndexed]

theorem Charted.change (charted : i.Charted limit chronicle) (contained : disk.IsContained)
    (p : Path) :
    (i.reload disk p false).1.Charted limit
      ((i.host.documentId p, .changed (i.host.isReadable disk p)) :: chronicle) := by
  obtain ⟨index, reloaded⟩ := reload_of_isContained contained i p false
  rw [reloaded, Bool.not_false, Bool.and_true, Host.visitState]
  cases i.host.isReadable disk p with
  | false => exact charted.read rfl (fun other => OrderedMap.get?_insert ..) index
  | true =>
    rw [if_pos rfl, markReindexed]
    split
    · rename_i before
      have leaves : (Handling.changed true).leaves (i.states.get? (i.host.documentId p)) =
          some .reindexed := congrArg some (if_pos (any_isIndexed_iff.mpr before))
      refine charted.read leaves (fun other => ?_) index
      rw [OrderedMap.get?_insert, OrderedMap.get?_insert]
      split <;> rfl
    · rename_i before
      have leaves : (Handling.changed true).leaves (i.states.get? (i.host.documentId p)) =
          some .indexed := congrArg some (if_neg (mt any_isIndexed_iff.mp before))
      exact charted.read leaves (fun other => OrderedMap.get?_insert ..) index

theorem Charted.forget (charted : i.Charted limit chronicle) (p : Path) :
    (i.forget p).1.Charted limit ((i.host.documentId p, .deleted) :: chronicle) where
  limited := charted.limited
  tracked other := by
    rw [Indexer.forget, OrderedMap.get?_erase, Chronicle.standing]
    by_cases same : other = i.host.documentId p
    · rw [if_pos (by simp [same]), if_pos same.symm, Handling.leaves]
    · rw [if_neg (by simp [same]), if_neg (Ne.symm same), charted.tracked]
  remembers := by
    rw [Indexer.forget]
    dsimp only
    split
    · rename_i tracked
      rw [charted.limited, Int.toNat_natCast]
      rw [OrderedMap.contains, charted.tracked] at tracked
      exact charted.remembers.remember tracked
    · rename_i untracked
      rw [OrderedMap.contains, charted.tracked, Option.isSome_iff_ne_none, not_not] at untracked
      exact charted.remembers.deletedAgain untracked

theorem Charted.apply (charted : i.Charted limit chronicle) (contained : disk.IsContained)
    {e : Update.Event} (kept : i.isExcluded e.path = false) :
    (i.apply disk e).1.Charted limit (i.host.updating disk e :: chronicle) := by
  rw [Indexer.apply, kept, Host.updating]
  cases e.kind with
  | created => exact charted.create contained e.path
  | changed => exact charted.change contained e.path
  | deleted => exact charted.forget e.path

theorem Charted.reset (charted : i.Charted limit chronicle) : i.reset.Charted limit [] :=
  ⟨charted.limited, fun _ => rfl, Chronicle.remembers_nil limit⟩

/-! ### What is told of a document -/

theorem Charted.standing_eq (charted : i.Charted limit chronicle) {document : String}
    (tracked : document ∈ i.scannedDocuments) :
    chronicle.standing document = some (i.stateOf document) := by
  obtain ⟨state, found⟩ := Option.ne_none_iff_exists'.mp (mem_scannedDocuments_iff.mp tracked)
  rw [← charted.tracked, stateOf, found]

theorem Charted.untracked (charted : i.Charted limit chronicle) {document : String}
    (member : document ∈ i.removed) : i.states.get? document = none := by
  obtain ⟨since, before, split, departs⟩ := charted.remembers.departed document member
  rw [charted.tracked, split]
  exact Chronicle.standing_of_departs departs

theorem Charted.stateOf_eq_removed_iff (charted : i.Charted limit chronicle) {document : String} :
    i.stateOf document = .removed ↔ document ∈ i.removed := by
  rw [stateOf]
  cases found : i.states.get? document with
  | none => by_cases member : document ∈ i.removed <;> simp [member]
  | some state =>
    have present : document ∉ i.removed := fun member => by simp [charted.untracked member] at found
    have shown : state ≠ .removed := by
      rintro rfl
      rw [charted.tracked] at found
      exact Chronicle.standing_ne_removed found
    simp [present, shown]

end Indexer

namespace World

variable {w : World} {limit : Nat} {chronicle : Chronicle}

def handlings (w : World) : Action → List (String × Handling)
  | .scan | .refresh => (w.indexer.visited w.disk).map (w.indexer.host.scanning w.disk)
  | .update kind path =>
    if w.indexer.isExcluded (.ofString path) then []
    else [w.indexer.host.updating w.disk ⟨kind, .ofString path⟩]
  | .dispose | .edit _ => []

def onRecord (chronicle : Chronicle) : Action → Chronicle
  | .refresh | .dispose => []
  | .scan | .update _ _ | .edit _ => chronicle

def recorded (w : World) (chronicle : Chronicle) : List Action → Chronicle
  | [] => chronicle
  | action :: rest =>
    (w.perform action).recorded ((w.handlings action).reverse ++ onRecord chronicle action) rest

theorem charted_perform (charted : w.indexer.Charted limit chronicle)
    (contained : w.disk.IsContained) (action : Action) :
    (w.perform action).indexer.Charted limit
      ((w.handlings action).reverse ++ onRecord chronicle action) := by
  cases action with
  | scan => exact charted.scan contained
  | refresh => exact charted.reset.scan contained
  | dispose => exact charted.reset.setScanned false
  | edit disk => exact charted
  | update kind path =>
    rw [handlings]
    split
    · rename_i excluded
      rw [perform, Indexer.apply, if_pos excluded]
      exact charted
    · rename_i kept
      exact charted.apply contained (by simpa using kept)

theorem isContained_perform (contained : w.disk.IsContained) {action : Action}
    (edits : ∀ disk, action = .edit disk → disk.IsContained) :
    (w.perform action).disk.IsContained := by
  cases action with
  | edit disk => exact edits disk rfl
  | scan => exact contained
  | refresh => exact contained
  | dispose => exact contained
  | update kind path => exact contained

theorem charted_after (charted : w.indexer.Charted limit chronicle)
    (contained : w.disk.IsContained) {actions : List Action}
    (edits : ∀ disk, .edit disk ∈ actions → disk.IsContained) :
    (w.after actions).indexer.Charted limit (w.recorded chronicle actions) := by
  induction actions generalizing w chronicle with
  | nil => exact charted
  | cons action rest ih =>
    refine ih (charted_perform charted contained action) ?_ fun disk member =>
      edits disk (List.mem_cons_of_mem action member)
    exact isContained_perform contained fun disk same => edits disk (same ▸ List.mem_cons_self)

/-- The state of each document after any operations on changing files follows from what was last done
to it. A document is tracked unless it was deleted last, no tracked document is remembered as deleted,
and at most so many deleted ones are remembered. A document is reported as removed only when it was
deleted while it was tracked and has not been read since, and always as long as fewer other tracked
documents than there is room for have been deleted since. -/
theorem stateOf_after (h : Host) (excludePatterns : List String) (limit : Nat)
    (history : List (Index.Operation Definition)) {disk : Disk} (contained : disk.IsContained)
    {actions : List Action} (edits : ∀ later, .edit later ∈ actions → later.IsContained) :
    let start := given h excludePatterns limit history disk
    let i := (start.after actions).indexer
    let chronicle := start.recorded [] actions
    (∀ document ∈ i.scannedDocuments, document ∉ i.removed) ∧ i.removed.length ≤ limit ∧
    (∀ document, document ∈ i.scannedDocuments ↔
      ∃ how, chronicle.lookup document = some how ∧ how ≠ .deleted) ∧
    (∀ document ∈ i.scannedDocuments, chronicle.standing document = some (i.stateOf document)) ∧
    (∀ document, i.stateOf document = .removed → ∃ since before,
      chronicle = since ++ (document, .deleted) :: before ∧
        Chronicle.Departs document since before) ∧
    ∀ document since before, chronicle = since ++ (document, .deleted) :: before →
      Chronicle.Departs document since before →
      (Chronicle.othersSince document since before).length < limit →
      i.stateOf document = .removed := by
  intro start i chronicle
  have begun : start.indexer.Charted limit [] :=
    ⟨rfl, fun _ => rfl, Chronicle.remembers_nil limit⟩
  have charted : i.Charted limit chronicle := charted_after begun contained edits
  refine ⟨fun document tracked member => ?_, charted.remembers.bounded, fun document => ?_,
    fun document tracked => charted.standing_eq tracked, fun document removed => ?_,
    fun document since before split departs few => ?_⟩
  · exact Indexer.mem_scannedDocuments_iff.mp tracked (charted.untracked member)
  · rw [Indexer.mem_scannedDocuments_iff, charted.tracked, ← Option.isSome_iff_ne_none,
      Chronicle.isSome_standing_iff]
  · exact charted.remembers.departed document (charted.stateOf_eq_removed_iff.mp removed)
  · obtain ⟨older, newer, kept, _⟩ := charted.remembers.lasting document since before split departs few
    rw [charted.stateOf_eq_removed_iff, kept]
    exact List.mem_append_right older List.mem_cons_self

def threefold : Disk :=
  .ofTree ⟨.directory [("w", .directory [("a.yaml", .file "lr: 1".toUTF8.toList),
    ("b.yaml", .file "x: 1".toUTF8.toList), ("c.yaml", .file [0xff])])]⟩

def churning : List Action :=
  [.scan, .update .changed "/w/a.yaml", .edit threefold, .update .created "/w/b.yaml",
    .update .created "/w/c.yaml", .edit (workspace "lr: 1"), .update .deleted "/w/b.yaml",
    .update .deleted "/w/c.yaml", .update .deleted "/w/b.yaml"]

theorem stateOf_after_churning :
    let start := given (.make (.ofString "/") (["/w"].map .ofString) ["*.yaml"] []) [] (1 : Nat) []
      (workspace "lr: 1")
    let i := (start.after churning).indexer
    (workspace "lr: 1").IsContained ∧ (∀ later, .edit later ∈ churning → later.IsContained) ∧
      i.scannedDocuments = ["/w/a.yaml"] ∧ i.stateOf "/w/a.yaml" = .reindexed ∧
      i.stateOf "/w/b.yaml" = .unindexed ∧ i.stateOf "/w/c.yaml" = .removed := by
  intro start i
  have contained : (workspace "lr: 1").IsContained := Disk.isContained_ofTree _
  have edits : ∀ later, .edit later ∈ churning → later.IsContained := by
    intro later member
    simp only [churning, List.mem_cons, reduceCtorEq, Action.edit.injEq, List.not_mem_nil, or_false,
      false_or] at member
    rcases member with rfl | rfl
    · exact Disk.isContained_ofTree _
    · exact contained
  obtain ⟨_, _, tracked, states, _, lasting⟩ := stateOf_after
    (.make (.ofString "/") (["/w"].map .ofString) ["*.yaml"] []) [] 1 [] contained edits
  have chronicle : start.recorded [] churning =
      [("/w/b.yaml", .deleted), ("/w/c.yaml", .deleted), ("/w/b.yaml", .deleted),
        ("/w/c.yaml", .created false), ("/w/b.yaml", .created true), ("/w/a.yaml", .changed true),
        ("/w/a.yaml", .scanned true)] := by
    decide +kernel
  have last : (start.recorded [] churning).lookup "/w/a.yaml" = some (.changed true) := by
    rw [chronicle]
    decide
  have reindexed : (start.recorded [] churning).standing "/w/a.yaml" =
      some (i.stateOf "/w/a.yaml") := states _ ((tracked _).mpr ⟨_, last, by decide⟩)
  rw [chronicle] at reindexed
  refine ⟨contained, edits, by decide +kernel, (Option.some.inj reindexed).symm,
    by decide +kernel, ?_⟩
  exact lasting "/w/c.yaml" [("/w/b.yaml", .deleted)] _ chronicle
    ⟨by decide, fun how other => by simp at other⟩ (by decide)

end World

end KeyAtlas
