import KeyAtlas.Proofs.Indexer.Visited
import KeyAtlas.Proofs.Update.Coalescing
import Mathlib.Data.List.Induction

namespace KeyAtlas

def DocumentState.isIndexed : DocumentState → Bool
  | indexed | reindexed => true
  | unindexed | removed => false

namespace Touch

def text? : Touch → Option (List Char)
  | .read (.ok text) => some text
  | .read (.error _) | .deleted | .untouched => none

def breaksOff : Touch → Bool
  | .read (.error failure) => !failure.isContained
  | .read (.ok _) | .deleted | .untouched => false

/-- Whether a document is told to be in the index after what has become of it, given whether it was
before. -/
def tells (t : Touch) (before : Bool) : Bool :=
  if t.breaksOff then before else t.text?.isSome

/-- The last one that came to its end. -/
def settled? (touches : List Touch) : Option Touch :=
  touches.reverse.find? fun t => !t.breaksOff

def lastText? (touches : List Touch) : Option (List Char) :=
  touches.reverse.findSome? text?

def isInterrupted (touches : List Touch) : Bool :=
  touches.getLast?.any breaksOff

theorem settled?_append (first later : List Touch) :
    settled? (first ++ later) = (settled? later).or (settled? first) := by
  rw [settled?, List.reverse_append, List.find?_append, settled?, settled?]

theorem definitions_getLast? (h : Host) (document : String) (touches : List Touch) :
    (touches.getLast?.map (definitions h document)).getD [] =
      if isInterrupted touches then []
      else if (settled? touches).any fun t => t.text?.isSome then
        ((lastText? touches).map
          (Document.definitions document (h.place (.ofString document)))).getD []
      else [] := by
  rcases touches.eq_nil_or_concat with rfl | ⟨first, last, rfl⟩
  · rfl
  · simp only [isInterrupted, settled?, lastText?, List.concat_eq_append, List.getLast?_concat,
      List.reverse_append, List.reverse_singleton, List.singleton_append, List.find?_cons,
      List.findSome?_cons, Option.any_some, Option.map_some, Option.getD_some]
    cases last with
    | untouched => rfl
    | deleted => rfl
    | read outcome =>
      cases outcome with
      | ok text => rfl
      | error failure =>
        cases contained : failure.isContained <;> simp [breaksOff, text?, definitions, contained]

end Touch

namespace Indexer

/-- A call about a document, with what the disk is like when it reads. -/
structure Notice where
  disk : Disk
  kind : Update.Kind
  path : String

def reports (i : Indexer) (document : String) : Bool :=
  (i.stateOf document).isIndexed

/-- What a notice does to a document, if it is about this one and no glob excludes it. -/
def told? (i : Indexer) (document : String) (n : Notice) : Option Touch :=
  let p := Path.ofString n.path
  if i.isExcluded p = false ∧ i.host.documentId p = document then
    some (World.updating ⟨i, n.disk⟩ p n.kind)
  else none

/-- The indexer after these notices. One that fails does not keep the next from coming. -/
def notified (i : Indexer) (notices : List Notice) : Indexer :=
  notices.foldl (fun i n => (i.apply n.disk ⟨n.kind, .ofString n.path⟩).1) i

variable {i : Indexer} {document : String}

theorem reports_eq (i : Indexer) (document : String) :
    i.reports document = (i.states.get? document).any DocumentState.isIndexed := by
  rw [reports, stateOf]
  cases i.states.get? document with
  | some state => rfl
  | none =>
    dsimp only
    split <;> rfl

/-! ### One notice -/

theorem tells_reading (i : Indexer) (disk : Disk) (p : Path) (before : Bool) :
    (World.reading ⟨i, disk⟩ p).tells before =
      if i.host.goesOn disk p then i.host.isReadable disk p else before := by
  rw [World.reading, Host.goesOn, Host.isReadable]
  cases i.host.read disk p with
  | ok text => rfl
  | error failure =>
    cases contained : failure.isContained <;>
      simp [Touch.tells, Touch.breaksOff, Touch.text?, contained]

theorem reports_load (i : Indexer) (disk : Disk) (document other : String) (p : Path) :
    (i.load document (i.host.contribution disk p)).1.reports other =
      if document = other then (World.reading ⟨i, disk⟩ p).tells (i.reports other)
      else i.reports other := by
  rw [reports_eq, load_states, tells_reading, reports_eq]
  by_cases here : document = other
  · cases i.host.goesOn disk p with
    | false => simp
    | true =>
      cases readable : i.host.isReadable disk p <;>
        simp [here, Host.visitState, readable, DocumentState.isIndexed]
  · cases i.host.goesOn disk p with
    | false => simp
    | true => simp [OrderedMap.get?_insert, here, Ne.symm here]

theorem reports_of_load {outcome : Except ReadFailure (List Definition)} {next : Indexer}
    (loaded : i.load document outcome = (next, .ok true)) : next.reports document = true := by
  cases outcome with
  | ok definitions =>
    cases loaded
    simp [reports_eq, DocumentState.isIndexed]
  | error failure =>
    rw [load] at loaded
    split at loaded <;> cases loaded

theorem reports_markReindexed (told : i.reports document = true) (previous : Option DocumentState)
    (other : String) : (i.markReindexed document previous).reports other = i.reports other := by
  rw [markReindexed]
  split
  · rw [reports_eq, OrderedMap.get?_insert]
    split
    · rename_i here
      rw [eq_of_beq here, told]
      rfl
    · rw [reports_eq]
  · rfl

theorem reports_reload (i : Indexer) (disk : Disk) (p : Path) (created : Bool)
    (document : String) :
    (i.reload disk p created).1.reports document =
      if i.host.documentId p = document then
        (World.reading ⟨i, disk⟩ p).tells (i.reports document)
      else i.reports document := by
  -- What the indexer reports does not depend on its index.
  let cleared := { i with index := i.index.removeDocument (i.host.documentId p) }
  have loads := cleared.reports_load disk (i.host.documentId p) document p
  simp only [reload]
  split
  · rename_i loaded
    rw [loaded] at loads
    exact loads
  · rename_i next result loaded
    rw [loaded] at loads
    split
    · rename_i marked
      cases result with
      | false => simp at marked
      | true =>
        -- A document that is marked was noted as indexed just before.
        rw [reports_markReindexed (reports_of_load loaded)]
        exact loads
    · exact loads

theorem reports_forget (i : Indexer) (p : Path) (document : String) :
    (i.forget p).1.reports document =
      if i.host.documentId p = document then false else i.reports document := by
  rw [reports_eq, forget, reports_eq]
  dsimp only
  rw [OrderedMap.get?_erase]
  by_cases here : i.host.documentId p = document
  · simp [here]
  · simp [here, Ne.symm here]

theorem reports_apply (i : Indexer) (n : Notice) (document : String) :
    (i.apply n.disk ⟨n.kind, .ofString n.path⟩).1.reports document =
      ((i.told? document n).map fun t => t.tells (i.reports document)).getD
        (i.reports document) := by
  simp only [apply, told?]
  cases excluded : i.isExcluded (.ofString n.path) with
  | true => simp
  | false =>
    simp only [Bool.false_eq_true, if_false, true_and, World.updating]
    cases n.kind with
    | deleted => rw [reports_forget]; split <;> rfl
    | created => rw [reports_reload]; split <;> rfl
    | changed => rw [reports_reload]; split <;> rfl

theorem definitionsFor_apply (sound : i.index.Sound) (lexical : i.host.IsLexical) (n : Notice)
    (document : String) :
    (i.apply n.disk ⟨n.kind, .ofString n.path⟩).1.index.definitionsFor document =
      ((i.told? document n).map (Touch.definitions i.host document)).getD
        (i.index.definitionsFor document) := by
  rw [(apply_sound n.disk sound _).2, told?]
  split
  · rename_i named
    have plain := lexical.absolute_isPlain n.path
    have updates := World.definitions_updating ⟨i, n.disk⟩ plain n.kind
    rw [named.2] at updates
    exact updates.symm
  · rfl

/-! ### Any number of notices -/

theorem notified_concat (i : Indexer) (first : List Notice) (last : Notice) :
    i.notified (first ++ [last]) =
      ((i.notified first).apply last.disk ⟨last.kind, .ofString last.path⟩).1 := by
  rw [notified, List.foldl_concat, notified]

theorem told?_congr {j : Indexer} (frame : j.host = i.host ∧ j.excludePatterns = i.excludePatterns) :
    j.told? = i.told? := by
  funext document n
  have updating : World.updating ⟨j, n.disk⟩ = World.updating ⟨i, n.disk⟩ := by
    funext p kind
    cases kind <;> simp only [World.updating, World.reading, frame.1]
  simp only [told?, isExcluded_of_frame frame, frame.1, updating]

theorem notified_frame (i : Indexer) (notices : List Notice) :
    (i.notified notices).host = i.host ∧
      (i.notified notices).excludePatterns = i.excludePatterns := by
  induction notices using List.reverseRecOn with
  | nil => exact ⟨rfl, rfl⟩
  | append_singleton first last ih =>
    have frame := (i.notified first).apply_frame last.disk ⟨last.kind, .ofString last.path⟩
    rw [notified_concat]
    exact ⟨frame.1.trans ih.1, frame.2.trans ih.2⟩

theorem notified_sound (sound : i.index.Sound) (notices : List Notice) :
    (i.notified notices).index.Sound := by
  induction notices using List.reverseRecOn with
  | nil => exact sound
  | append_singleton first last ih =>
    rw [notified_concat]
    exact (apply_sound last.disk ih _).1

theorem reports_notified (i : Indexer) (notices : List Notice) (document : String) :
    (i.notified notices).reports document =
      ((Touch.settled? (notices.filterMap (i.told? document))).map fun t => t.text?.isSome).getD
        (i.reports document) := by
  induction notices using List.reverseRecOn with
  | nil => rfl
  | append_singleton first last ih =>
    rw [notified_concat, reports_apply, told?_congr (i.notified_frame first), ih,
      List.filterMap_append, Touch.settled?_append]
    cases told : i.told? document last with
    | none => simp [told, Touch.settled?]
    | some t => cases off : t.breaksOff <;> simp [told, Touch.settled?, Touch.tells, off]

theorem definitionsFor_notices (sound : i.index.Sound) (lexical : i.host.IsLexical)
    (notices : List Notice) (document : String) :
    (i.notified notices).index.definitionsFor document =
      ((notices.filterMap (i.told? document)).getLast?.map (Touch.definitions i.host document)).getD
        (i.index.definitionsFor document) := by
  induction notices using List.reverseRecOn with
  | nil => rfl
  | append_singleton first last ih =>
    have frame := i.notified_frame first
    rw [notified_concat, definitionsFor_apply (notified_sound sound first) (frame.1 ▸ lexical),
      told?_congr frame, frame.1, ih, List.filterMap_append]
    cases told : i.told? document last with
    | none => simp [told]
    | some t => simp [told]

/-! ### After a first scan -/

def scanned? (i : Indexer) (disk : Disk) (document : String) : Option Touch :=
  (i.visited? disk document).map (World.reading ⟨i, disk⟩)

theorem breaksOff_of_scanned? {disk : Disk} {t : Touch}
    (scanned : i.scanned? disk document = some t) : t.breaksOff = false := by
  obtain ⟨p, found, rfl⟩ := Option.map_eq_some_iff.mp scanned
  have member := (visited?_eq_some_iff.mp found).1
  have goesOn : i.host.goesOn disk p = true := by
    rw [visited] at member
    split at member
    · cases member
    · exact List.mem_takeWhile_imp member
  rw [Host.goesOn] at goesOn
  rw [World.reading]
  cases outcome : i.host.read disk p with
  | ok text => rfl
  | error failure => simpa [Touch.breaksOff, outcome] using goesOn

/-- What has become of a document by a first scan and the notices after it. -/
def touches (i : Indexer) (disk : Disk) (notices : List Notice) (document : String) : List Touch :=
  (i.scanned? disk document).toList ++ notices.filterMap (i.told? document)

/-- What the index was given of a document, as long as no notice has replaced it. -/
def kept (i : Indexer) (notices : List Notice) (document : String) : List Definition :=
  if notices.filterMap (i.told? document) = [] then i.index.definitionsFor document else []

theorem reports_scan (fresh : i.states = .empty) (disk : Disk) (document : String) :
    (i.scan disk).1.reports document =
      (i.scanned? disk document).any fun t => t.text?.isSome := by
  rw [reports_eq, (i.scan_visits disk).2.1, fresh, scanned?]
  cases i.visited? disk document with
  | none => rfl
  | some p =>
    cases outcome : i.host.read disk p <;>
      simp [Host.visitState, Host.isReadable, World.reading, outcome, Touch.text?,
        DocumentState.isIndexed]

theorem definitionsFor_scanned (sound : i.index.Sound) (lexical : i.host.IsLexical) {disk : Disk}
    (proper : disk.tree.isProper = true) (document : String) :
    (i.scan disk).1.index.definitionsFor document = i.index.definitionsFor document ++
      ((i.scanned? disk document).map (Touch.definitions i.host document)).getD [] := by
  rw [definitionsFor_scan sound, scanned?]
  cases found : i.visited? disk document with
  | none => rfl
  | some p =>
    obtain ⟨member, rfl⟩ := visited?_eq_some_iff.mp found
    have listed := List.mem_of_mem_filter ((i.visited_sublist disk).subset member)
    have plain := Host.isPlain_of_mem_documents lexical proper listed
    have read := World.definitions_reading ⟨i, disk⟩ (p := p) (by rwa [plain.absolute_eq])
    exact congrArg (i.index.definitionsFor (i.host.documentId p) ++ ·) read.symm

theorem settled?_touches (i : Indexer) (disk : Disk) (notices : List Notice) (document : String) :
    Touch.settled? (i.touches disk notices document) =
      (Touch.settled? (notices.filterMap (i.told? document))).or (i.scanned? disk document) := by
  have first : Touch.settled? (i.scanned? disk document).toList = i.scanned? disk document := by
    cases scanned : i.scanned? disk document with
    | none => rfl
    | some t => simp [Touch.settled?, breaksOff_of_scanned? scanned]
  rw [touches, Touch.settled?_append, first]

theorem kept_of_isInterrupted {disk : Disk} {notices : List Notice}
    (interrupted : Touch.isInterrupted (i.touches disk notices document) = true) :
    i.kept notices document = [] := by
  rw [kept, if_neg]
  intro untouched
  rw [touches, untouched, List.append_nil] at interrupted
  cases scanned : i.scanned? disk document with
  | none => simp [scanned, Touch.isInterrupted] at interrupted
  | some t => simp [scanned, Touch.isInterrupted, breaksOff_of_scanned? scanned] at interrupted

theorem definitionsFor_touches (sound : i.index.Sound) (lexical : i.host.IsLexical) {disk : Disk}
    (proper : disk.tree.isProper = true) (notices : List Notice) (document : String) :
    ((i.scan disk).1.notified notices).index.definitionsFor document =
      i.kept notices document ++
        ((i.touches disk notices document).getLast?.map
          (Touch.definitions i.host document)).getD [] := by
  have frame := i.scan_frame disk
  rw [definitionsFor_notices (scan_sound sound disk) (frame.1 ▸ lexical), told?_congr frame, frame.1,
    definitionsFor_scanned sound lexical proper, kept, touches, List.getLast?_append]
  cases last : (notices.filterMap (i.told? document)).getLast? with
  | none => cases scanned : i.scanned? disk document <;> simp [List.getLast?_eq_none_iff.mp last]
  | some t =>
    have replaced : notices.filterMap (i.told? document) ≠ [] := by
      intro untouched
      simp [untouched] at last
    rw [if_neg replaced]
    rfl

end Indexer

namespace World

/-- Whatever each reading leads to in a first scan and in the calls after it, a document is told to be
in the index just if the last call about it that came to its end has read it. The index holds what was
last read of a document that is told to be in it, and nothing of another one, with two exceptions.
When the last call was interrupted, the index holds nothing of the document whatever is told, and what
the index was given before the scan stays until a call replaces it. -/
theorem definitionsFor_notified {cwd : String} (absolute : (Path.ofString cwd).isAbsolute = true)
    (roots includePatterns unlistedPatterns excludePatterns : List String) (historyLimit : Int)
    (history : List (Index.Operation Definition)) {disk : Disk}
    (proper : disk.tree.isProper = true) {i : Indexer}
    (made : (given (.make (.ofString cwd) (roots.map .ofString) includePatterns unlistedPatterns)
      excludePatterns historyLimit history disk).indexer = i)
    (notices : List Indexer.Notice) (document : String) :
    let now := (i.scan disk).1.notified notices
    let touches := i.touches disk notices document
    (now.reports document = (Touch.settled? touches).any fun t => t.text?.isSome) ∧
    now.index.definitionsFor document =
      if Touch.isInterrupted touches then []
      else i.kept notices document ++
        if now.reports document then
          ((Touch.lastText? touches).map
            (Document.definitions document (i.host.place (.ofString document)))).getD []
        else [] := by
  intro now touches
  have lexical : i.host.IsLexical :=
    made ▸ Host.make_isLexical absolute roots includePatterns unlistedPatterns
  have sound : i.index.Sound := made ▸ ⟨_, Index.represents_after history⟩
  have fresh : i.states = .empty := made ▸ rfl
  have reports : now.reports document =
      (Touch.settled? touches).any fun t => t.text?.isSome := by
    rw [Indexer.reports_notified, Indexer.told?_congr (i.scan_frame disk),
      Indexer.reports_scan fresh, Indexer.settled?_touches]
    cases Touch.settled? (notices.filterMap (i.told? document)) <;> rfl
  refine ⟨reports, ?_⟩
  have holds := Indexer.definitionsFor_touches sound lexical proper notices document
  rw [Touch.definitions_getLast?, ← reports] at holds
  cases interrupted : Touch.isInterrupted touches with
  | true =>
    rw [if_pos interrupted, Indexer.kept_of_isInterrupted interrupted] at holds
    exact holds
  | false =>
    rw [interrupted] at holds
    exact holds

def refused : List Indexer.Notice :=
  [⟨workspace "x: 1", .changed, "/w/a.yaml"⟩,
    ⟨⟨(workspace "y: 1").tree, fun _ => some (.unexpected "refused")⟩, .changed, "/w/a.yaml"⟩]

def solitary (history : List (Index.Operation Definition)) : Indexer :=
  (given (.make (.ofString "/") (["/w"].map .ofString) ["*.yaml"] []) [] 256 history
    (workspace "lr: 1")).indexer

theorem definitionsFor_notified_refused :
    (Path.ofString "/").isAbsolute = true ∧ (workspace "lr: 1").tree.isProper = true ∧
      let now := ((solitary []).scan (workspace "lr: 1")).1.notified refused
      now.reports "/w/a.yaml" = true ∧ now.index.definitionsFor "/w/a.yaml" = [] := by
  have proper : (workspace "lr: 1").tree.isProper = true := by decide +kernel
  have absolute : (Path.ofString "/").isAbsolute = true := by decide
  obtain ⟨reports, holds⟩ := definitionsFor_notified absolute ["/w"] ["*.yaml"] [] [] 256 [] proper
    rfl refused "/w/a.yaml"
  have settled : ((Touch.settled? ((solitary []).touches (workspace "lr: 1") refused
      "/w/a.yaml")).any fun t => t.text?.isSome) = true := by decide +kernel
  have interrupted : Touch.isInterrupted ((solitary []).touches (workspace "lr: 1") refused
      "/w/a.yaml") = true := by decide +kernel
  exact ⟨absolute, proper, reports.trans settled, holds.trans (if_pos interrupted)⟩

/-- A document that is told to be in the index is not, and one that is holds more than what was
read. -/
theorem reports_refused :
    let disk := workspace "lr: 1"
    let x : Definition := ⟨["x"], "/w/a.yaml", ⟨0, 0, 0⟩, by decide⟩
    let lr : Definition := ⟨["a", "lr"], "/w/a.yaml", ⟨0, 0, 2⟩, by decide⟩
    let now := ((solitary []).scan disk).1.notified refused
    let before := ((solitary [.add x]).scan disk).1
    ((solitary []).scan disk).2 = .ok ⟨1, 1, 2, []⟩ ∧ now.reports "/w/a.yaml" = true ∧
      Touch.lastText? ((solitary []).touches disk refused "/w/a.yaml") = some "x: 1".toList ∧
      Document.definitions "/w/a.yaml" ["a"] "x: 1".toList ≠ [] ∧
      now.index.definitionsFor "/w/a.yaml" = [] ∧
      before.reports "/w/a.yaml" = true ∧
      Touch.lastText? ((solitary [.add x]).touches disk [] "/w/a.yaml") = some "lr: 1".toList ∧
      Document.definitions "/w/a.yaml" ["a"] "lr: 1".toList = [lr] ∧
      before.index.definitionsFor "/w/a.yaml" = [x, lr] := by
  decide +kernel

end World

end KeyAtlas
