import KeyAtlas.Proofs.Indexer.Visited
import KeyAtlas.Proofs.Update.Coalescing

namespace KeyAtlas

namespace Indexer

variable {i j : Indexer}

theorem visited?_congr (frame : j.host = i.host ∧ j.excludePatterns = i.excludePatterns)
    (disk : Disk) (document : String) : j.visited? disk document = i.visited? disk document := by
  simp only [visited?, visited, frame.1, targets_of_frame frame]

end Indexer

namespace World

variable {w : World}

def scanReads (w : World) (document : String) : List Definition :=
  ((w.indexer.visited? w.disk document).map (w.indexer.host.defined w.disk)).getD []

theorem definitionsFor_scans (sound : w.indexer.index.Sound) (document : String) (n : Nat) :
    (w.after (List.replicate n .scan)).indexer.index.definitionsFor document =
      w.indexer.index.definitionsFor document ++
        (List.replicate n (w.scanReads document)).flatten := by
  induction n generalizing w with
  | zero => simp [after]
  | succ n ih =>
    have first := Indexer.definitionsFor_scan sound w.disk document
    have frame := w.indexer.scan_frame w.disk
    have same : (w.perform .scan).scanReads document = w.scanReads document := by
      have visits := Indexer.visited?_congr frame w.disk document
      simp only [scanReads, perform, visits, frame.1]
    have later := ih (perform_sound sound .scan)
    rw [same] at later
    rw [List.replicate_succ, List.replicate_succ, List.flatten_cons, ← List.append_assoc]
    refine later.trans ?_
    rw [perform]
    exact congrArg (· ++ _) first

theorem scanReads_of_mem {stats : ScanStats} (returned : (w.indexer.scan w.disk).2 = .ok stats)
    {p : Path} (member : p ∈ w.indexer.targets w.disk.tree) :
    w.scanReads (w.indexer.host.documentId p) = w.indexer.host.defined w.disk p := by
  have all := (w.indexer.scan_visits w.disk).2.2 ⟨stats, returned⟩
  have found : w.indexer.visited? w.disk (w.indexer.host.documentId p) = some p :=
    Indexer.visited?_eq_some_iff.mpr ⟨all ▸ member, rfl⟩
  rw [scanReads, found]
  rfl

theorem scanReads_of_not_mem {document : String}
    (unlisted : document ∉ (w.indexer.targets w.disk.tree).map w.indexer.host.documentId) :
    w.scanReads document = [] := by
  cases found : w.indexer.visited? w.disk document with
  | none => simp [scanReads, found]
  | some p =>
    obtain ⟨member, rfl⟩ := Indexer.visited?_eq_some_iff.mp found
    have listed := (w.indexer.visited_sublist w.disk).subset member
    exact (unlisted (List.mem_map_of_mem listed)).elim

/-- Whatever an indexer and the disk have gone through, `n` scans add to each document that they
list what it defines, `n` times over, and leave the other ones as they are. So one scan leaves each
listed document with what it defines just if nothing was held of any before. A refresh does so in
any case. -/
theorem definitionsFor_rescan {h : Host} {excludePatterns : List String} {historyLimit : Int}
    {history : List (Index.Operation Definition)} {disk : Disk} {actions : List Action}
    (led : (given h excludePatterns historyLimit history disk).after actions = w)
    {stats : ScanStats} (returned : (w.indexer.scan w.disk).2 = .ok stats) :
    let targets := w.indexer.targets w.disk.tree
    let document := w.indexer.host.documentId
    let held := w.indexer.index.definitionsFor
    (∀ p ∈ targets, ∀ n,
      (w.after (List.replicate n .scan)).indexer.index.definitionsFor (document p) =
        held (document p) ++ (List.replicate n (w.indexer.host.defined w.disk p)).flatten) ∧
    (∀ other ∉ targets.map document, ∀ n,
      (w.after (List.replicate n .scan)).indexer.index.definitionsFor other = held other) ∧
    ((∀ p ∈ targets, (w.perform .scan).indexer.index.definitionsFor (document p) =
        w.indexer.host.defined w.disk p) ↔ ∀ p ∈ targets, held (document p) = []) ∧
    (∀ p ∈ targets, (w.perform .refresh).indexer.index.definitionsFor (document p) =
      w.indexer.host.defined w.disk p) := by
  intro targets document held
  have sound : w.indexer.index.Sound := by
    have keeps := (after_frame (given h excludePatterns historyLimit history disk) actions).2
    rw [led] at keeps
    exact keeps ⟨_, Index.represents_after history⟩
  have once : ∀ other, (w.perform .scan).indexer.index.definitionsFor other =
      held other ++ w.scanReads other := Indexer.definitionsFor_scan sound w.disk
  refine ⟨fun p member n => ?_, fun other unlisted n => ?_, ?_, fun p member => ?_⟩
  · rw [definitionsFor_scans sound, scanReads_of_mem returned member]
  · rw [definitionsFor_scans sound, scanReads_of_not_mem unlisted]
    simp [held]
  · constructor
    · intro exact p member
      have now := exact p member
      rw [once, scanReads_of_mem returned member] at now
      exact List.append_left_eq_self.mp now
    · intro nothing p member
      rw [once, scanReads_of_mem returned member, nothing p member, List.nil_append]
  · have emptied : w.indexer.reset.index.Sound := Index.sound_empty
    have found := Indexer.definitionsFor_scan emptied w.disk (document p)
    refine found.trans ?_
    -- A refresh visits the same documents.
    exact scanReads_of_mem returned member

def updatedFirst : World :=
  (given (.make (.ofString "/") (["/w"].map .ofString) ["*.yaml"] []) [] 256 []
    (workspace "lr: 1")).after [.update .created "/w/a.yaml"]

theorem definitionsFor_rescan_updatedFirst :
    (updatedFirst.indexer.scan updatedFirst.disk).2 = .ok ⟨1, 2, 2, []⟩ ∧
      .ofString "/w/a.yaml" ∈ updatedFirst.indexer.targets updatedFirst.disk.tree ∧
      (updatedFirst.after [.scan, .scan]).indexer.index.definitionsFor "/w/a.yaml" =
        updatedFirst.indexer.index.definitionsFor "/w/a.yaml" ++
          (List.replicate 2 (updatedFirst.indexer.host.defined updatedFirst.disk
            (.ofString "/w/a.yaml"))).flatten := by
  have returned : (updatedFirst.indexer.scan updatedFirst.disk).2 = .ok ⟨1, 2, 2, []⟩ := by
    decide +kernel
  have listed : .ofString "/w/a.yaml" ∈ updatedFirst.indexer.targets updatedFirst.disk.tree := by
    decide +kernel
  have led : (given (.make (.ofString "/") (["/w"].map .ofString) ["*.yaml"] []) [] 256 []
      (workspace "lr: 1")).after [.update .created "/w/a.yaml"] = updatedFirst := rfl
  exact ⟨returned, listed, (definitionsFor_rescan led returned).1 _ listed 2⟩

/-- A document is scanned again, scanned after an update, and scanned again when it cannot be read
any more. -/
theorem definitionsFor_rescanned :
    let new := initial (.make (.ofString "/") (["/w"].map .ofString) ["*.yaml"] []) [] 256
      (workspace "lr: 1")
    let garbled : Disk := .ofTree ⟨.directory [("w", .directory [("a.yaml", .file [0xff])])]⟩
    let lr : Definition := ⟨["a", "lr"], "/w/a.yaml", ⟨0, 0, 2⟩, by decide⟩
    new.indexer.host.defined new.disk (.ofString "/w/a.yaml") = [lr] ∧
      new.indexer.host.defined garbled (.ofString "/w/a.yaml") = [] ∧
      (new.after [.scan, .scan]).indexer.index.definitionsFor "/w/a.yaml" = [lr, lr] ∧
      (new.after [.update .created "/w/a.yaml", .scan]).indexer.index.definitionsFor "/w/a.yaml" =
        [lr, lr] ∧
      (new.after [.scan, .edit garbled, .scan]).indexer.index.definitionsFor "/w/a.yaml" = [lr] := by
  decide +kernel

end World

end KeyAtlas
