import KeyAtlas.Indexer
import KeyAtlas.Proofs.Document.Entries
import KeyAtlas.Proofs.Host.Documents
import KeyAtlas.Proofs.Index.Contents

namespace KeyAtlas

/-- A scan goes on after every failure that this disk can lead to. -/
def Disk.IsContained (disk : Disk) : Prop :=
  ∀ p failure, disk.refusals p = some failure → failure.isContained = true

theorem Disk.isContained_ofTree (tree : FileTree) : (Disk.ofTree tree).IsContained :=
  nofun

namespace Host

variable (h : Host) (disk : Disk)

def defined (p : Path) : List Definition :=
  (h.contribution disk p).toOption.getD []

theorem document_of_mem_defined {p : Path} {d : Definition} (member : d ∈ h.defined disk p) :
    d.document = h.documentId p := by
  rw [defined, contribution] at member
  cases outcome : h.read disk p with
  | error failure => simp [outcome, Except.map, Except.toOption] at member
  | ok text =>
    simp only [outcome, Except.map, Except.toOption, Option.getD_some] at member
    exact Document.document_of_mem_definitions member

theorem filter_defined (p : Path) (document : String) :
    (h.defined disk p).filter (fun d => Index.documentOf d == document) =
      if h.documentId p = document then h.defined disk p else [] := by
  split
  · rename_i same
    refine List.filter_eq_self.mpr fun d member => ?_
    rw [← same]
    exact beq_iff_eq.mpr (h.document_of_mem_defined disk member)
  · rename_i apart
    refine List.filter_eq_nil_iff.mpr fun d member owned => apart ?_
    rw [← h.document_of_mem_defined disk member]
    exact eq_of_beq owned

theorem filter_flatMap_defined {ps : List Path} (once : (ps.map h.documentId).Nodup)
    (document : String) :
    (ps.flatMap (h.defined disk)).filter (fun d => Index.documentOf d == document) =
      ((ps.find? fun p => h.documentId p == document).map (h.defined disk)).getD [] := by
  induction ps with
  | nil => rfl
  | cons p rest ih =>
    obtain ⟨fresh, restOnce⟩ := List.nodup_cons.mp once
    rw [List.flatMap_cons, List.filter_append, filter_defined, ih restOnce, List.find?_cons]
    by_cases same : h.documentId p = document
    · have missing : rest.find? (fun q => h.documentId q == document) = none := by
        refine List.find?_eq_none.mpr fun q member owned => fresh ?_
        rw [same, ← eq_of_beq owned]
        exact List.mem_map_of_mem member
      simp [same, missing]
    · have other : (h.documentId p == document) = false := by simpa using same
      rw [if_neg same, other, List.nil_append]

theorem isContained_of_read_error {p : Path} {failure : ReadFailure}
    (contained : disk.IsContained) (failed : h.read disk p = .error failure) :
    failure.isContained = true := by
  rw [read] at failed
  split at failed
  · rename_i refused
    cases failed
    exact contained p _ refused
  · split at failed
    · split at failed <;> cases failed
      rfl
    · cases failed
      rfl
    · cases failed
      rfl

end Host

namespace Indexer

variable (i : Indexer)

theorem load_frame (document : String) (outcome : Except ReadFailure (List Definition)) :
    (i.load document outcome).1.host = i.host ∧
      (i.load document outcome).1.excludePatterns = i.excludePatterns := by
  cases outcome with
  | ok ds => exact ⟨rfl, rfl⟩
  | error failure =>
    rw [load]
    split <;> exact ⟨rfl, rfl⟩

theorem load_index (document : String) (outcome : Except ReadFailure (List Definition)) :
    (i.load document outcome).1.index = i.index.addAll (outcome.toOption.getD []) := by
  cases outcome with
  | ok ds => rfl
  | error failure =>
    rw [load]
    split <;> rfl

variable {disk : Disk}

theorem loadAll_frame (disk : Disk) (ps : List Path) :
    (i.loadAll disk ps).1.host = i.host ∧
      (i.loadAll disk ps).1.excludePatterns = i.excludePatterns := by
  induction ps generalizing i with
  | nil => exact ⟨rfl, rfl⟩
  | cons p rest ih =>
    have first := i.load_frame (i.host.documentId p) (i.host.contribution disk p)
    simp only [loadAll]
    split
    · rename_i next failure loaded
      rw [loaded] at first
      exact first
    · rename_i next failed loaded
      rw [loaded] at first
      exact ⟨(ih next).1.trans first.1, (ih next).2.trans first.2⟩

/-- The document with this identifier among those that a scan visits. -/
def listed? (tree : FileTree) (document : String) : Option Path :=
  match i.host.listingFailure? tree with
  | some _ => none
  | none => (i.targets tree).find? fun p => i.host.documentId p == document

def scanFinds (disk : Disk) (document : String) : List Definition :=
  ((i.listed? disk.tree document).map (i.host.defined disk)).getD []

variable {i}

theorem isExcluded_of_frame {j : Indexer}
    (frame : j.host = i.host ∧ j.excludePatterns = i.excludePatterns) :
    j.isExcluded = i.isExcluded := by
  funext p
  simp only [isExcluded, frame.1, frame.2]

theorem targets_of_frame {j : Indexer}
    (frame : j.host = i.host ∧ j.excludePatterns = i.excludePatterns) : j.targets = i.targets := by
  funext tree
  rw [targets, targets, frame.1, isExcluded_of_frame frame]

theorem once_targets (tree : FileTree) : ((i.targets tree).map i.host.documentId).Nodup := by
  have part : (i.targets tree).Sublist (i.host.documents tree) := List.filter_sublist
  exact (i.host.nodup_documentIds tree).sublist (part.map i.host.documentId)

theorem mem_targets_of_listed? {tree : FileTree} {document : String} {p : Path}
    (found : i.listed? tree document = some p) :
    p ∈ i.targets tree ∧ i.host.documentId p = document := by
  rw [listed?] at found
  split at found
  · cases found
  · exact ⟨List.mem_of_find?_eq_some found, eq_of_beq (List.find?_some found :)⟩

theorem scan_frame (i : Indexer) (disk : Disk) :
    (i.scan disk).1.host = i.host ∧ (i.scan disk).1.excludePatterns = i.excludePatterns := by
  have frame := i.loadAll_frame disk (i.targets disk.tree)
  rw [scan]
  split
  · exact ⟨rfl, rfl⟩
  · split <;> rename_i loaded <;> rw [loaded] at frame <;> exact frame

theorem reload_spec (i : Indexer) (disk : Disk) (p : Path) (created : Bool) :
    (i.reload disk p created).1.host = i.host ∧
      (i.reload disk p created).1.excludePatterns = i.excludePatterns ∧
      (i.reload disk p created).1.index =
        (i.index.removeDocument (i.host.documentId p)).addAll (i.host.defined disk p) := by
  let cleared := { i with index := i.index.removeDocument (i.host.documentId p) }
  have frame := cleared.load_frame (i.host.documentId p) (i.host.contribution disk p)
  have index := cleared.load_index (i.host.documentId p) (i.host.contribution disk p)
  simp only [reload]
  split
  · rename_i loaded
    rw [loaded] at frame index
    exact ⟨frame.1, frame.2, index⟩
  · rename_i loaded
    rw [loaded] at frame index
    rw [markReindexed]
    split
    · split <;> exact ⟨frame.1, frame.2, index⟩
    · exact ⟨frame.1, frame.2, index⟩

theorem apply_frame (i : Indexer) (disk : Disk) (e : Update.Event) :
    (i.apply disk e).1.host = i.host ∧
      (i.apply disk e).1.excludePatterns = i.excludePatterns := by
  rw [apply]
  split
  · exact ⟨rfl, rfl⟩
  · have reloaded := i.reload_spec disk e.path
    split
    · exact ⟨rfl, rfl⟩
    · exact ⟨(reloaded true).1, (reloaded true).2.1⟩
    · exact ⟨(reloaded false).1, (reloaded false).2.1⟩

def updated (i : Indexer) (disk : Disk) (e : Update.Event) : List Definition :=
  match e.kind with
  | .deleted => []
  | .created | .changed => i.host.defined disk e.path

theorem apply_index (i : Indexer) (disk : Disk) (e : Update.Event) :
    (i.apply disk e).1.index = if i.isExcluded e.path then i.index else
      (i.index.removeDocument (i.host.documentId e.path)).addAll (i.updated disk e) := by
  have reloaded := fun created => (i.reload_spec disk e.path created).2.2
  rw [apply, updated]
  split
  · rfl
  · cases e.kind with
    | deleted => rfl
    | created => exact reloaded true
    | changed => exact reloaded false

theorem apply_sound (disk : Disk) (sound : i.index.Sound) (e : Update.Event) :
    (i.apply disk e).1.index.Sound ∧ ∀ document,
      (i.apply disk e).1.index.definitionsFor document =
        if i.isExcluded e.path = false ∧ i.host.documentId e.path = document then
          i.updated disk e else i.index.definitionsFor document := by
  have owned : ∀ document, (i.updated disk e).filter (fun d => Index.documentOf d == document) =
      if i.host.documentId e.path = document then i.updated disk e else [] := by
    intro document
    rw [updated]
    split
    · simp
    · exact i.host.filter_defined disk e.path document
    · exact i.host.filter_defined disk e.path document
  rw [apply_index]
  cases excluded : i.isExcluded e.path with
  | true => exact ⟨sound, fun document => by simp⟩
  | false =>
    have removed := sound.removeDocument (i.host.documentId e.path)
    refine ⟨removed.addAll _, fun document => ?_⟩
    simp only [Bool.false_eq_true, if_false, true_and]
    rw [removed.definitionsFor_addAll, sound.definitionsFor_removeDocument, owned]
    by_cases same : i.host.documentId e.path = document
    · simp [same]
    · simp [same, Ne.symm same]

end Indexer

end KeyAtlas
