import KeyAtlas.Proofs.FileTree.Without
import KeyAtlas.Proofs.Host.Listing
import KeyAtlas.Proofs.Indexer.LastTouch

namespace KeyAtlas

def Disk.without (disk : Disk) (gone : List String → Bool) : Disk :=
  { disk with tree := disk.tree.without gone }

namespace Host

variable {h : Host} {t : FileTree} (gone : List String → Bool)

theorem documents_without (lexical : h.IsLexical) (proper : t.isProper = true) :
    h.documents (t.without gone) = (h.documents t).filter fun p => !gone p.parts := by
  have increasing : h.Increasing ((h.documents t).filter fun p => !gone p.parts) :=
    (h.increasing_documents t).filter _
  apply Increasing.eq_of_mem_iff (h.increasing_documents _) increasing
  intro p
  rw [List.mem_filter, mem_documents_iff_listed lexical (FileTree.isProper_without gone proper),
    mem_documents_iff_listed lexical proper, FileTree.content?_without gone proper]
  simp only [FileTree.isDirectory_without gone proper]
  cases gone p.parts <;> simp

theorem listingFailure?_without (proper : t.isProper = true) :
    h.listingFailure? (t.without gone) = h.listingFailure? t := by
  have same : admits (t.without gone) = admits t := by
    funext root
    rw [admits, admits, FileTree.leadsToDirectory_without gone proper]
  rw [listingFailure?, listingFailure?, same]

theorem read_without {disk : Disk} (proper : disk.tree.isProper = true) {p : Path}
    (plain : p.IsPlain) (stays : gone p.parts = false) :
    h.read (disk.without gone) p = h.read disk p := by
  rw [read, read, Disk.without, plain.under]
  dsimp only
  rw [FileTree.reach, FileTree.reach]
  rcases FileTree.locate_without gone proper p with same | ⟨before, after⟩
  · rw [same]
    cases located : disk.tree.locate p with
    | error e => rfl
    | ok place =>
      cases (FileTree.locate_names plain.names located).1
      simp only [bind, Except.bind]
      rw [FileTree.find?_without gone proper]
      cases disk.tree.top.find? p.parts with
      | none => rfl
      | some node =>
        cases node with
        | directory children => rfl
        | file content => simp [Node.without, stays]
  · rw [before, after]
    rfl

end Host

namespace Indexer

variable {i : Indexer} {disk : Disk}

theorem targets_without (gone : List String → Bool) (lexical : i.host.IsLexical)
    {t : FileTree} (proper : t.isProper = true) :
    i.targets (t.without gone) = (i.targets t).filter fun p => !gone p.parts := by
  rw [targets, targets, Host.documents_without gone lexical proper, List.filter_comm]

theorem read_of_mem_targets_without (gone : List String → Bool) (lexical : i.host.IsLexical)
    (proper : disk.tree.isProper = true) {p : Path}
    (member : p ∈ i.targets (disk.without gone).tree) :
    p ∈ i.targets disk.tree ∧ i.host.read (disk.without gone) p = i.host.read disk p := by
  rw [Disk.without, targets_without gone lexical proper, List.mem_filter,
    Bool.not_eq_true'] at member
  have plain := Host.isPlain_of_mem_documents lexical proper (List.mem_of_mem_filter member.1)
  exact ⟨member.1, Host.read_without gone proper plain member.2⟩

theorem loadAll_result (i : Indexer) {ps : List Path}
    (goesOn : ∀ p ∈ ps, i.host.goesOn disk p = true) :
    (i.loadAll disk ps).2 =
      .ok ((ps.filter fun p => !i.host.isReadable disk p).map i.host.documentId) := by
  induction ps generalizing i with
  | nil => rfl
  | cons p rest ih =>
    obtain ⟨passed, restGoesOn⟩ := List.forall_mem_cons.mp goesOn
    obtain ⟨index, loaded⟩ := i.load_of_goesOn passed
    simp only [loadAll, loaded]
    rw [ih]
    · cases readable : i.host.isReadable disk p <;> simp [readable, Except.map]
    · exact restGoesOn

theorem scan_result (listable : i.host.listingFailure? disk.tree = none)
    (goesOn : ∀ p ∈ i.targets disk.tree, i.host.goesOn disk p = true) :
    (i.scan disk).2 = .ok ⟨(i.targets disk.tree).length, (i.scan disk).1.index.size,
      (i.scan disk).1.index.suffixCount,
      ((i.targets disk.tree).filter fun p => !i.host.isReadable disk p).map i.host.documentId⟩ := by
  have result := i.loadAll_result goesOn
  simp only [scan, listable]
  cases loaded : i.loadAll disk (i.targets disk.tree) with
  | mk next outcome =>
    rw [loaded] at result
    cases result
    rfl

theorem scan_of_listingFailure? {failure : ReadFailure}
    (failing : i.host.listingFailure? disk.tree = some failure) :
    i.scan disk = (i, .error failure) := by
  simp only [scan, failing]

theorem index_without (lexical : i.host.IsLexical) (proper : disk.tree.isProper = true)
    (goesOn : ∀ p ∈ i.targets disk.tree, i.host.goesOn disk p = true) {gone : List String → Bool}
    (unread : ∀ p ∈ i.targets disk.tree, gone p.parts = true → i.host.isReadable disk p = false) :
    (i.scan (disk.without gone)).1.index = (i.scan disk).1.index := by
  have stays := fun p => read_of_mem_targets_without (p := p) gone lexical proper
  have goesOn' : ∀ p ∈ i.targets (disk.without gone).tree,
      i.host.goesOn (disk.without gone) p = true := by
    intro p member
    rw [Host.goesOn, (stays p member).2, ← Host.goesOn]
    exact goesOn p (stays p member).1
  have defined : ∀ p ∈ i.targets (disk.without gone).tree,
      i.host.defined (disk.without gone) p = i.host.defined disk p := by
    intro p member
    rw [Host.defined, Host.contribution, (stays p member).2, ← Host.contribution, ← Host.defined]
  have listing : i.host.listingFailure? (disk.without gone).tree =
      i.host.listingFailure? disk.tree := Host.listingFailure?_without gone proper
  rw [(i.scan_visits _).1, (i.scan_visits _).1]
  cases failing : i.host.listingFailure? disk.tree with
  | some failure => simp only [visited, listing, failing, List.flatMap_nil]
  | none =>
    -- Both scans visit all that they list, and what the second one does not list defines nothing.
    rw [visited_of_goesOn goesOn' (listing.trans failing), visited_of_goesOn goesOn failing,
      List.flatMap_congr defined, Disk.without, targets_without gone lexical proper]
    refine congrArg _ (i.host.flatMap_defined_filter disk fun p member dropped => ?_)
    exact unread p member (by simpa using dropped)

/-- A first scan reports a root that cannot be looked up and does nothing. Otherwise it comes to an
end whatever documents cannot be read, as long as their failures are contained. It counts them among
the documents, reports their identifiers in order and leaves just these unindexed. Either way the
index is the one that the scan would leave without any of the files that cannot be read. -/
theorem scan_unread {cwd : String} (absolute : (Path.ofString cwd).isAbsolute = true)
    (roots includePatterns globs : List String) {h : Host}
    (made : Host.make (.ofString cwd) (roots.map .ofString) includePatterns globs = h)
    (excludePatterns : List String) (historyLimit : Int) {disk : Disk}
    (proper : disk.tree.isProper = true) {i : Indexer}
    (fresh : (World.initial h excludePatterns historyLimit disk).indexer = i)
    (contained : ∀ p ∈ i.targets disk.tree, ∀ failure, h.read disk p = .error failure →
      failure.isContained = true) :
    let unread := (i.targets disk.tree).filter fun p => !h.isReadable disk p
    let unlistable := ∃ root ∈ h.roots, disk.tree.leadsToDirectory root = .error .nameTooLong
    let last := (i.scan disk).1
    (∀ gone : List String → Bool,
      (∀ p ∈ i.targets disk.tree, gone p.parts = true → p ∈ unread) →
      (i.scan (disk.without gone)).1.index = last.index) ∧
    (unlistable → i.scan disk = (i, .error (.system FileError.nameTooLong.message))) ∧
    (¬ unlistable →
      (i.scan disk).2 = .ok ⟨(i.targets disk.tree).length, last.index.size,
        last.index.suffixCount, unread.map h.documentId⟩ ∧
      (unread.map h.documentId).Pairwise (· < ·) ∧
      (∀ document, document ∈ last.scannedDocuments ↔
        ∃ p ∈ i.targets disk.tree, h.documentId p = document) ∧
      ∀ p ∈ i.targets disk.tree, last.stateOf (h.documentId p) =
        if p ∈ unread then .unindexed else .indexed) := by
  intro unread unlistable last
  have host : i.host = h := fresh ▸ rfl
  have states : i.states = .empty := fresh ▸ rfl
  have lexical : h.IsLexical := made ▸ Host.make_isLexical absolute roots includePatterns globs
  have listing := h.listingFailure?_eq disk.tree
  have goesOn : ∀ p ∈ i.targets disk.tree, i.host.goesOn disk p = true := fun p member =>
    i.host.goesOn_iff.mpr (host ▸ contained p member)
  have isUnread : ∀ p, p ∈ unread ↔ p ∈ i.targets disk.tree ∧ h.isReadable disk p = false := by
    simp [unread]
  subst host
  refine ⟨fun gone failed => ?_, fun long => ?_, fun listable => ?_⟩
  · exact index_without lexical proper goesOn fun p member dropped =>
      ((isUnread p).mp (failed p member dropped)).2
  · exact scan_of_listingFailure? (listing.trans (if_pos long))
  · rw [if_neg listable] at listing
    have visited := visited_of_goesOn goesOn listing
    refine ⟨scan_result listing goesOn, ?_, fun document => ?_, fun p member => ?_⟩
    · exact List.pairwise_map.mpr (((i.host.increasing_documents _).filter _).filter _)
    · rw [mem_scannedDocuments_iff_visited states, visited]
    · rw [stateOf_scan (visited ▸ member), Host.visitState]
      cases readable : i.host.isReadable disk p <;> simp [isUnread, member, readable]

def halfRead : FileTree :=
  ⟨.directory [("w", .directory
    [("a.yaml", .file "lr: 1".toUTF8.toList), ("b.yaml", .file [0xff])])]⟩

theorem scan_unread_halfRead :
    let h := Host.make (.ofString "/") (["/w"].map .ofString) ["*.yaml"] []
    let i := (World.initial h [] 3 (.ofTree halfRead)).indexer
    let gone := fun place => place == ["w", "b.yaml"]
    (Path.ofString "/").isAbsolute = true ∧ halfRead.isProper = true ∧
      (∀ p ∈ i.targets halfRead, ∀ failure, h.read (.ofTree halfRead) p = .error failure →
        failure.isContained = true) ∧
      (i.scan ((Disk.ofTree halfRead).without gone)).1.index = (i.scan (.ofTree halfRead)).1.index ∧
      ∃ stats, (i.scan (.ofTree halfRead)).2 = .ok stats ∧ stats.documents = 2 ∧
        stats.failed = ["/w/b.yaml"] := by
  intro h i gone
  have absolute : (Path.ofString "/").isAbsolute = true := by decide
  have proper : halfRead.isProper = true := by decide +kernel
  have contained : ∀ p ∈ i.targets halfRead, ∀ failure,
      h.read (.ofTree halfRead) p = .error failure → failure.isContained = true :=
    fun p _ failure => h.isContained_of_read_error _ (Disk.isContained_ofTree halfRead)
  have listed : i.targets halfRead = [.ofString "/w/a.yaml", .ofString "/w/b.yaml"] := by
    rw [targets, Host.documents_of_increasing (by decide +kernel)]
    decide +kernel
  have unread : (i.targets halfRead).filter (fun p => !h.isReadable (.ofTree halfRead) p) =
      [.ofString "/w/b.yaml"] := by
    rw [listed]
    decide +kernel
  have failed : ∀ p ∈ i.targets halfRead, gone p.parts = true →
      p ∈ (i.targets halfRead).filter fun p => !h.isReadable (.ofTree halfRead) p := by
    rw [unread, listed]
    decide +kernel
  have listable : ¬ ∃ root ∈ h.roots, halfRead.leadsToDirectory root = .error .nameTooLong := by
    decide +kernel
  obtain ⟨without, _, scanned⟩ :=
    scan_unread absolute ["/w"] ["*.yaml"] [] rfl [] 3 proper rfl contained
  refine ⟨absolute, proper, contained, without gone failed, _, (scanned listable).1, ?_, ?_⟩
  · exact congrArg List.length listed
  · exact (congrArg _ unread).trans (by decide +kernel)

/-- With a root that cannot be looked up, the document that can be read is not indexed either. -/
theorem scan_longRooted :
    let i := (World.initial Host.longRooted [] 3 (.ofTree halfRead)).indexer
    i.targets halfRead = [.ofString "/w/a.yaml", .ofString "/w/b.yaml"] ∧
      i.host.isReadable (.ofTree halfRead) (.ofString "/w/a.yaml") = true ∧
      i.host.read (.ofTree halfRead) (.ofString "/w/b.yaml") =
        .error (.unreadable "/w/b.yaml" none) ∧
      i.scan (.ofTree halfRead) = (i, .error (.system "File name too long")) ∧
      i.scannedDocuments = [] := by
  intro i
  have failing : i.host.listingFailure? halfRead = some (.system "File name too long") :=
    Host.listingFailure?_longRooted (by decide +kernel)
  refine ⟨?_, by decide +kernel, by decide +kernel, ?_, by decide +kernel⟩
  · have found : i.host.Increasing ((i.host.found halfRead).entries.map Prod.snd) := by
      simp only [i, World.initial, Indexer.make, Host.longRooted_eq]
      decide +kernel
    rw [targets, Host.documents_of_increasing found]
    simp only [i, World.initial, Indexer.make, Host.longRooted_eq]
    decide +kernel
  · exact scan_of_listingFailure? failing

end Indexer

end KeyAtlas
