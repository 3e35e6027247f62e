import KeyAtlas.Proofs.Indexer.Targets
import KeyAtlas.Proofs.Indexer.Visited

namespace KeyAtlas

namespace Host

variable {h : Host} {t : FileTree}

/-- A walk from this root takes the file. No glob stands for its path, nor for a directory on the
way. -/
def WalksTo (h : Host) (root p : Path) : Prop :=
  ∃ rest, p.root = root.root ∧ p.parts = root.parts ++ rest ∧
    matchesAny ("/".intercalate rest) h.excludePatterns = false ∧
    ∀ above below, above ≠ [] → below ≠ [] → rest = above ++ below →
      matchesAny ("/".intercalate above ++ "/") h.excludePatterns = false

/-- No glob stands for the path of the file below its deepest root. -/
def Hears (h : Host) (p : Path) : Prop :=
  ∃ root rest, h.IsRootOf root p ∧ p.parts = root.parts ++ rest ∧
    matchesAny ("/".intercalate rest) h.excludePatterns = false

theorem mem_documentsBelow_iff_walksTo (proper : t.isProper = true) {root p : Path} :
    p ∈ h.documentsBelow t root ↔ (t.content? p).isSome ∧
      nameIncluded p.name h.includePatterns = true ∧ t.isDirectory root = true ∧
        h.WalksTo root p := by
  rw [mem_documentsBelow proper]
  constructor
  · rintro ⟨same, rest, nonempty, whole, there, taken, passes⟩
    have name : p.name = rest.getLast?.getD "" := by
      rw [Path.name, whole, List.getLast?_append_of_ne_nil _ nonempty]
    rw [takes, ← name, Bool.and_eq_true, Bool.not_eq_true'] at taken
    refine ⟨there, taken.1, ?_, rest, same, whole, taken.2, fun above below upper lower split => ?_⟩
    · rw [FileTree.content?, whole, Node.content?_append] at there
      rw [FileTree.isDirectory, FileTree.find?]
      cases found : t.top.find? root.parts with
      | none => simp [found] at there
      | some node =>
        cases node with
        | directory children => rfl
        | file content =>
          cases rest with
          | nil => exact absurd rfl nonempty
          | cons next rest => simp [found] at there
    · simpa [enters] using Node.passes_iff.mp passes above below upper lower split
  · rintro ⟨there, included, directory, rest, same, whole, free, passes⟩
    have nonempty : rest ≠ [] := by
      rintro rfl
      obtain ⟨content, stands⟩ := Option.isSome_iff_exists.mp there
      have found := Node.content?_eq_some_iff.mp stands
      rw [whole, List.append_nil] at found
      rw [FileTree.isDirectory, FileTree.find?, found] at directory
      cases directory
    have name : p.name = rest.getLast?.getD "" := by
      rw [Path.name, whole, List.getLast?_append_of_ne_nil _ nonempty]
    refine ⟨same, rest, nonempty, whole, there, ?_, ?_⟩
    · rw [takes, ← name, included, free]
      rfl
    · refine Node.passes_iff.mpr fun above below upper lower split => ?_
      simpa [enters] using passes above below upper lower split

theorem mem_documents_iff_walksTo (lexical : h.IsLexical) (proper : t.isProper = true)
    (rooted : h.IsRooted t) {p : Path} (covered : h.Covers p) (there : (t.content? p).isSome) :
    p ∈ h.documents t ↔ ∃ root ∈ h.roots, h.WalksTo root p := by
  rw [mem_documents_iff lexical proper]
  refine exists_congr fun root => and_congr_right fun present => ?_
  have directory := ((FileTree.leadsToDirectory_iff (lexical.roots root present).names).mp
    (rooted root present)).2
  rw [mem_documentsBelow_iff_walksTo proper]
  simp only [there, covered.included, directory, true_and]

end Host

namespace Indexer

variable {i : Indexer} {t : FileTree}

theorem not_isExcluded_iff_hears (shared : i.host.excludePatterns = i.excludePatterns)
    (lexical : i.host.IsLexical) (rooted : i.host.IsRooted t) {p : Path}
    (covered : i.host.Covers p) (there : (t.content? p).isSome) :
    i.isExcluded p = false ↔ i.host.Hears p := by
  obtain ⟨root, present, deepest, within⟩ := covered.rootOf
  obtain ⟨_, rest, whole⟩ := Path.isWithin_iff.mp within
  have nonempty := rooted.ne_nil lexical present whole there
  have is := Host.rootOf_eq_some_iff.mp deepest
  rw [isExcluded_below covered.plain deepest whole nonempty, ← shared]
  constructor
  · intro free
    exact ⟨root, rest, is, whole, free⟩
  · rintro ⟨other, rest', is', whole', free⟩
    cases is.unique is'
    cases List.append_cancel_left (whole.symm.trans whole')
    exact free

theorem mem_targets_iff_walksTo (lexical : i.host.IsLexical) (proper : t.isProper = true)
    (rooted : i.host.IsRooted t) {p : Path} (covered : i.host.Covers p)
    (there : (t.content? p).isSome) :
    p ∈ i.targets t ↔ i.isExcluded p = false ∧ ∃ root ∈ i.host.roots, i.host.WalksTo root p := by
  rw [targets, List.mem_filter, Host.mem_documents_iff_walksTo lexical proper rooted covered there,
    Bool.not_eq_true', and_comm]

theorem mem_scannedDocuments_scan (fresh : i.states = .empty) (lexical : i.host.IsLexical)
    (proper : t.isProper = true) (rooted : i.host.IsRooted t) {p : Path} (plain : p.IsPlain) :
    i.host.documentId p ∈ (i.scan (.ofTree t)).1.scannedDocuments ↔ p ∈ i.targets t := by
  have visited : i.visited (.ofTree t) = i.targets t :=
    visited_of_isContained (Disk.isContained_ofTree t) rooted.listable
  rw [mem_scannedDocuments_iff_visited fresh, visited]
  constructor
  · rintro ⟨q, member, named⟩
    have same := Host.isPlain_of_mem_documents lexical proper (List.mem_of_mem_filter member)
    rwa [← Host.eq_of_documentId_eq same plain named]
  · intro member
    exact ⟨p, member, rfl⟩

theorem mem_scannedDocuments_created (fresh : i.states = .empty) {disk : Disk}
    (contained : disk.IsContained) (p : Path) :
    i.host.documentId p ∈ (i.apply disk ⟨.created, p⟩).1.scannedDocuments ↔
      i.isExcluded p = false := by
  rw [mem_scannedDocuments_iff, apply]
  cases excluded : i.isExcluded p with
  | true => simp [fresh]
  | false =>
    let cleared := { i with index := i.index.removeDocument (i.host.documentId p) }
    have seen : (cleared.load (i.host.documentId p) (i.host.contribution disk p)).1.states.get?
        (i.host.documentId p) ≠ none := by
      rw [cleared.load_states disk, if_pos (i.host.goesOn_of_isContained contained p),
        OrderedMap.get?_insert_self]
      exact Option.some_ne_none _
    simp only [Bool.false_eq_true, if_false, reload]
    split <;> rename_i loaded <;> rw [loaded] at seen <;> simpa using seen

/-- A notice of a file under a root, whose name is included, is heard just if no glob stands for its
path below its deepest root. A scan, also one after the notice, takes the file just if a walk leads to
it besides. Where all globs end in `*`, a walk leads to every file that a notice is heard about. -/
theorem scanned_iff {cwd : String} (absolute : (Path.ofString cwd).isAbsolute = true)
    (roots includePatterns globs : List String) {h : Host}
    (made : Host.make (.ofString cwd) (roots.map .ofString) includePatterns globs = h)
    (proper : t.isProper = true) (rooted : h.IsRooted t) {p : Path} (covered : h.Covers p)
    (there : (t.content? p).isSome) :
    let i := Indexer.make h globs
    let told := (i.apply (.ofTree t) ⟨.created, p⟩).1
    let document := h.documentId p
    let isReached := ∃ root ∈ h.roots, h.WalksTo root p
    (document ∈ (i.scan (.ofTree t)).1.scannedDocuments ↔ h.Hears p ∧ isReached) ∧
    (document ∈ told.scannedDocuments ↔ h.Hears p) ∧
    (document ∈ (told.refresh (.ofTree t)).1.scannedDocuments ↔ h.Hears p ∧ isReached) ∧
    (Trailing globs → h.Hears p → isReached) := by
  intro i told document isReached
  have lexical : h.IsLexical := made ▸ Host.make_isLexical absolute roots includePatterns globs
  have shared : h.excludePatterns = globs := made ▸ rfl
  have heard : i.isExcluded p = false ↔ h.Hears p :=
    not_isExcluded_iff_hears (i := i) shared lexical rooted covered there
  have reached : p ∈ i.targets t ↔ h.Hears p ∧ isReached := by
    rw [mem_targets_iff_walksTo (i := i) lexical proper rooted covered there, heard]
    rfl
  refine ⟨?_, ?_, ?_, ?_⟩
  · exact (mem_scannedDocuments_scan (i := i) rfl lexical proper rooted covered.plain).trans reached
  · exact (mem_scannedDocuments_created (i := i) rfl (Disk.isContained_ofTree t) p).trans heard
  · have frame : told.reset.host = i.host ∧ told.reset.excludePatterns = i.excludePatterns :=
      i.apply_frame (.ofTree t) ⟨.created, p⟩
    have again := mem_scannedDocuments_scan (i := told.reset) rfl (frame.1 ▸ lexical) proper
      (frame.1 ▸ rooted) covered.plain
    rw [targets_of_frame frame, frame.1] at again
    exact again.trans reached
  · intro trailing hears
    have suits : i.Suits t := ⟨lexical, shared, trailing, proper, rooted⟩
    exact (reached.mp (suits.mem_targets covered (heard.mpr hears) there)).2

def nested : FileTree :=
  ⟨.directory [("w", .directory [("sub", .directory [("a.yaml", .file "lr: 1".toUTF8.toList)])])]⟩

def nestedFile : Path :=
  .ofString "/w/sub/a.yaml"

theorem covers_nestedFile (globs : List String) :
    (Host.make (.ofString "/") (["/w"].map .ofString) ["*.yaml"] globs).IsRooted nested ∧
      (Host.make (.ofString "/") (["/w"].map .ofString) ["*.yaml"] globs).Covers nestedFile := by
  have included : nameIncluded nestedFile.name ["*.yaml"] = true := by decide +kernel
  refine ⟨fun root member => ?_, ⟨by decide, by decide⟩, ?_, included⟩
  · rw [List.mem_singleton.mp member]
    decide +kernel
  · exact ⟨.ofString "/w", List.mem_singleton.mpr (by decide +kernel), by decide +kernel⟩

theorem scanned_iff_nested :
    (Path.ofString "/").isAbsolute = true ∧ nested.isProper = true ∧
      (nested.content? nestedFile).isSome = true ∧
      let h := Host.make (.ofString "/") (["/w"].map .ofString) ["*.yaml"] ["**/out/*"]
      let i := Indexer.make h ["**/out/*"]
      h.IsRooted nested ∧ h.Covers nestedFile ∧ h.Hears nestedFile ∧
        h.documentId nestedFile ∈ (i.scan (.ofTree nested)).1.scannedDocuments := by
  have absolute : (Path.ofString "/").isAbsolute = true := by decide
  have proper : nested.isProper = true := by decide +kernel
  have there : (nested.content? nestedFile).isSome = true := by decide +kernel
  obtain ⟨rooted, covered⟩ := covers_nestedFile ["**/out/*"]
  have hears : (Host.make (.ofString "/") (["/w"].map .ofString) ["*.yaml"] ["**/out/*"]).Hears
      nestedFile :=
    ⟨.ofString "/w", ["sub", "a.yaml"], by decide +kernel, by decide +kernel, by decide +kernel⟩
  have trailing : Trailing ["**/out/*"] := by
    intro pattern member
    rw [List.mem_singleton.mp member]
    decide
  obtain ⟨scanned, _, _, always⟩ :=
    scanned_iff absolute ["/w"] ["*.yaml"] ["**/out/*"] rfl proper rooted covered there
  exact ⟨absolute, proper, there, rooted, covered, hears,
    scanned.mpr ⟨hears, always trailing hears⟩⟩

/-- A glob that ends in a slash hides a file from the scan, but not from a notice. -/
theorem scanned_hidden :
    let h := Host.make (.ofString "/") (["/w"].map .ofString) ["*.yaml"] ["sub/"]
    let i := Indexer.make h ["sub/"]
    let told := (i.apply (.ofTree nested) ⟨.created, nestedFile⟩).1
    h.IsRooted nested ∧ h.Covers nestedFile ∧ (nested.content? nestedFile).isSome = true ∧
      (i.scan (.ofTree nested)).1.scannedDocuments = [] ∧ i.isExcluded nestedFile = false ∧
      told.scannedDocuments = ["/w/sub/a.yaml"] ∧
      told.index.definitionsFor "/w/sub/a.yaml" =
        [⟨["sub", "a", "lr"], "/w/sub/a.yaml", ⟨0, 0, 2⟩, by decide⟩] ∧
      (told.refresh (.ofTree nested)).1.index.definitionsFor "/w/sub/a.yaml" = [] := by
  intro h i told
  obtain ⟨rooted, covered⟩ := covers_nestedFile ["sub/"]
  exact ⟨rooted, covered, by decide +kernel⟩

end Indexer

end KeyAtlas
