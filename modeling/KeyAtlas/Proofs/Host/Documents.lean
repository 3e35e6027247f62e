import KeyAtlas.Host
import KeyAtlas.Proofs.FileTree.Proper
import KeyAtlas.Proofs.OrderedMap

namespace KeyAtlas

namespace Host

structure IsLexical (h : Host) : Prop where
  absolute : h.cwd.root ≠ .relative
  cwdParts : ∀ part ∈ h.cwd.parts, Path.IsPart part
  roots : ∀ root ∈ h.roots, root.IsPlain

theorem make_isLexical {cwd : String} (absolute : (Path.ofString cwd).isAbsolute = true)
    (roots includePatterns excludePatterns : List String) :
    (make (.ofString cwd) (roots.map .ofString) includePatterns excludePatterns).IsLexical := by
  have rooted : (Path.ofString cwd).root ≠ .relative := by simpa [Path.isAbsolute] using absolute
  refine ⟨rooted, fun _ => Path.isPart_of_mem_ofString, fun root member => ?_⟩
  obtain ⟨given, present, rfl⟩ := List.mem_map.mp member
  obtain ⟨text, _, rfl⟩ := List.mem_map.mp present
  exact Path.absolute_isPlain rooted (fun _ => Path.isPart_of_mem_ofString)
    fun _ => Path.isPart_of_mem_ofString

variable {h : Host}

theorem IsLexical.absolute_isPlain (lexical : h.IsLexical) (text : String) :
    (h.cwd.absolute (.ofString text)).IsPlain :=
  Path.absolute_isPlain lexical.absolute lexical.cwdParts fun _ => Path.isPart_of_mem_ofString

theorem ofString_documentId {p : Path} (plain : (h.cwd.absolute p).IsPlain) :
    Path.ofString (h.documentId p) = h.cwd.absolute p :=
  plain.ofString_toString

theorem documentId_of_isPlain {p : Path} (plain : p.IsPlain) : h.documentId p = p.toString := by
  rw [documentId, KeyAtlas.documentId, plain.absolute_eq]

theorem eq_of_documentId_eq {p q : Path} (plain : p.IsPlain) (plain' : q.IsPlain)
    (same : h.documentId p = h.documentId q) : p = q := by
  rw [documentId_of_isPlain plain, documentId_of_isPlain plain'] at same
  exact plain.eq_of_toString_eq plain' same

theorem rootOf_absolute {p : Path} (plain : (h.cwd.absolute p).IsPlain) :
    h.rootOf (h.cwd.absolute p) = h.rootOf p := by
  rw [rootOf, plain.absolute_eq, rootOf]

theorem place_absolute {p : Path} (plain : (h.cwd.absolute p).IsPlain) :
    h.place (h.cwd.absolute p) = h.place p := by
  rw [place, plain.absolute_eq, rootOf_absolute plain, place]

variable {tree : FileTree}

theorem mem_documentsBelow (proper : tree.isProper = true) {root p : Path} :
    p ∈ h.documentsBelow tree root ↔ p.root = root.root ∧ ∃ rest, rest ≠ [] ∧
      p.parts = root.parts ++ rest ∧ (tree.content? p).isSome ∧ h.takes rest = true ∧
      Node.Passes h.enters [] rest := by
  rw [FileTree.isProper, Bool.and_eq_true] at proper
  obtain ⟨pathRoot, parts⟩ := p
  have below : ∀ rest, tree.content? ⟨pathRoot, root.parts ++ rest⟩ =
      (tree.find? root).bind fun found => found.content? rest := fun rest =>
    Node.content?_append tree.top root.parts rest
  rw [documentsBelow]
  split
  · rename_i children found
    have childrenProper := (Node.isProper_of_find? proper.2 found).1
    rw [List.mem_map]
    constructor
    · intro facts
      obtain ⟨rest, member, same⟩ := facts
      cases same
      obtain ⟨_, nonempty, rfl, there, taken, passes⟩ :=
        (Node.mem_filesAmong h.enters h.takes children childrenProper [] rest).mp member
      refine ⟨rfl, rest, nonempty, rfl, ?_, taken, passes⟩
      rw [below, found]
      exact there
    · intro facts
      obtain ⟨rfl, rest, nonempty, rfl, there, taken, passes⟩ := facts
      rw [below, found] at there
      refine ⟨rest, ?_, rfl⟩
      rw [Node.mem_filesAmong h.enters h.takes children childrenProper]
      exact ⟨rest, nonempty, rfl, there, taken, passes⟩
  · rename_i other
    refine ⟨nofun, ?_⟩
    intro facts
    obtain ⟨rfl, rest, nonempty, rfl, there, _⟩ := facts
    rw [below] at there
    cases found : tree.find? root with
    | none => simp [found] at there
    | some node =>
      cases node with
      | directory children => exact (other children found).elim
      | file content =>
        cases rest with
        | nil => exact absurd rfl nonempty
        | cons name rest => simp [found] at there

theorem isPlain_of_mem_documentsBelow (proper : tree.isProper = true) {root p : Path}
    (plain : root.IsPlain) (member : p ∈ h.documentsBelow tree root) : p.IsPlain := by
  obtain ⟨same, rest, _, _, there, _⟩ := (mem_documentsBelow proper).mp member
  rw [FileTree.isProper, Bool.and_eq_true] at proper
  obtain ⟨content, found⟩ := Option.isSome_iff_exists.mp there
  exact ⟨same ▸ plain.absolute,
    (Node.isProper_of_find? proper.2 (Node.content?_eq_some_iff.mp found)).2⟩

/-- The map holds paths of the list under their identifiers, one for each identifier. -/
structure Indexes (h : Host) (m : OrderedMap String Path) (ps : List Path) : Prop where
  held : ∀ document p, m.get? document = some p → h.documentId p = document ∧ p ∈ ps
  complete : ∀ p ∈ ps, h.documentId p ∈ m.keys

theorem Indexes.insertNew {m : OrderedMap String Path} {ps : List Path} (holds : h.Indexes m ps)
    (p : Path) : h.Indexes (m.insertNew (h.documentId p) p) (ps ++ [p]) := by
  rw [OrderedMap.insertNew]
  split
  · rename_i present
    refine ⟨fun document q found => ?_, fun q member => ?_⟩
    · exact ⟨(holds.held document q found).1, List.mem_append_left _ (holds.held document q found).2⟩
    · rcases List.mem_append.mp member with before | last
      · exact holds.complete q before
      · cases List.mem_singleton.mp last
        exact OrderedMap.contains_iff.mp present
  · refine ⟨fun document q found => ?_, fun q member => ?_⟩
    · rw [OrderedMap.get?_insert] at found
      split at found
      · rename_i same
        cases found
        exact ⟨(eq_of_beq same).symm, List.mem_append_right _ List.mem_cons_self⟩
      · exact ⟨(holds.held document q found).1,
          List.mem_append_left _ (holds.held document q found).2⟩
    · rw [OrderedMap.mem_keys_insert]
      rcases List.mem_append.mp member with before | last
      · exact .inr (holds.complete q before)
      · cases List.mem_singleton.mp last
        exact .inl rfl

theorem Indexes.foldl {m : OrderedMap String Path} {ps : List Path} (holds : h.Indexes m ps)
    (more : List Path) :
    h.Indexes (more.foldl (fun m p => m.insertNew (h.documentId p) p) m) (ps ++ more) := by
  induction more generalizing m ps with
  | nil => simpa using holds
  | cons p rest ih => simpa using ih (holds.insertNew p)

theorem indexes_found (h : Host) (tree : FileTree) :
    h.Indexes (h.found tree) (h.roots.flatMap (h.documentsBelow tree)) := by
  have start : h.Indexes .empty [] := ⟨nofun, nofun⟩
  exact start.foldl _

theorem mem_documents_iff_get? {p : Path} :
    p ∈ h.documents tree ↔ (h.found tree).get? (h.documentId p) = some p := by
  rw [documents, List.mem_map, OrderedMap.get?_eq_some_iff]
  simp only [List.mem_mergeSort]
  constructor
  · intro facts
    obtain ⟨⟨document, q⟩, member, rfl⟩ := facts
    have held := (indexes_found h tree).held document q (OrderedMap.get?_eq_some_iff.mpr member)
    exact held.1 ▸ member
  · intro member
    exact ⟨_, member, rfl⟩

theorem nodup_documentIds (h : Host) (tree : FileTree) :
    ((h.documents tree).map h.documentId).Nodup := by
  have keys : ((h.documents tree).map h.documentId).Perm
      ((h.found tree).entries.map Prod.fst) := by
    rw [documents, List.map_map]
    refine ((List.mergeSort_perm _ _).map _).trans (.of_eq (List.map_congr_left ?_))
    intro ⟨document, p⟩ member
    exact ((indexes_found h tree).held document p (OrderedMap.get?_eq_some_iff.mpr member)).1
  exact keys.nodup_iff.mpr (h.found tree).keys_nodup

theorem isPlain_of_mem_documents (lexical : h.IsLexical) (proper : tree.isProper = true) {p : Path}
    (member : p ∈ h.documents tree) : p.IsPlain := by
  have held := (indexes_found h tree).held _ _ (mem_documents_iff_get?.mp member)
  obtain ⟨root, present, below⟩ := List.mem_flatMap.mp held.2
  exact isPlain_of_mem_documentsBelow proper (lexical.roots root present) below

theorem mem_documents_iff (lexical : h.IsLexical) (proper : tree.isProper = true) {p : Path} :
    p ∈ h.documents tree ↔ ∃ root ∈ h.roots, p ∈ h.documentsBelow tree root := by
  rw [← List.mem_flatMap]
  constructor
  · intro member
    exact ((indexes_found h tree).held _ _ (mem_documents_iff_get?.mp member)).2
  · intro member
    obtain ⟨root, present, below⟩ := List.mem_flatMap.mp member
    have plain := isPlain_of_mem_documentsBelow proper (lexical.roots root present) below
    have key := (indexes_found h tree).complete p member
    cases found : (h.found tree).get? (h.documentId p) with
    | none => exact absurd key (OrderedMap.get?_eq_none_iff.mp found)
    | some q =>
      have held := (indexes_found h tree).held _ _ found
      obtain ⟨other, otherPresent, otherBelow⟩ := List.mem_flatMap.mp held.2
      have otherPlain :=
        isPlain_of_mem_documentsBelow proper (lexical.roots other otherPresent) otherBelow
      have same := eq_of_documentId_eq otherPlain plain held.1
      rw [mem_documents_iff_get?, found, same]

end Host

end KeyAtlas
