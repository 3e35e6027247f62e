import KeyAtlas.Proofs.FileTree.Reach
import KeyAtlas.Proofs.Glob.Trailing
import KeyAtlas.Proofs.Host.Root
import KeyAtlas.Proofs.Indexer.Contents

namespace KeyAtlas

namespace Host

variable {h : Host} {t : FileTree}

def IsRooted (h : Host) (t : FileTree) : Prop :=
  ∀ root ∈ h.roots, t.leadsToDirectory root = .ok true

theorem IsRooted.listable (rooted : h.IsRooted t) : h.listingFailure? t = none := by
  rw [listingFailure?, if_pos]
  refine List.all_eq_true.mpr fun root present => ?_
  rw [admits, rooted root present]
  rfl

theorem IsRooted.ne_nil (rooted : h.IsRooted t) (lexical : h.IsLexical) {root p : Path}
    (present : root ∈ h.roots) {rest : List String} (whole : p.parts = root.parts ++ rest)
    (there : (t.content? p).isSome) : rest ≠ [] := by
  intro empty
  subst empty
  have directory := ((FileTree.leadsToDirectory_iff (lexical.roots root present).names).mp
    (rooted root present)).2
  obtain ⟨content, stands⟩ := Option.isSome_iff_exists.mp there
  have found := Node.content?_eq_some_iff.mp stands
  rw [whole, List.append_nil] at found
  rw [FileTree.isDirectory, FileTree.find?, found] at directory
  cases directory

/-- A plain path under a root whose name is included. -/
structure Covers (h : Host) (p : Path) : Prop where
  plain : p.IsPlain
  below : ∃ root ∈ h.roots, p.isWithin root = true
  included : nameIncluded p.name h.includePatterns = true

def meaning (h : Host) (p : Path) (content : Option (List UInt8)) : List Definition :=
  match content.bind Text.Utf8.decode? with
  | none => []
  | some text => Document.definitions (h.documentId p) (h.place p) (Text.unifyLineEnds [] text)

theorem defined_of_fits {p : Path} (plain : p.IsPlain) (fits : FileTree.Fits p) :
    h.defined (.ofTree t) p = h.meaning p (t.content? p) := by
  rw [defined, contribution, read, Disk.ofTree, plain.under]
  cases there : t.content? p with
  | none =>
    have noFile : ∀ content, t.reach p ≠ .ok (.file content) := by
      intro content reached
      have found := ((FileTree.reach_eq_ok_iff plain.names).mp reached).2
      have stands : t.content? p = some content := Node.content?_eq_some_iff.mpr found
      rw [there] at stands
      cases stands
    simp only [meaning, Option.bind_none]
    split
    · rename_i content reached
      exact (noFile content reached).elim
    · rfl
    · rfl
  | some content =>
    have found := Node.content?_eq_some_iff.mp there
    have reached := (FileTree.reach_eq_ok_iff plain.names).mpr ⟨fits, found⟩
    simp only [reached, meaning, Option.bind_some]
    cases Text.Utf8.decode? content <;> rfl

theorem defined_of_not_fits {p : Path} (plain : p.IsPlain) (long : ¬ FileTree.Fits p) :
    h.defined (.ofTree t) p = [] := by
  rw [defined, contribution, read, Disk.ofTree, plain.under]
  dsimp only
  split
  · rename_i content reached
    exact (long ((FileTree.reach_eq_ok_iff plain.names).mp reached).1).elim
  · rfl
  · rfl

theorem defined_congr {t' : FileTree} {p : Path} (plain : p.IsPlain)
    (same : t.content? p = t'.content? p) :
    h.defined (.ofTree t) p = h.defined (.ofTree t') p := by
  by_cases fits : FileTree.Fits p
  · rw [defined_of_fits plain fits, defined_of_fits plain fits, same]
  · rw [defined_of_not_fits plain fits, defined_of_not_fits plain fits]

theorem defined_of_absent {p : Path} (plain : p.IsPlain) (absent : t.content? p = none) :
    h.defined (.ofTree t) p = [] := by
  by_cases fits : FileTree.Fits p
  · rw [defined_of_fits plain fits, absent]
    rfl
  · exact defined_of_not_fits plain fits

theorem Covers.rootOf {p : Path} (covered : h.Covers p) :
    ∃ root ∈ h.roots, h.rootOf p = some root ∧ p.isWithin root = true := by
  have lies : (h.rootOf p).isSome = true := by
    rw [Host.rootOf, isSome_foldl_deeper, covered.plain.absolute_eq]
    exact List.any_eq_true.mpr covered.below
  obtain ⟨root, found⟩ := Option.isSome_iff_exists.mp lies
  have is := rootOf_eq_some_iff.mp found
  exact ⟨root, is.listed, found, covered.plain.absolute_eq h.cwd ▸ is.contains⟩

theorem passes_of_not_excluded (trailing : Trailing h.excludePatterns) {rest : List String}
    (above : List String)
    (kept : matchesAny ("/".intercalate (above ++ rest)) h.excludePatterns = false) :
    Node.Passes h.enters above rest := by
  induction rest generalizing above with
  | nil => trivial
  | cons name rest ih =>
    cases rest with
    | nil => trivial
    | cons next rest =>
      have same : above ++ name :: next :: rest = above ++ [name] ++ next :: rest := by simp
      rw [same] at kept
      refine ⟨?_, ih (above ++ [name]) kept⟩
      rw [enters, Bool.not_eq_true', ← Bool.not_eq_true]
      intro pruned
      rw [String.intercalate_append_of_ne_nil (by simp) (by simp),
        matchesAny_append trailing pruned] at kept
      cases kept

end Host

namespace Indexer

variable {i : Indexer} {t : FileTree}

/-- The host of an indexer shares its globs, which end in `*`, and has directories as its roots. -/
structure Suits (i : Indexer) (t : FileTree) : Prop where
  lexical : i.host.IsLexical
  shared : i.host.excludePatterns = i.excludePatterns
  trailing : Trailing i.excludePatterns
  proper : t.isProper = true
  rooted : i.host.IsRooted t

theorem isExcluded_below {p root : Path} {rest : List String} (plain : p.IsPlain)
    (deepest : i.host.rootOf p = some root) (whole : p.parts = root.parts ++ rest)
    (nonempty : rest ≠ []) :
    i.isExcluded p = matchesAny ("/".intercalate rest) i.excludePatterns := by
  have text : Path.relativeText rest = "/".intercalate rest := by
    rw [Path.relativeText, Path.toString, if_neg (fun empty => nonempty empty.2)]
    exact String.empty_append
  rw [isExcluded, plain.absolute_eq]
  simp only [deepest, whole, List.drop_left, text]

theorem Suits.covers_of_mem_targets (suits : i.Suits t) {p : Path} (member : p ∈ i.targets t) :
    i.host.Covers p ∧ i.isExcluded p = false ∧ (t.content? p).isSome := by
  obtain ⟨listed, kept⟩ := List.mem_filter.mp member
  obtain ⟨root, present, below⟩ := (Host.mem_documents_iff suits.lexical suits.proper).mp listed
  obtain ⟨same, rest, nonempty, whole, there, taken, _⟩ :=
    (Host.mem_documentsBelow suits.proper).mp below
  have name : p.name = rest.getLast?.getD "" := by
    rw [Path.name, whole, List.getLast?_append_of_ne_nil _ nonempty]
  rw [Host.takes, ← name, Bool.and_eq_true] at taken
  refine ⟨⟨?_, ⟨root, present, Path.isWithin_iff.mpr ⟨same, rest, whole⟩⟩, taken.1⟩, ?_, there⟩
  · exact Host.isPlain_of_mem_documents suits.lexical suits.proper listed
  · simpa using kept

theorem Suits.mem_targets (suits : i.Suits t) {p : Path} (covered : i.host.Covers p)
    (kept : i.isExcluded p = false) (there : (t.content? p).isSome) : p ∈ i.targets t := by
  obtain ⟨root, present, deepest, within⟩ := covered.rootOf
  obtain ⟨same, rest, whole⟩ := Path.isWithin_iff.mp within
  have nonempty := suits.rooted.ne_nil suits.lexical present whole there
  have free : matchesAny ("/".intercalate rest) i.host.excludePatterns = false := by
    rw [suits.shared, ← isExcluded_below covered.plain deepest whole nonempty]
    exact kept
  have name : p.name = rest.getLast?.getD "" := by
    rw [Path.name, whole, List.getLast?_append_of_ne_nil _ nonempty]
  have taken : i.host.takes rest = true := by
    rw [Host.takes, ← name, covered.included, free]
    rfl
  have below : p ∈ i.host.documentsBelow t root := by
    refine (Host.mem_documentsBelow suits.proper).mpr
      ⟨same, rest, nonempty, whole, there, taken, ?_⟩
    exact Host.passes_of_not_excluded (suits.shared ▸ suits.trailing) [] free
  refine List.mem_filter.mpr ⟨?_, by simp [kept]⟩
  exact (Host.mem_documents_iff suits.lexical suits.proper).mpr ⟨root, present, below⟩

theorem Suits.listed? (suits : i.Suits t) (document : String) :
    i.listed? t document = (i.targets t).find? fun p => i.host.documentId p == document := by
  rw [Indexer.listed?, suits.rooted.listable]

theorem Suits.scanFinds (suits : i.Suits t) {p : Path} (covered : i.host.Covers p)
    (kept : i.isExcluded p = false) :
    i.scanFinds (.ofTree t) (i.host.documentId p) = i.host.defined (.ofTree t) p := by
  rw [Indexer.scanFinds, Disk.ofTree, suits.listed?]
  cases found : (i.targets t).find? fun q => i.host.documentId q == i.host.documentId p with
  | none =>
    have absent : t.content? p = none := by
      by_contra there
      have member := suits.mem_targets covered kept (Option.isSome_iff_ne_none.mpr there)
      exact List.find?_eq_none.mp found p member (beq_self_eq_true _)
    exact (Host.defined_of_absent covered.plain absent).symm
  | some q =>
    have listed := suits.covers_of_mem_targets (List.mem_of_find?_eq_some found)
    have named : i.host.documentId q = i.host.documentId p := eq_of_beq (List.find?_some found :)
    rw [Host.eq_of_documentId_eq listed.1.plain covered.plain named]
    rfl

theorem Suits.covers_of_scanFinds (suits : i.Suits t) {document : String}
    (found : i.scanFinds (.ofTree t) document ≠ []) :
    ∃ p, i.host.Covers p ∧ i.isExcluded p = false ∧ i.host.documentId p = document := by
  cases listed : i.listed? t document with
  | none =>
    rw [Indexer.scanFinds, Disk.ofTree, listed] at found
    exact absurd rfl found
  | some p =>
    obtain ⟨member, named⟩ := mem_targets_of_listed? listed
    have covered := suits.covers_of_mem_targets member
    exact ⟨p, covered.1, covered.2.1, named⟩

end Indexer

end KeyAtlas
