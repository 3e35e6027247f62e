import KeyAtlas.Proofs.Indexer.Exclusion
import Mathlib.Data.String.Basic

namespace KeyAtlas

namespace Node

variable {enters takes : List String → Bool}

mutual

theorem files_of_takes
    (needless : ∀ above below, above ≠ [] → below ≠ [] → takes (above ++ below) = true →
      enters above = true) (node : Node) (proper : node.isProper = true) {place : List String}
    (nonempty : place ≠ []) :
    files enters takes place node = files (fun _ => true) takes place node := by
  cases node with
  | file content => rfl
  | directory children =>
    rw [files, files, if_pos rfl]
    split
    · exact filesAmong_of_takes needless children proper place
    · rename_i refused
      refine (List.eq_nil_iff_forall_not_mem.mpr fun found member => refused ?_).symm
      obtain ⟨rest, deeper, rfl, _, taken, _⟩ :=
        (mem_filesAmong (fun _ => true) takes children proper place found).mp member
      exact needless place rest nonempty deeper taken

theorem filesAmong_of_takes
    (needless : ∀ above below, above ≠ [] → below ≠ [] → takes (above ++ below) = true →
      enters above = true) (children : List (String × Node)) (proper : allProper children = true)
    (place : List String) :
    filesAmong enters takes place children = filesAmong (fun _ => true) takes place children := by
  cases children with
  | nil => rfl
  | cons entry others =>
    obtain ⟨name, node⟩ := entry
    obtain ⟨_, _, nodeProper, othersProper⟩ := allProper_cons_iff.mp proper
    rw [filesAmong, filesAmong, files_of_takes needless node nodeProper (by simp),
      filesAmong_of_takes needless others othersProper place]

end

end Node

namespace Host

variable {h : Host} {t : FileTree}

def listing (h : Host) (t : FileTree) : Except ReadFailure (List Path) :=
  match h.listingFailure? t with
  | some failure => .error failure
  | none => .ok (h.documents t)

def allBelow (h : Host) (t : FileTree) (root : Path) : List Path :=
  match t.find? root with
  | some (.directory children) =>
    (Node.filesAmong (fun _ => true) h.takes [] children).map fun parts =>
      ⟨root.root, root.parts ++ parts⟩
  | _ => []

theorem admits_eq_false_iff {root : Path} :
    admits t root = false ↔ t.leadsToDirectory root = .error .nameTooLong := by
  rw [admits, FileTree.leadsToDirectory]
  split <;> simp [Except.toOption]

theorem listingFailure?_eq (h : Host) (t : FileTree) :
    h.listingFailure? t = if ∃ root ∈ h.roots, t.leadsToDirectory root = .error .nameTooLong then
      some (.system FileError.nameTooLong.message) else none := by
  have admitted : h.roots.all (admits t) = true ↔
      ¬ ∃ root ∈ h.roots, t.leadsToDirectory root = .error .nameTooLong := by
    simp only [List.all_eq_true, ← admits_eq_false_iff]
    push Not
    simp only [Bool.ne_false_iff]
  rw [listingFailure?]
  by_cases long : ∃ root ∈ h.roots, t.leadsToDirectory root = .error .nameTooLong
  · rw [if_neg (fun all => admitted.mp all long), if_pos long]
  · rw [if_pos (admitted.mpr long), if_neg long]

theorem listing_eq (h : Host) (t : FileTree) :
    h.listing t = if ∃ root ∈ h.roots, t.leadsToDirectory root = .error .nameTooLong then
      .error (.system FileError.nameTooLong.message) else .ok (h.documents t) := by
  rw [listing, listingFailure?_eq]
  by_cases long : ∃ root ∈ h.roots, t.leadsToDirectory root = .error .nameTooLong
  · rw [if_pos long, if_pos long]
  · rw [if_neg long, if_neg long]

/-- The paths are in the strict order of their identifiers. -/
def Increasing (h : Host) (ps : List Path) : Prop :=
  ps.Pairwise fun p q => h.documentId p < h.documentId q

instance (h : Host) (ps : List Path) : Decidable (h.Increasing ps) :=
  inferInstanceAs (Decidable (ps.Pairwise fun p q => h.documentId p < h.documentId q))

theorem increasing_documents (h : Host) (t : FileTree) : h.Increasing (h.documents t) := by
  have sorted : ((h.found t).entries.mergeSort fun a b => a.1 ≤ b.1).Pairwise
      fun a b => decide (a.1 ≤ b.1) = true := by
    apply List.pairwise_mergeSort
    · intro a b c first second
      simp only [decide_eq_true_eq] at first second ⊢
      exact le_trans first second
    · intro a b
      simp only [Bool.or_eq_true, decide_eq_true_eq]
      exact le_total a.1 b.1
  have named : ∀ entry ∈ (h.found t).entries.mergeSort fun a b => a.1 ≤ b.1,
      h.documentId entry.2 = entry.1 := by
    intro entry member
    have present := OrderedMap.get?_eq_some_iff.mpr (List.mem_mergeSort.mp member)
    exact ((indexes_found h t).held entry.1 entry.2 present).1
  have ordered : (h.documents t).Pairwise fun p q => h.documentId p ≤ h.documentId q := by
    rw [documents, List.pairwise_map]
    refine sorted.imp_of_mem fun left right before => ?_
    rw [named _ left, named _ right]
    exact of_decide_eq_true before
  have apart : (h.documents t).Pairwise fun p q => h.documentId p ≠ h.documentId q :=
    List.pairwise_map.mp (nodup_documentIds h t)
  exact (ordered.and apart).imp fun facts => lt_of_le_of_ne facts.1 facts.2

theorem Increasing.eq_of_mem_iff {ps qs : List Path} (left : h.Increasing ps)
    (right : h.Increasing qs) (same : ∀ p, p ∈ ps ↔ p ∈ qs) : ps = qs := by
  have distinct : ∀ rs : List Path, h.Increasing rs → rs.Nodup := by
    intro rs increasing
    refine List.Pairwise.imp (fun before same => ?_) increasing
    exact absurd before (same ▸ lt_irrefl _)
  have perm := (List.perm_ext_iff_of_nodup (distinct ps left) (distinct qs right)).mpr same
  apply perm.eq_of_pairwise _ left right
  intro p q _ _ before after
  exact absurd after (lt_asymm before)

theorem documents_of_increasing (sorted : h.Increasing ((h.found t).entries.map Prod.snd)) :
    h.documents t = (h.found t).entries.map Prod.snd := by
  apply Increasing.eq_of_mem_iff (h.increasing_documents t) sorted
  intro p
  rw [documents, List.mem_map, List.mem_map]
  simp only [List.mem_mergeSort]

theorem mem_documents_iff_listed (lexical : h.IsLexical) (proper : t.isProper = true) {p : Path} :
    p ∈ h.documents t ↔ (t.content? p).isSome ∧ nameIncluded p.name h.includePatterns = true ∧
      ∃ root ∈ h.roots, t.isDirectory root = true ∧ h.WalksTo root p := by
  rw [mem_documents_iff lexical proper]
  simp only [mem_documentsBelow_iff_walksTo proper]
  constructor
  · rintro ⟨root, present, there, included, walked⟩
    exact ⟨there, included, root, present, walked⟩
  · rintro ⟨there, included, root, present, walked⟩
    exact ⟨root, present, there, included, walked⟩

theorem enters_of_trailing (trailing : Trailing h.excludePatterns) {above below : List String}
    (nonempty : above ≠ []) (nonempty' : below ≠ [])
    (free : matchesAny ("/".intercalate (above ++ below)) h.excludePatterns = false) :
    matchesAny ("/".intercalate above ++ "/") h.excludePatterns = false := by
  rw [String.intercalate_append_of_ne_nil nonempty nonempty'] at free
  rw [← Bool.not_eq_true] at free ⊢
  intro pruned
  exact free (matchesAny_append trailing pruned _)

theorem documentsBelow_of_trailing (trailing : Trailing h.excludePatterns)
    (proper : t.isProper = true) (root : Path) : h.documentsBelow t root = h.allBelow t root := by
  rw [FileTree.isProper, Bool.and_eq_true] at proper
  have needless : ∀ above below, above ≠ [] → below ≠ [] → h.takes (above ++ below) = true →
      h.enters above = true := by
    intro above below nonempty nonempty' taken
    rw [takes, Bool.and_eq_true, Bool.not_eq_true'] at taken
    rw [enters, enters_of_trailing trailing nonempty nonempty' taken.2]
    rfl
  cases found : t.find? root with
  | none => simp only [documentsBelow, allBelow, found]
  | some node =>
    cases node with
    | file content => simp only [documentsBelow, allBelow, found]
    | directory children =>
      have childrenProper := (Node.isProper_of_find? proper.2 found).1
      simp only [documentsBelow, allBelow, found,
        Node.filesAmong_of_takes needless children childrenProper]

/-- Listing fails just when a root has a name that is too long to be looked up. Otherwise it gives,
in the strict order of their identifiers, the included files that lie below a root which is a
directory, such that no glob stands for the path of the file below that root nor for a directory on
the way, with a slash behind it. Where all globs end in `*`, the directories need not be looked at,
and passing over them leaves the walk from each root as it is. -/
theorem listing_exact {cwd : String} (absolute : (Path.ofString cwd).isAbsolute = true)
    (roots includePatterns globs : List String) {h : Host}
    (made : Host.make (.ofString cwd) (roots.map .ofString) includePatterns globs = h)
    (proper : t.isProper = true) :
    (h.listing t = if ∃ root ∈ h.roots, t.leadsToDirectory root = .error .nameTooLong then
      .error (.system FileError.nameTooLong.message) else .ok (h.documents t)) ∧
    h.Increasing (h.documents t) ∧
    (∀ p, p ∈ h.documents t ↔
      (t.content? p).isSome ∧ nameIncluded p.name includePatterns = true ∧
        ∃ root ∈ h.roots, t.isDirectory root = true ∧ h.WalksTo root p) ∧
    (Trailing globs →
      (∀ above below, above ≠ [] → below ≠ [] →
        matchesAny ("/".intercalate (above ++ below)) globs = false →
        matchesAny ("/".intercalate above ++ "/") globs = false) ∧
      ∀ root, h.documentsBelow t root = h.allBelow t root) := by
  have lexical : h.IsLexical := made ▸ make_isLexical absolute roots includePatterns globs
  have shared : h.excludePatterns = globs := made ▸ rfl
  have included : h.includePatterns = includePatterns := made ▸ rfl
  refine ⟨h.listing_eq t, h.increasing_documents t, fun p => ?_, fun trailing => ⟨?_, ?_⟩⟩
  · rw [← included]
    exact mem_documents_iff_listed lexical proper
  · rw [← shared] at trailing ⊢
    exact fun above below => enters_of_trailing trailing
  · exact documentsBelow_of_trailing (shared ▸ trailing) proper

def overlappingRoots : Host :=
  .make (.ofString "/") (["/w", "/missing", "/w/sub"].map .ofString) ["*.yaml"] ["sub/*"]

theorem listing_exact_overlappingRoots :
    (Path.ofString "/").isAbsolute = true ∧ Indexer.nested.isProper = true ∧
      Trailing ["sub/*"] ∧ Indexer.nestedFile ∈ overlappingRoots.documents Indexer.nested ∧
      overlappingRoots.documentsBelow Indexer.nested (.ofString "/w") =
        overlappingRoots.allBelow Indexer.nested (.ofString "/w") := by
  have absolute : (Path.ofString "/").isAbsolute = true := by decide
  have proper : Indexer.nested.isProper = true := by decide +kernel
  have trailing : Trailing ["sub/*"] := by
    intro pattern member
    rw [List.mem_singleton.mp member]
    decide
  obtain ⟨_, _, listed, needless⟩ := listing_exact (h := overlappingRoots) absolute
    ["/w", "/missing", "/w/sub"] ["*.yaml"] ["sub/*"] rfl proper
  have walked : overlappingRoots.WalksTo (.ofString "/w/sub") Indexer.nestedFile := by
    refine ⟨["a.yaml"], by decide +kernel, by decide +kernel, by decide +kernel, ?_⟩
    intro above below nonempty nonempty' split
    have length := congrArg List.length split
    have positive := List.length_pos_iff.mpr nonempty
    have positive' := List.length_pos_iff.mpr nonempty'
    rw [List.length_append, List.length_singleton] at length
    omega
  exact ⟨absolute, proper, trailing,
    (listed _).mpr ⟨by decide +kernel, by decide +kernel, .ofString "/w/sub", by decide +kernel,
      by decide +kernel, walked⟩,
    (needless trailing).2 _⟩

def longName : String :=
  String.ofList (List.replicate 256 'x')

theorem toList_longName : longName.toList = List.replicate 256 'x' :=
  String.toList_ofList

theorem isPlain_longName : (Path.mk .slash [longName]).IsPlain := by
  have differs : ∀ other : String, other.toList.length ≠ 256 → longName ≠ other := by
    rintro other short rfl
    exact short (by rw [toList_longName, List.length_replicate])
  have slashless : '/' ∉ longName.toList := by
    rw [toList_longName, List.mem_replicate]
    exact fun same => absurd same.2 (by decide)
  refine ⟨by decide, List.forall_mem_singleton.mpr ?_⟩
  exact Path.isName_iff.mpr ⟨⟨differs _ (by decide), differs _ (by decide), slashless⟩,
    differs _ (by decide)⟩

theorem ofString_longName : Path.ofString ("/" ++ longName) = ⟨.slash, [longName]⟩ := by
  rw [← Path.toString_slash_singleton, isPlain_longName.ofString_toString]

theorem leadsToDirectory_longName (proper : t.isProper = true) :
    t.leadsToDirectory ⟨.slash, [longName]⟩ = .error .nameTooLong := by
  have size : longName.utf8ByteSize = 256 :=
    (String.utf8ByteSize_ofList _).trans (by decide +kernel)
  have clean : FileTree.holdsNul longName = false := by
    rw [FileTree.holdsNul, toList_longName, ← Bool.not_eq_true, List.contains_iff_mem,
      List.mem_replicate]
    exact fun same => absurd same.2 (by decide)
  exact FileTree.leadsToDirectory_of_long proper clean (by rw [size]; decide) (by rw [size]; decide)

def longRooted : Host :=
  .make (.ofString "/") (["/w", "/" ++ longName].map .ofString) ["*.yaml"] []

theorem roots_longRooted : longRooted.roots = [.ofString "/w", ⟨.slash, [longName]⟩] := by
  have here : (Path.ofString "/").absolute (.ofString "/w") = .ofString "/w" := by decide
  rw [longRooted, make]
  simp only [List.map_cons, List.map_nil, here, ofString_longName, isPlain_longName.absolute_eq]

theorem longRooted_eq : longRooted =
    ⟨.ofString "/", [.ofString "/w", ⟨.slash, [longName]⟩], ["*.yaml"], []⟩ := by
  rw [← roots_longRooted]
  rfl

theorem listingFailure?_longRooted (proper : t.isProper = true) :
    longRooted.listingFailure? t = some (.system "File name too long") := by
  have present : ⟨.slash, [longName]⟩ ∈ longRooted.roots := by simp [roots_longRooted]
  rw [listingFailure?_eq, if_pos ⟨_, present, leadsToDirectory_longName proper⟩, FileError.message]

/-- A root that is no directory keeps the documents of another one from being listed. -/
theorem listing_overlong :
    longRooted.documents Indexer.nested = [Indexer.nestedFile] ∧
      Indexer.nested.isDirectory (.ofString ("/" ++ longName)) = false ∧
      longRooted.listing Indexer.nested = .error (.system "File name too long") := by
  refine ⟨?_, ?_, ?_⟩
  · rw [longRooted_eq]
    decide +kernel
  · rw [ofString_longName]
    decide +kernel
  · rw [listing, listingFailure?_longRooted (by decide +kernel)]

end Host

end KeyAtlas
