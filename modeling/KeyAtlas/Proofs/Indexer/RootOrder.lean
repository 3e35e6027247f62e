import KeyAtlas.Proofs.Host.Listing
import KeyAtlas.Proofs.Indexer.LastTouch

namespace KeyAtlas

namespace Host

def withRoots (h : Host) (roots : List Path) : Host :=
  { h with roots := roots }

variable {h : Host} {roots : List Path} (same : ∀ root, root ∈ roots ↔ root ∈ h.roots)

theorem rootOf_eq_none_iff {p : Path} :
    h.rootOf p = none ↔ ∀ root ∈ h.roots, (h.cwd.absolute p).isWithin root = false := by
  rw [← Option.not_isSome_iff_eq_none, rootOf, isSome_foldl_deeper]
  simp

include same

theorem isRootOf_withRoots_iff {root p : Path} :
    (h.withRoots roots).IsRootOf root p ↔ h.IsRootOf root p := by
  constructor
  · intro is
    exact ⟨(same root).mp is.listed, is.contains,
      fun other present => is.deepest other ((same other).mpr present)⟩
  · intro is
    exact ⟨(same root).mpr is.listed, is.contains,
      fun other present => is.deepest other ((same other).mp present)⟩

theorem rootOf_withRoots (p : Path) : (h.withRoots roots).rootOf p = h.rootOf p := by
  apply Option.ext
  intro root
  rw [rootOf_eq_some_iff, rootOf_eq_some_iff, isRootOf_withRoots_iff same]

theorem place_withRoots (p : Path) : (h.withRoots roots).place p = h.place p := by
  rw [place, rootOf_withRoots same]
  rfl

theorem contribution_withRoots (disk : Disk) (p : Path) :
    (h.withRoots roots).contribution disk p = h.contribution disk p := by
  rw [contribution, place_withRoots same]
  rfl

theorem IsLexical.withRoots (lexical : h.IsLexical) : (h.withRoots roots).IsLexical :=
  ⟨lexical.absolute, lexical.cwdParts, fun root present => lexical.roots root ((same root).mp present)⟩

variable {t : FileTree}

theorem documents_withRoots (lexical : h.IsLexical) (proper : t.isProper = true) :
    (h.withRoots roots).documents t = h.documents t := by
  apply Increasing.eq_of_mem_iff ((h.withRoots roots).increasing_documents t)
    (h.increasing_documents t)
  intro p
  rw [mem_documents_iff (lexical.withRoots same) proper, mem_documents_iff lexical proper]
  exact exists_congr fun root => and_congr_left fun _ => same root

theorem listingFailure?_withRoots :
    (h.withRoots roots).listingFailure? t = h.listingFailure? t := by
  have all : roots.all (admits t) = h.roots.all (admits t) := by
    rw [Bool.eq_iff_iff, List.all_eq_true, List.all_eq_true]
    exact forall_congr' fun root => imp_congr_left (same root)
  rw [listingFailure?, withRoots, all, listingFailure?]

theorem listing_withRoots (lexical : h.IsLexical) (proper : t.isProper = true) :
    (h.withRoots roots).listing t = h.listing t := by
  rw [listing, listingFailure?_withRoots same, documents_withRoots same lexical proper, listing]

end Host

namespace Indexer

def withRoots (i : Indexer) (roots : List Path) : Indexer :=
  { i with host := i.host.withRoots roots }

section

variable {i : Indexer} {roots : List Path} (same : ∀ root, root ∈ roots ↔ root ∈ i.host.roots)

theorem load_withRoots (i : Indexer) (roots : List Path) (document : String)
    (outcome : Except ReadFailure (List Definition)) :
    (i.withRoots roots).load document outcome =
      ((i.load document outcome).1.withRoots roots, (i.load document outcome).2) := by
  cases outcome with
  | ok definitions => rfl
  | error failure =>
    rw [load, load]
    cases failure.isContained <;> rfl

include same

theorem isExcluded_withRoots (p : Path) : (i.withRoots roots).isExcluded p = i.isExcluded p := by
  have rootOf := Host.rootOf_withRoots same ((i.withRoots roots).host.cwd.absolute p)
  rw [isExcluded, isExcluded]
  simp only [withRoots] at rootOf ⊢
  rw [rootOf]
  rfl

theorem targets_withRoots (lexical : i.host.IsLexical) {t : FileTree} (proper : t.isProper = true) :
    (i.withRoots roots).targets t = i.targets t := by
  have documents := Host.documents_withRoots same lexical proper
  rw [targets, targets, ← documents]
  exact List.filter_congr fun p _ => congrArg _ (isExcluded_withRoots same p)

theorem loadAll_withRoots (disk : Disk) (ps : List Path) :
    (i.withRoots roots).loadAll disk ps =
      ((i.loadAll disk ps).1.withRoots roots, (i.loadAll disk ps).2) := by
  induction ps generalizing i with
  | nil => rfl
  | cons p rest ih =>
    have frame := i.load_frame (i.host.documentId p) (i.host.contribution disk p)
    have loaded := i.load_withRoots roots (i.host.documentId p) (i.host.contribution disk p)
    have reads : (i.withRoots roots).host.contribution disk p = i.host.contribution disk p :=
      Host.contribution_withRoots same disk p
    have named : (i.withRoots roots).host.documentId p = i.host.documentId p := rfl
    -- Both runs take the same step: the roots decide neither what is read nor under which name.
    cases result : i.load (i.host.documentId p) (i.host.contribution disk p) with
    | mk next outcome =>
      rw [result] at frame loaded
      have later := ih (i := next) (by rwa [frame.1])
      cases outcome with
      | error failure => simp only [loadAll, reads, named, loaded, result]
      | ok read => simp only [loadAll, reads, named, loaded, result, later]

theorem scan_withRoots (lexical : i.host.IsLexical) {disk : Disk}
    (proper : disk.tree.isProper = true) :
    (i.withRoots roots).scan disk = ((i.scan disk).1.withRoots roots, (i.scan disk).2) := by
  have targets := targets_withRoots same lexical proper
  have listing : (i.withRoots roots).host.listingFailure? disk.tree =
      i.host.listingFailure? disk.tree := Host.listingFailure?_withRoots same
  have loaded := loadAll_withRoots same disk (i.targets disk.tree)
  simp only [scan, targets, listing, loaded]
  cases i.host.listingFailure? disk.tree with
  | some failure => rfl
  | none =>
    cases i.loadAll disk (i.targets disk.tree) with
    | mk next outcome => cases outcome <;> rfl

end

/-- Two hosts whose roots are the same but for their order and for how often each is given take every
path to lie below the same root, the only one with the most parts of those that contain it, and none
just when none does. They place every document alike and list the same documents, and a first scan
ends alike over both and leaves the same definitions of every document. -/
theorem scan_rootOrder {cwd : String} (absolute : (Path.ofString cwd).isAbsolute = true)
    (roots roots' includePatterns globs : List String) {h h' : Host}
    (made : Host.make (.ofString cwd) (roots.map .ofString) includePatterns globs = h)
    (made' : Host.make (.ofString cwd) (roots'.map .ofString) includePatterns globs = h')
    (same : ∀ root, root ∈ h'.roots ↔ root ∈ h.roots)
    (excludePatterns : List String) (historyLimit : Int) {disk : Disk}
    (proper : disk.tree.isProper = true) :
    (∀ p, (∀ root, h.rootOf p = some root ↔ h.IsRootOf root p) ∧
      (h.rootOf p = none ↔ ∀ root ∈ h.roots, (h.cwd.absolute p).isWithin root = false) ∧
      h'.rootOf p = h.rootOf p ∧ h'.place p = h.place p) ∧
    h'.listing disk.tree = h.listing disk.tree ∧
    let first := (World.initial h excludePatterns historyLimit disk).indexer.scan disk
    let second := (World.initial h' excludePatterns historyLimit disk).indexer.scan disk
    second.2 = first.2 ∧ second.1.scannedDocuments = first.1.scannedDocuments ∧
      ∀ document, second.1.index.definitionsFor document = first.1.index.definitionsFor document := by
  have lexical : h.IsLexical := made ▸ Host.make_isLexical absolute roots includePatterns globs
  have exchanged : h' = h.withRoots h'.roots := by rw [← made, ← made']; rfl
  generalize h'.roots = others at same exchanged
  subst exchanged
  have scanned := scan_withRoots (i := (World.initial h excludePatterns historyLimit disk).indexer)
    same lexical proper
  refine ⟨fun p => ⟨fun root => Host.rootOf_eq_some_iff, Host.rootOf_eq_none_iff,
    Host.rootOf_withRoots same p, Host.place_withRoots same p⟩,
    Host.listing_withRoots same lexical proper, ?_, ?_, fun document => ?_⟩
  · exact (congrArg Prod.snd scanned :)
  · exact congrArg (fun result => result.1.scannedDocuments) scanned
  · exact congrArg (fun result => result.1.index.definitionsFor document) scanned

theorem scan_rootOrder_nested :
    let h := Host.make (.ofString "/") (["/w", "/w/sub", "/w"].map .ofString) ["*.yaml"] []
    let h' := Host.make (.ofString "/") (["w/sub", "/w"].map .ofString) ["*.yaml"] []
    (Path.ofString "/").isAbsolute = true ∧ nested.isProper = true ∧
      (∀ root, root ∈ h'.roots ↔ root ∈ h.roots) ∧ h'.rootOf nestedFile = h.rootOf nestedFile ∧
      h'.listing nested = h.listing nested := by
  have absolute : (Path.ofString "/").isAbsolute = true := by decide
  have proper : (Disk.ofTree nested).tree.isProper = true := by decide +kernel
  have same : ∀ root, root ∈ ["w/sub", "/w"].map (Path.absolute (.ofString "/") ∘ .ofString) ↔
      root ∈ ["/w", "/w/sub", "/w"].map (Path.absolute (.ofString "/") ∘ .ofString) := by
    have inner : (Path.ofString "/").absolute (.ofString "w/sub") =
        (Path.ofString "/").absolute (.ofString "/w/sub") := by decide +kernel
    intro root
    simp only [List.map_cons, List.map_nil, Function.comp_apply, inner, List.mem_cons,
      List.not_mem_nil]
    tauto
  have alike := scan_rootOrder absolute ["/w", "/w/sub", "/w"] ["w/sub", "/w"] ["*.yaml"] [] rfl rfl
    same [] 3 proper
  exact ⟨absolute, proper, same, (alike.1 nestedFile).2.2.1, alike.2.1⟩

end Indexer

end KeyAtlas
