import KeyAtlas.Proofs.Glob.Depth
import KeyAtlas.Proofs.Host.Listing

namespace KeyAtlas.Host

def hiddenNames : List String :=
  ["node_modules", ".venv", "venv", "site-packages", ".git", "__pycache__", "outputs", "multirun"]

theorem defaultExcludes_eq : defaultExcludes = hiddenNames.map belowName := by
  decide

theorem isOrdinaryName_of_mem_hiddenNames : ∀ name ∈ hiddenNames, IsOrdinaryName name := by
  decide

variable {h : Host} {t : FileTree} {names : List String}

theorem enters_eq_false_iff (ordinary : ∀ name ∈ names, IsOrdinaryName name)
    (globs : h.excludePatterns = names.map belowName) {parts : List String} (nonempty : parts ≠ [])
    (slashless : ∀ part ∈ parts, '/' ∉ part.toList) :
    h.enters parts = false ↔ ∃ name ∈ names, name ∈ parts := by
  rw [enters, Bool.not_eq_false', globs, matchesAny_belowNames_iff ordinary,
    dropLast_pathNames_directory nonempty slashless]

theorem walksTo_iff (ordinary : ∀ name ∈ names, IsOrdinaryName name)
    (globs : h.excludePatterns = names.map belowName) {root p : Path}
    (slashless : ∀ part ∈ p.parts, '/' ∉ part.toList) :
    h.WalksTo root p ↔ ∃ rest, p.root = root.root ∧ p.parts = root.parts ++ rest ∧
      ∀ name ∈ names, name ∉ rest.dropLast := by
  rw [WalksTo]
  refine exists_congr fun rest => and_congr_right fun _ => and_congr_right fun whole => ?_
  have plain : ∀ part ∈ rest, '/' ∉ part.toList := fun part member =>
    slashless part (whole ▸ List.mem_append_right _ member)
  have file : matchesAny ("/".intercalate rest) h.excludePatterns = false ↔
      ∀ name ∈ names, name ∉ rest.dropLast := by
    rw [← Bool.not_eq_true, globs, matchesAny_belowNames_iff ordinary,
      dropLast_pathNames_intercalate plain]
    push Not
    rfl
  rw [file]
  refine ⟨And.left, fun free => ⟨free, ?_⟩⟩
  -- The names of a directory on the way all stand before the last one of the file.
  rintro above below nonempty nonempty' rfl
  have directory : ∀ part ∈ above, '/' ∉ part.toList := fun part member =>
    plain part (List.mem_append_left _ member)
  rw [← Bool.not_eq_true, globs, matchesAny_belowNames_iff ordinary,
    dropLast_pathNames_directory nonempty directory]
  rintro ⟨name, member, held⟩
  refine free name member ?_
  rw [List.dropLast_append_of_ne_nil nonempty']
  exact List.mem_append_left _ held

theorem slashless_of_content? (proper : t.isProper = true) {p : Path}
    (there : (t.content? p).isSome) : ∀ part ∈ p.parts, '/' ∉ part.toList := by
  rw [FileTree.isProper, Bool.and_eq_true] at proper
  obtain ⟨content, found⟩ := Option.isSome_iff_exists.mp there
  have plain := (Node.isProper_of_find? proper.2 (Node.content?_eq_some_iff.mp found)).2
  exact fun part member => (Path.isName_iff.mp (plain part member)).1.2.2

theorem mem_documentsBelow_iff_unhidden (ordinary : ∀ name ∈ names, IsOrdinaryName name)
    (globs : h.excludePatterns = names.map belowName) (proper : t.isProper = true) {root p : Path} :
    p ∈ h.documentsBelow t root ↔ (t.content? p).isSome ∧
      nameIncluded p.name h.includePatterns = true ∧ t.isDirectory root = true ∧
        ∃ rest, p.root = root.root ∧ p.parts = root.parts ++ rest ∧
          ∀ name ∈ names, name ∉ rest.dropLast := by
  rw [mem_documentsBelow_iff_walksTo proper]
  refine and_congr_right fun there => and_congr_right fun _ => and_congr_right fun _ => ?_
  exact walksTo_iff ordinary globs (slashless_of_content? proper there)

/-- With `**/` in front a glob stands for what it stands for without, at any depth. So the glob that
puts an ordinary name between `**/` and `/**` stands for the paths with this name before their last
one, and the default globs for the paths with one of their eight names there. A walk of a host with
the default globs goes into no directory of such a name or below one, and into every other one. It
takes just the included files that have no such name between the root and their own name, and these
files, from all roots, are the documents. -/
theorem hidden_at_any_depth {cwd : String} (absolute : (Path.ofString cwd).isAbsolute = true)
    (roots includePatterns : List String) {h : Host}
    (made : Host.make (.ofString cwd) (roots.map .ofString) includePatterns defaultExcludes = h)
    (proper : t.isProper = true) :
    (∀ glob path, matchesAny path ["**/" ++ glob] = true ↔
      globMatches glob.toList path.toList = true ∨ ∃ above below : String,
        path = above ++ "/" ++ below ∧ globMatches glob.toList below.toList = true) ∧
    (∀ name path, IsOrdinaryName name →
      (matchesAny path ["**/" ++ name ++ "/**"] = true ↔ name ∈ (pathNames path).dropLast)) ∧
    (∀ path, matchesAny path defaultExcludes = true ↔
      ∃ name ∈ hiddenNames, name ∈ (pathNames path).dropLast) ∧
    (∀ parts, parts ≠ [] → (∀ part ∈ parts, '/' ∉ part.toList) →
      (h.enters parts = false ↔ ∃ name ∈ hiddenNames, name ∈ parts)) ∧
    (∀ root p, p ∈ h.documentsBelow t root ↔ (t.content? p).isSome ∧
      nameIncluded p.name includePatterns = true ∧ t.isDirectory root = true ∧
        ∃ rest, p.root = root.root ∧ p.parts = root.parts ++ rest ∧
          ∀ name ∈ hiddenNames, name ∉ rest.dropLast) ∧
    ∀ p, p ∈ h.documents t ↔ ∃ root ∈ h.roots, p ∈ h.documentsBelow t root := by
  have ordinary := isOrdinaryName_of_mem_hiddenNames
  have globs : h.excludePatterns = hiddenNames.map belowName := made ▸ defaultExcludes_eq
  have included : h.includePatterns = includePatterns := made ▸ rfl
  have lexical : h.IsLexical := made ▸ make_isLexical absolute roots includePatterns defaultExcludes
  refine ⟨matchesAny_anyDepth_iff, fun name path plain => matchesAny_belowName_iff plain path, ?_,
    ?_, fun root p => ?_, fun p => mem_documents_iff lexical proper⟩
  · rw [defaultExcludes_eq]
    exact matchesAny_belowNames_iff ordinary
  · exact fun parts => enters_eq_false_iff ordinary globs
  · rw [← included]
    exact mem_documentsBelow_iff_unhidden ordinary globs proper

def environments : FileTree :=
  ⟨.directory [("w", .directory [
    ("venv2", .directory [("a.yaml", .file "lr: 1".toUTF8.toList)]),
    ("lib", .directory [("venv", .directory [("b.yaml", .file "lr: 1".toUTF8.toList)])])])]⟩

theorem hidden_at_any_depth_environments :
    let h := Host.make (.ofString "/") (["/w"].map .ofString) ["*.yaml"] defaultExcludes
    (Path.ofString "/").isAbsolute = true ∧ environments.isProper = true ∧
      IsOrdinaryName "venv" ∧ matchesAny "lib/venv/b.yaml" ["**/venv/**"] = true ∧
      h.enters ["lib", "venv"] = false ∧
      .ofString "/w/venv2/a.yaml" ∈ h.documents environments ∧
      .ofString "/w/lib/venv/b.yaml" ∉ h.documents environments := by
  intro h
  have absolute : (Path.ofString "/").isAbsolute = true := by decide
  have proper : environments.isProper = true := by decide +kernel
  have plain : IsOrdinaryName "venv" := by decide
  have roots : h.roots = [.ofString "/w"] := by decide
  obtain ⟨-, below, -, entered, walked, listed⟩ :=
    hidden_at_any_depth (h := h) absolute ["/w"] ["*.yaml"] rfl proper
  have held := (below "venv" "lib/venv/b.yaml" plain).mpr (by decide)
  refine ⟨absolute, proper, plain, held, ?_, ?_, ?_⟩
  · exact (entered ["lib", "venv"] (by decide) (by decide)).mpr ⟨"venv", by decide, by decide⟩
  · refine (listed _).mpr ⟨.ofString "/w", by rw [roots]; exact List.mem_cons_self, ?_⟩
    refine (walked _ _).mpr ⟨by decide +kernel, by decide +kernel, by decide +kernel, ?_⟩
    exact ⟨["venv2", "a.yaml"], by decide, by decide, by decide⟩
  · rw [listed, roots]
    rintro ⟨root, member, taken⟩
    rw [List.mem_singleton.mp member, walked] at taken
    obtain ⟨-, -, -, rest, -, whole, free⟩ := taken
    have split : ["w"] ++ ["lib", "venv", "b.yaml"] = ["w"] ++ rest := whole
    rw [← List.append_cancel_left split] at free
    exact free "venv" (by decide) (by decide)

end KeyAtlas.Host
