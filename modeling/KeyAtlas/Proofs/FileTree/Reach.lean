import KeyAtlas.Proofs.FileTree.Proper

namespace KeyAtlas.FileTree

structure Fits (p : Path) : Prop where
  checked : checkNames p = .ok ()
  short : ∀ part ∈ p.parts, part.utf8ByteSize ≤ longestName

theorem stepTo_of_isName {name : String} (isName : Path.isName name = true) (place : List String) :
    stepTo place name = place ++ [name] := by
  obtain ⟨⟨_, noDot, _⟩, noDots⟩ := Path.isName_iff.mp isName
  rw [stepTo, if_neg noDot, if_neg noDots]

variable {t : FileTree}

theorem follow_names {place rest out : List String}
    (names : ∀ part ∈ rest, Path.isName part = true) (followed : t.follow place rest = .ok out) :
    out = place ++ rest ∧ ∀ part ∈ rest, part.utf8ByteSize ≤ longestName := by
  induction rest generalizing place with
  | nil =>
    cases followed
    exact ⟨(List.append_nil _).symm, nofun⟩
  | cons part rest ih =>
    obtain ⟨isName, restNames⟩ := List.forall_mem_cons.mp names
    rw [follow, stepTo_of_isName isName] at followed
    split at followed
    · cases followed
    · cases followed
    · split at followed
      · cases followed
      · rename_i short
        obtain ⟨same, restShort⟩ := ih restNames followed
        refine ⟨by simpa using same, List.forall_mem_cons.mpr ⟨by omega, restShort⟩⟩

theorem follow_of_find? {place rest : List String} {node : Node}
    (names : ∀ part ∈ rest, Path.isName part = true)
    (short : ∀ part ∈ rest, part.utf8ByteSize ≤ longestName)
    (there : t.top.find? (place ++ rest) = some node) :
    t.follow place rest = .ok (place ++ rest) := by
  induction rest generalizing place with
  | nil => rw [follow, List.append_nil]
  | cons part rest ih =>
    obtain ⟨isName, restNames⟩ := List.forall_mem_cons.mp names
    obtain ⟨partShort, restShort⟩ := List.forall_mem_cons.mp short
    have next : place ++ part :: rest = place ++ [part] ++ rest := by simp
    have onward := ih restNames restShort (next ▸ there)
    rw [Node.find?_append] at there
    rw [follow, stepTo_of_isName isName]
    cases found : t.top.find? place with
    | none => simp [found] at there
    | some above =>
      cases above with
      | file content => simp [found, Node.find?] at there
      | directory children =>
        have fits : ¬ longestName < part.utf8ByteSize := by omega
        simp only [fits, if_false]
        rw [onward, next]

theorem locate_names {p : Path} (names : ∀ part ∈ p.parts, Path.isName part = true)
    {place : List String} (located : t.locate p = .ok place) : place = p.parts ∧ Fits p := by
  rw [locate] at located
  cases checked : checkNames p with
  | error e => simp [checked, bind, Except.bind] at located
  | ok done =>
    simp only [checked, bind, Except.bind] at located
    obtain ⟨same, short⟩ := follow_names names located
    exact ⟨same, checked, short⟩

theorem reach_eq_ok_iff {p : Path} (names : ∀ part ∈ p.parts, Path.isName part = true)
    {node : Node} : t.reach p = .ok node ↔ Fits p ∧ t.find? p = some node := by
  constructor
  · intro reached
    rw [reach] at reached
    cases located : t.locate p with
    | error e => simp [located, bind, Except.bind] at reached
    | ok place =>
      obtain ⟨rfl, fits⟩ := locate_names names located
      simp only [located, bind, Except.bind] at reached
      cases found : t.top.find? p.parts with
      | none => simp [found, throw, throwThe, MonadExceptOf.throw] at reached
      | some there =>
        simp only [found, pure, Except.pure] at reached
        cases reached
        exact ⟨fits, found⟩
  · intro facts
    obtain ⟨fits, found⟩ := facts
    have there : t.top.find? ([] ++ p.parts) = some node := found
    have followed := follow_of_find? names fits.short there
    simp only [reach, locate, fits.checked, bind, Except.bind, followed, there, pure, Except.pure]

theorem leadsToDirectory_iff {p : Path} (names : ∀ part ∈ p.parts, Path.isName part = true) :
    t.leadsToDirectory p = .ok true ↔ Fits p ∧ t.isDirectory p = true := by
  rw [leadsToDirectory, isDirectory, Option.any_eq_true]
  constructor
  · intro leads
    split at leads
    · rename_i node reached
      obtain ⟨fits, found⟩ := (reach_eq_ok_iff names).mp reached
      exact ⟨fits, node, found, Except.ok.inj leads⟩
    · cases leads
    · cases leads
  · intro facts
    obtain ⟨fits, node, found, directory⟩ := facts
    have reached := (reach_eq_ok_iff names).mpr ⟨fits, found⟩
    simp only [reached, directory]

/-- A directory with a name that is too long cannot even be told to be missing. -/
theorem leadsToDirectory_of_long (proper : t.isProper = true) {name : String}
    (clean : holdsNul name = false) (long : longestName < name.utf8ByteSize)
    (short : name.utf8ByteSize < longestPath) :
    t.leadsToDirectory ⟨.slash, [name]⟩ = .error .nameTooLong := by
  have fits : ¬ longestPath < (Path.mk .slash [name]).toString.utf8ByteSize := by
    have slash : "/".utf8ByteSize = 1 := by decide
    rw [Path.toString_slash_singleton, String.utf8ByteSize_append]
    omega
  have checked : checkNames ⟨.slash, [name]⟩ = .ok () := by
    rw [checkNames, List.any_cons, clean, List.any_nil, Bool.or_false, if_neg Bool.false_ne_true,
      if_neg fits]
  rw [isProper, Bool.and_eq_true] at proper
  cases top : t.top with
  | file content => simp [top, Node.isDirectory] at proper
  | directory children =>
    simp [leadsToDirectory, reach, locate, checked, follow, top, long, bind, Except.bind]

end KeyAtlas.FileTree
