import KeyAtlas.Proofs.CommandLine.Given

namespace KeyAtlas.CommandLine

open Settings (Arguments DocumentReader Environment Setting effective? fieldsOf load load_eq_ok
  ofDocument_eq_ok readFile yaml)

variable {reader : DocumentReader} {tree : FileTree} {cwd : Path} {e : Environment}
  {s : Settings}

/-- A setting without an option in the command line comes from the environment, the file or its
default, as it does without any arguments. Only the verbosity is zero whatever these have for it. -/
theorem Command.settings_of_omitted {args : List String} {c : Command}
    (got : Command.ofArguments ⟨tree, cwd⟩ args = .ok c) (builds : c.buildsIndex)
    (loaded : c.settings reader tree cwd e = .ok s) :
    ∃ p document fields, given? args = some p ∧
      readFile reader tree cwd c.sources.1 = .ok document ∧ fieldsOf document = .ok fields ∧
      (∀ x : Setting, x ≠ .verbosity → p.Omits x →
        x.read ((e.value? x).or (x.valueIn fields)) = .ok (x.get s)) ∧
      (∀ s₀, load reader tree cwd c.sources.1 e .none = .ok s₀ → ∀ x : Setting, x ≠ .verbosity →
        p.Omits x → x.get s = x.get s₀) ∧
      (p.Omits .verbosity → s.logging.verbosity = 0) ∧
      ∀ x, Unnamed args x → p.Omits x := by
  obtain ⟨p, given, readFrom⟩ := ofArguments_readFrom got builds
  obtain ⟨document, found, made⟩ := load_eq_ok.mp loaded
  obtain ⟨fields, held, _, _, _, reads⟩ := ofDocument_eq_ok.mp made
  have below (x : Setting) (other : x ≠ .verbosity) (omitted : p.Omits x) :
      x.read ((e.value? x).or (x.valueIn fields)) = .ok (x.get s) := by
    have read := reads x
    rwa [effective?, readFrom.value?_eq_none builds omitted other, Option.none_or] at read
  refine ⟨p, document, fields, given, found, held, below, ?_, ?_, fun x => omits_of_unnamed given⟩
  · intro s₀ alone x other omitted
    obtain ⟨document₀, found₀, made₀⟩ := load_eq_ok.mp alone
    cases found.symm.trans found₀
    obtain ⟨fields₀, held₀, _, _, _, reads₀⟩ := ofDocument_eq_ok.mp made₀
    cases held.symm.trans held₀
    have read := reads₀ x
    rw [effective?, Arguments.value?_none, Option.none_or] at read
    exact Except.ok.inj ((below x other omitted).symm.trans read)
  · intro omitted
    have read := reads .verbosity
    rw [effective?, readFrom.value?_verbosity builds, Option.some_or, Option.some_or,
      Parsed.count_eq_zero (omitted _ rfl)] at read
    exact (Except.ok.inj read).symm

theorem Command.settings_of_omitted_excluding :
    let text := "watch:\n  debounce_ms: 50\nlogging:\n  verbose: 2\n"
    let tree : FileTree := ⟨.directory [("c.yaml", .file (Text.Utf8.encode text.toList))]⟩
    let args := ["watch", "-c", "c.yaml", "--exclude", "x"]
    ∃ c s s₀, Command.ofArguments ⟨tree, .ofString "/"⟩ args = .ok c ∧ c.buildsIndex ∧
      c.settings yaml tree (.ofString "/") ⟨"", "", ""⟩ = .ok s ∧
      load yaml tree (.ofString "/") c.sources.1 ⟨"", "", ""⟩ .none = .ok s₀ ∧
      s₀.watch.debounce = 50 ∧ s.watch.debounce = s₀.watch.debounce ∧ s.logging.verbosity = 0 := by
  intro text tree args
  let c : Command := .watch ⟨some (.ofString "c.yaml"), [], ["x"], 0, none, false⟩ none
  have got : Command.ofArguments ⟨tree, .ofString "/"⟩ args = .ok c := by rfl
  have run : (c.settings yaml tree (.ofString "/") ⟨"", "", ""⟩).toOption.map (·.watch.debounce) =
      some 50 := by decide +kernel
  have alone : (load yaml tree (.ofString "/") c.sources.1 ⟨"", "", ""⟩ .none).toOption.map
      (·.watch.debounce) = some 50 := by decide +kernel
  obtain ⟨s, loaded, _⟩ := map_toOption_eq_some.mp run
  obtain ⟨s₀, loaded₀, delay⟩ := map_toOption_eq_some.mp alone
  obtain ⟨p, document, fields, given, _, _, _, alike, silent, _⟩ :=
    Command.settings_of_omitted got rfl loaded
  have options : given? args = some ⟨[⟨"config", some "c.yaml"⟩, ⟨"exclude", some "x"⟩], []⟩ := by
    rfl
  cases options.symm.trans given
  refine ⟨c, s, s₀, got, rfl, loaded, loaded₀, delay, ?_, silent fun name own => ?_⟩
  · refine alike s₀ loaded₀ .debounce nofun fun name own => ?_
    cases own
    rfl
  · cases own
    rfl

/-- The verbosity of the file is discarded though no verbosity is given. -/
theorem Command.verbosity_discarded :
    let text := "logging:\n  verbose: 2\n"
    let tree : FileTree := ⟨.directory [("c.yaml", .file (Text.Utf8.encode text.toList))]⟩
    let args := ["index", "-c", "c.yaml"]
    ∃ c p s s₀, Command.ofArguments ⟨tree, .ofString "/"⟩ args = .ok c ∧ c.buildsIndex ∧
      given? args = some p ∧ p.Omits .verbosity ∧
      c.settings yaml tree (.ofString "/") ⟨"", "", ""⟩ = .ok s ∧
      load yaml tree (.ofString "/") c.sources.1 ⟨"", "", ""⟩ .none = .ok s₀ ∧
      s.logging.verbosity = 0 ∧ s₀.logging.verbosity = 2 := by
  intro text tree args
  let c : Command := .index ⟨some (.ofString "c.yaml"), [], [], 0, none, false⟩ false
  have got : Command.ofArguments ⟨tree, .ofString "/"⟩ args = .ok c := by rfl
  have given : given? args = some ⟨[⟨"config", some "c.yaml"⟩], []⟩ := by rfl
  have run : (c.settings yaml tree (.ofString "/") ⟨"", "", ""⟩).toOption.map (·.logging.verbosity) =
      some 0 := by decide +kernel
  have alone : (load yaml tree (.ofString "/") c.sources.1 ⟨"", "", ""⟩ .none).toOption.map
      (·.logging.verbosity) = some 2 := by decide +kernel
  obtain ⟨s, loaded, silent⟩ := map_toOption_eq_some.mp run
  obtain ⟨s₀, loaded₀, counted⟩ := map_toOption_eq_some.mp alone
  refine ⟨c, _, s, s₀, got, rfl, given, fun name own => ?_, loaded, loaded₀, silent, counted⟩
  cases own
  rfl

end KeyAtlas.CommandLine
