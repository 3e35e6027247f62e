import KeyAtlas.CommandLine.Run
import KeyAtlas.Proofs.CommandLine.Given
import KeyAtlas.Proofs.Settings.Legible

namespace KeyAtlas.CommandLine

open Settings (DocumentReader EndsReported Environment IsLegible LoadError load load_endsReported
  yaml)

variable {reader : DocumentReader} {cwd : Path} {tree : FileTree} {e : Environment}

namespace Outcome

/-- The command is broken off before it has its settings and its log file. -/
def FailsToLoad (o : Outcome) : Prop :=
  (∃ fault, o.failure = some (.load fault)) ∨ ∃ err, o.failure = some (.logFile err)

/-- The command has its settings and its log file, whatever becomes of it. -/
structure IsSetUp (o : Outcome) : Prop where
  status : o.status ≠ misconfigured
  failure : ¬o.FailsToLoad

end Outcome

namespace Session

theorem finish_isSetUp (s : Session) {status : Nat} (output : String)
    (other : status ≠ Outcome.misconfigured) : (s.finish status output).IsSetUp :=
  ⟨other, by rintro (⟨_, failed⟩ | ⟨_, failed⟩) <;> cases failed⟩

theorem breakOff_isSetUp (s : Session) (failure : QueryError) :
    (s.breakOff (.query failure)).IsSetUp :=
  ⟨nofun, by rintro (⟨_, failed⟩ | ⟨_, failed⟩) <;> cases failed⟩

theorem answer_isSetUp (s : Session) (json : Bool) (asked : String)
    (result : Service Float × Except QueryError (List Match)) :
    (s.answer json asked result).IsSetUp := by
  obtain ⟨service, failure | found⟩ := result
  · exact breakOff_isSetUp _ _
  · rw [answer]
    split
    · exact finish_isSetUp _ _ nofun
    · exact finish_isSetUp _ _ nofun

theorem watch_isSetUp (s : Session) (history : List Happening) : (s.watch history).IsSetUp := by
  rw [watch]
  split
  · exact finish_isSetUp _ _ nofun
  · exact ⟨nofun, by rintro (⟨_, failed⟩ | ⟨_, failed⟩) <;> cases failed⟩

end Session

theorem withScan_cases {silent : Bool} {settings : Settings} {observer : Option Observer}
    {next : Session → ScanStats → Outcome} (sets : ∀ session stats, (next session stats).IsSetUp) :
    (∃ err, openLog cwd tree settings.logging.file = .error err ∧
      withScan cwd tree silent settings observer next = .ofFailure (.logFile err)) ∨
    (∃ opened, openLog cwd tree settings.logging.file = .ok opened) ∧
      (withScan cwd tree silent settings observer next).IsSetUp := by
  rw [withScan, Session.begin?]
  cases openLog cwd tree settings.logging.file with
  | error err => exact .inl ⟨err, rfl, rfl⟩
  | ok opened =>
    refine .inr ⟨⟨opened, rfl⟩, ?_⟩
    rw [Except.map]
    dsimp only
    split
    · exact Session.breakOff_isSetUp _ _
    · exact sets _ _

theorem Command.runWith_cases (cwd : Path) (tree : FileTree) {c : Command} (builds : c.buildsIndex)
    (history : List Happening) (settings : Settings) :
    (∃ err, openLog cwd tree settings.logging.file = .error err ∧
      c.runWith cwd tree history settings = .ofFailure (.logFile err)) ∨
    (∃ opened, openLog cwd tree settings.logging.file = .ok opened) ∧
      (c.runWith cwd tree history settings).IsSetUp := by
  cases c with
  | index common json => exact withScan_cases fun _ _ => Session.finish_isSetUp _ _ nofun
  | resolve common shown reference source =>
    exact withScan_cases fun _ _ => Session.answer_isSetUp _ _ _ _
  | resolveAt common shown file line column =>
    exact withScan_cases fun _ _ => Session.answer_isSetUp _ _ _ _
  | watch common debounce => exact withScan_cases fun _ _ => Session.watch_isSetUp _ _
  | validate _ | version | help => cases builds

theorem Outcome.ofLoadError_reported {fault : LoadError} (reported : fault.isReported) :
    (ofLoadError fault).status = misconfigured ∧ ¬(ofLoadError fault).FailsToLoad := by
  cases fault <;> cases reported
  all_goals exact ⟨rfl, by rintro (⟨_, failed⟩ | ⟨_, failed⟩) <;> cases failed⟩

theorem Outcome.ofLoadError_unreported {fault : LoadError} (unreported : ¬fault.isReported) :
    ofLoadError fault = ofFailure (.load fault) := by
  cases fault <;> first | rfl | exact absurd rfl unreported

/-- With an existing configuration file a command fails to load just if the file is not legible with
its arguments, or the log file cannot be opened, and then its status is that of a question without a
match. The status for a configuration is left to the faults of legible ones. -/
theorem Command.run_configured {path : Path} {content : List UInt8}
    (there : tree.reach (cwd.under path) = .ok (.file content)) :
    (∀ a : Settings.Arguments, a.HasLists →
      (EndsReported (load reader tree cwd (some path) e a) ↔ IsLegible reader e a content)) ∧
    ∀ (c : Command) (history : List Happening), c.buildsIndex → c.refusal? = none →
      c.sources.1 = some path →
      ((c.run reader cwd tree e history).FailsToLoad ↔ ¬IsLegible reader e c.sources.2 content ∨
        ∃ s err, c.settings reader tree cwd e = .ok s ∧
          openLog cwd tree s.logging.file = .error err) ∧
      ((c.run reader cwd tree e history).FailsToLoad →
        (c.run reader cwd tree e history).status = Outcome.noMatch) ∧
      ((c.run reader cwd tree e history).status = Outcome.misconfigured ↔
        IsLegible reader e c.sources.2 content ∧
          ∃ fault, c.settings reader tree cwd e = .error fault) := by
  refine ⟨fun a lists => load_endsReported there lists, fun c history builds accepted own => ?_⟩
  have legible : EndsReported (c.settings reader tree cwd e) ↔
      IsLegible reader e c.sources.2 content := by
    rw [settings, own]
    exact load_endsReported there c.sources_hasLists
  rw [← legible, run, accepted]
  dsimp only
  cases c.settings reader tree cwd e with
  | error fault =>
    by_cases reported : fault.isReported
    · have ends := Settings.endsReported_error.mpr reported
      obtain ⟨status, sound⟩ := Outcome.ofLoadError_reported reported
      simp [ends, status, sound]
    · have ends := mt Settings.endsReported_error.mp reported
      have fails : (Outcome.ofFailure (.load fault)).FailsToLoad := .inl ⟨fault, rfl⟩
      have status : (Outcome.ofFailure (.load fault)).status = Outcome.noMatch := rfl
      simp [Outcome.ofLoadError_unreported reported, ends, fails, status, Outcome.noMatch,
        Outcome.misconfigured]
  | ok s =>
    have ends := EndsReported.ok s
    rcases runWith_cases cwd tree builds history s with
      ⟨err, unopened, broken⟩ | ⟨⟨opened, made⟩, setUp⟩
    · have fails : (Outcome.ofFailure (.logFile err)).FailsToLoad := .inr ⟨err, rfl⟩
      have status : (Outcome.ofFailure (.logFile err)).status = Outcome.noMatch := rfl
      simp [broken, ends, fails, status, unopened, Outcome.noMatch, Outcome.misconfigured]
    · have sound := setUp.failure
      have status := setUp.status
      simp [ends, sound, status, made]

theorem Command.run_configured_octets :
    let tree : FileTree := ⟨.directory [("c.yaml", .file [0xff])]⟩
    let c : Command := .index ⟨some (.ofString "c.yaml"), [], [], 0, none, false⟩ false
    (c.run yaml (.ofString "/") tree ⟨"", "", ""⟩ []).FailsToLoad ∧
      (c.run yaml (.ofString "/") tree ⟨"", "", ""⟩ []).status = Outcome.noMatch := by
  intro tree c
  have there : tree.reach ((Path.ofString "/").under (.ofString "c.yaml")) = .ok (.file [0xff]) := by
    rfl
  obtain ⟨_, commands⟩ := Command.run_configured (e := ⟨"", "", ""⟩) there
  obtain ⟨fails, status, _⟩ := commands c [] rfl rfl rfl
  have illegible : ¬IsLegible yaml ⟨"", "", ""⟩ c.sources.2 [0xff] := by
    rintro ⟨text, document, decoded, _⟩
    cases decoded
  exact ⟨fails.mpr (.inl illegible), status (fails.mpr (.inl illegible))⟩

/-- A section without any fields cannot have globs added, which is not reported. -/
theorem Command.nullSection_unreported :
    let text := "workspace:\n"
    let tree : FileTree := ⟨.directory [("c.yaml", .file (Text.Utf8.encode text.toList))]⟩
    let c : Command := .index ⟨some (.ofString "c.yaml"), [], ["x"], 0, none, false⟩ false
    c.settings yaml tree (.ofString "/") ⟨"", "", ""⟩ = .error (.override .sectionExpected) ∧
      ¬(LoadError.override .sectionExpected).isReported ∧
      (CommandLine.run (.ofString "/") tree ⟨"", "", ""⟩ []
        ["index", "-c", "c.yaml", "--exclude", "x"]).status = Outcome.noMatch := by
  intro text tree c
  have fault : faultOf? (c.settings yaml tree (.ofString "/") ⟨"", "", ""⟩) =
      some (.override .sectionExpected) := by decide +kernel
  exact ⟨faultOf?_eq_some.mp fault, nofun, by decide +kernel⟩

end KeyAtlas.CommandLine
