import KeyAtlas.Proofs.Indexer.Visited

/-!
What an indexer holds of a document is what the last operation that touched it has read, whatever
the order of operations and of changes to the disk. A scan touches the documents that it visits, an
update that no glob excludes touches its own document, and a document is forgotten when the indexer
is disposed or refreshed without visiting it.
-/

namespace KeyAtlas

/-- What has last become of a document. -/
inductive Touch where
  | untouched
  | deleted
  | read (outcome : Except ReadFailure (List Char))

def Touch.definitions (h : Host) (document : String) : Touch → List Definition
  | .read (.ok text) => Document.definitions document (h.place (.ofString document)) text
  | .read (.error _) | .deleted | .untouched => []

structure World where
  indexer : Indexer
  disk : Disk

inductive Action where
  | scan
  | refresh
  | dispose
  | update (kind : Update.Kind) (path : String)
  /-- Any change of the files, and of what can be read of them. -/
  | edit (disk : Disk)

namespace World

def initial (h : Host) (excludePatterns : List String) (historyLimit : Int) (disk : Disk) : World :=
  ⟨{ Indexer.make h excludePatterns with historyLimit := historyLimit }, disk⟩

def perform (w : World) : Action → World
  | .scan => { w with indexer := (w.indexer.scan w.disk).1 }
  | .refresh => { w with indexer := (w.indexer.refresh w.disk).1 }
  | .dispose => { w with indexer := w.indexer.dispose }
  | .update kind path => { w with indexer := (w.indexer.apply w.disk ⟨kind, .ofString path⟩).1 }
  | .edit disk => { w with disk := disk }

/-- A scan that is no refresh starts from an index that holds nothing. Reading can only fail in ways
that a scan goes on after. -/
def Permits (w : World) : Action → Prop
  | .scan => w.indexer.index.size = 0
  | .edit disk => disk.tree.isProper = true ∧ disk.IsContained
  | .refresh | .dispose | .update _ _ => True

def reading (w : World) (p : Path) : Touch :=
  .read (w.indexer.host.read w.disk p)

def updating (w : World) (p : Path) : Update.Kind → Touch
  | .deleted => .deleted
  | .created | .changed => w.reading p

/-- What becomes of a document by an action, given what had become of it before. -/
def touch (w : World) (action : Action) (before : Touch) (document : String) : Touch :=
  match action with
  | .scan => ((w.indexer.listed? w.disk.tree document).map w.reading).getD before
  | .refresh => ((w.indexer.listed? w.disk.tree document).map w.reading).getD .untouched
  | .dispose => .untouched
  | .update kind path =>
    let p := Path.ofString path
    if w.indexer.isExcluded p = false ∧ w.indexer.host.documentId p = document then
      w.updating p kind
    else before
  | .edit _ => before

/-- The worlds that permitted actions lead to, with what has last become of each document. -/
inductive Reaches (s : World) : World → (String → Touch) → Prop where
  | start : Reaches s s fun _ => .untouched
  | next {w touched} (action : Action) : Reaches s w touched → w.Permits action →
      Reaches s (w.perform action) fun document => w.touch action (touched document) document

theorem perform_frame (w : World) (action : Action) :
    (w.perform action).indexer.host = w.indexer.host ∧
      (w.perform action).indexer.excludePatterns = w.indexer.excludePatterns := by
  cases action with
  | scan => exact w.indexer.scan_frame w.disk
  | refresh => exact w.indexer.reset.scan_frame w.disk
  | dispose => exact ⟨rfl, rfl⟩
  | update kind path => exact w.indexer.apply_frame w.disk _
  | edit disk => exact ⟨rfl, rfl⟩

def Admits (w : World) (document : String) : Prop :=
  ∃ p, (w.indexer.host.cwd.absolute p).IsPlain ∧ w.indexer.host.documentId p = document ∧
    w.indexer.isExcluded p = false

/-- The index holds of each document what has last become of it. -/
structure Agrees (w : World) (touched : String → Touch) : Prop where
  lexical : w.indexer.host.IsLexical
  proper : w.disk.tree.isProper = true
  contained : w.disk.IsContained
  sound : w.indexer.index.Sound
  contents : ∀ document, w.indexer.index.definitionsFor document =
    (touched document).definitions w.indexer.host document
  admitted : ∀ document, touched document ≠ .untouched → w.Admits document

variable {w : World} {touched : String → Touch}

theorem definitions_reading (w : World) {p : Path}
    (plain : (w.indexer.host.cwd.absolute p).IsPlain) :
    (w.reading p).definitions w.indexer.host (w.indexer.host.documentId p) =
      w.indexer.host.defined w.disk p := by
  have place : w.indexer.host.place (.ofString (w.indexer.host.documentId p)) =
      w.indexer.host.place p := by
    rw [Host.ofString_documentId plain, Host.place_absolute plain]
  rw [reading, Host.defined, Host.contribution]
  cases outcome : w.indexer.host.read w.disk p with
  | ok text => simp only [Touch.definitions, place, Except.map, Except.toOption, Option.getD_some]
  | error failure => rfl

theorem definitions_updating (w : World) {p : Path}
    (plain : (w.indexer.host.cwd.absolute p).IsPlain) (kind : Update.Kind) :
    (w.updating p kind).definitions w.indexer.host (w.indexer.host.documentId p) =
      w.indexer.updated w.disk ⟨kind, p⟩ := by
  cases kind with
  | deleted => rfl
  | created => exact w.definitions_reading plain
  | changed => exact w.definitions_reading plain

theorem Agrees.plain_of_listed? (holds : w.Agrees touched) {document : String} {p : Path}
    (found : w.indexer.listed? w.disk.tree document = some p) :
    (w.indexer.host.cwd.absolute p).IsPlain := by
  have listed := List.mem_of_mem_filter (Indexer.mem_targets_of_listed? found).1
  have plain := Host.isPlain_of_mem_documents holds.lexical holds.proper listed
  rwa [plain.absolute_eq]

theorem Agrees.definitions_listed (holds : w.Agrees touched) {document : String} {before : Touch}
    (nothing : before.definitions w.indexer.host document = []) :
    (((w.indexer.listed? w.disk.tree document).map w.reading).getD before).definitions
      w.indexer.host document = w.indexer.scanFinds w.disk document := by
  rw [Indexer.scanFinds]
  cases found : w.indexer.listed? w.disk.tree document with
  | none => exact nothing
  | some p =>
    have named := (Indexer.mem_targets_of_listed? found).2
    rw [← named]
    exact w.definitions_reading (holds.plain_of_listed? found)

theorem Agrees.admits_listed (holds : w.Agrees touched) {document : String} {before : Touch}
    (allowed : before ≠ .untouched → w.Admits document)
    (seen : ((w.indexer.listed? w.disk.tree document).map w.reading).getD before ≠ .untouched) :
    w.Admits document := by
  cases found : w.indexer.listed? w.disk.tree document with
  | none =>
    rw [found] at seen
    exact allowed seen
  | some p =>
    obtain ⟨target, named⟩ := Indexer.mem_targets_of_listed? found
    have kept := (List.mem_filter.mp target).2
    exact ⟨p, holds.plain_of_listed? found, named, by simpa using kept⟩

theorem Agrees.next (holds : w.Agrees touched) {w' : World} {touched' : String → Touch}
    (frame : w'.indexer.host = w.indexer.host ∧
      w'.indexer.excludePatterns = w.indexer.excludePatterns)
    (disk : w'.disk.tree.isProper = true ∧ w'.disk.IsContained) (sound : w'.indexer.index.Sound)
    (contents : ∀ document, w'.indexer.index.definitionsFor document =
      (touched' document).definitions w.indexer.host document)
    (admitted : ∀ document, touched' document ≠ .untouched → w.Admits document) :
    w'.Agrees touched' where
  lexical := by
    rw [frame.1]
    exact holds.lexical
  proper := disk.1
  contained := disk.2
  sound := sound
  contents document := by
    rw [frame.1]
    exact contents document
  admitted document seen := by
    have before := admitted document seen
    rwa [Admits, frame.1, Indexer.isExcluded_of_frame frame]

theorem Agrees.scan (holds : w.Agrees touched) (permitted : w.Permits .scan) :
    (w.perform .scan).Agrees fun document => w.touch .scan (touched document) document := by
  obtain ⟨sound, found⟩ := Indexer.scan_contained holds.contained holds.sound
  have nothing := holds.sound.definitionsFor_eq_nil permitted
  refine holds.next (w.perform_frame .scan) ⟨holds.proper, holds.contained⟩ sound
    (fun document => ?_) fun document seen => holds.admits_listed (holds.admitted document) seen
  have before := (holds.contents document).symm.trans (nothing document)
  rw [World.perform, found, nothing, List.nil_append]
  exact (holds.definitions_listed before).symm

theorem Agrees.refresh (holds : w.Agrees touched) :
    (w.perform .refresh).Agrees fun document => w.touch .refresh (touched document) document := by
  have emptied : w.indexer.reset.index.Sound := Index.sound_empty
  obtain ⟨sound, found⟩ := Indexer.scan_contained holds.contained emptied
  refine holds.next (w.perform_frame .refresh) ⟨holds.proper, holds.contained⟩ sound
    (fun document => ?_) fun document seen =>
      holds.admits_listed (fun changed => absurd rfl changed) seen
  exact (found document).trans (holds.definitions_listed rfl).symm

theorem Agrees.update (holds : w.Agrees touched) (kind : Update.Kind) (path : String) :
    (w.perform (.update kind path)).Agrees fun document =>
      w.touch (.update kind path) (touched document) document := by
  obtain ⟨sound, found⟩ := Indexer.apply_sound w.disk holds.sound ⟨kind, .ofString path⟩
  have plain := holds.lexical.absolute_isPlain path
  refine holds.next (w.perform_frame (.update kind path)) ⟨holds.proper, holds.contained⟩ sound
    (fun document => ?_) fun document seen => ?_
  · rw [World.perform, found, touch]
    dsimp only
    split
    · rename_i named
      rw [← named.2]
      exact (w.definitions_updating plain kind).symm
    · exact holds.contents document
  · rw [touch] at seen
    split at seen
    · rename_i named
      exact ⟨_, plain, named.2, named.1⟩
    · exact holds.admitted document seen

theorem Agrees.perform (holds : w.Agrees touched) {action : Action} (permitted : w.Permits action) :
    (w.perform action).Agrees fun document => w.touch action (touched document) document := by
  cases action with
  | scan => exact holds.scan permitted
  | refresh => exact holds.refresh
  | dispose =>
    exact holds.next (w.perform_frame .dispose) ⟨holds.proper, holds.contained⟩ Index.sound_empty
      (fun _ => rfl) fun _ changed => absurd rfl changed
  | update kind path => exact holds.update kind path
  | edit disk =>
    exact holds.next (w.perform_frame (.edit disk)) permitted holds.sound holds.contents
      holds.admitted

theorem agrees_of_reaches {h : Host} (lexical : h.IsLexical) {excludePatterns : List String}
    {historyLimit : Int} {disk : Disk} (proper : disk.tree.isProper = true)
    (contained : disk.IsContained)
    (reached : Reaches (initial h excludePatterns historyLimit disk) w touched) :
    w.Agrees touched := by
  induction reached with
  | start =>
    exact ⟨lexical, proper, contained, Index.sound_empty, fun _ => rfl,
      fun _ changed => absurd rfl changed⟩
  | next _ _ permitted ih => exact ih.perform permitted

theorem Agrees.once (holds : w.Agrees touched) : w.indexer.index.Once := by
  intro document
  rw [holds.contents]
  cases touched document with
  | untouched => exact List.nodup_nil
  | deleted => exact List.nodup_nil
  | read outcome =>
    cases outcome with
    | ok text => exact Document.nodup_definitions document _ text
    | error failure => exact List.nodup_nil

theorem Agrees.untouched_of_isExcluded (holds : w.Agrees touched) {path : String}
    (excluded : w.indexer.isExcluded (.ofString path) = true) :
    touched (w.indexer.host.documentId (.ofString path)) = .untouched := by
  by_contra seen
  obtain ⟨p, plain, named, kept⟩ := holds.admitted _ seen
  have place := holds.lexical.absolute_isPlain path
  have same : w.indexer.host.cwd.absolute p = w.indexer.host.cwd.absolute (.ofString path) := by
    rw [← Host.ofString_documentId plain, named, Host.ofString_documentId place]
  rw [Indexer.isExcluded, same, ← Indexer.isExcluded, excluded] at kept
  cases kept

/-- Whatever an indexer and the disk have gone through, each document holds what was read when it
was last touched. No definition is held or found twice, none is out of date, and no document that
the globs exclude holds any. -/
theorem contents_last_touched {cwd : String} (absolute : (Path.ofString cwd).isAbsolute = true)
    (roots includePatterns unlistedPatterns excludePatterns : List String) (historyLimit : Int)
    {disk : Disk} (proper : disk.tree.isProper = true) (contained : disk.IsContained)
    (reached : Reaches (initial
      (.make (.ofString cwd) (roots.map .ofString) includePatterns unlistedPatterns)
      excludePatterns historyLimit disk) w touched) :
    (∀ document, w.indexer.index.definitionsFor document =
      (touched document).definitions w.indexer.host document) ∧
    (w.indexer.index.documents.flatMap w.indexer.index.definitionsFor).Nodup ∧
    (∀ path, (w.indexer.index.query path).Nodup ∧ ∀ m ∈ w.indexer.index.query path,
      m.definition ∈ (touched m.definition.document).definitions w.indexer.host
        m.definition.document) ∧
    ∀ path, w.indexer.isExcluded (.ofString path) = true →
      w.indexer.index.definitionsFor (w.indexer.host.documentId (.ofString path)) = [] := by
  have lexical := Host.make_isLexical absolute roots includePatterns unlistedPatterns
  have holds := agrees_of_reaches lexical proper contained reached
  refine ⟨holds.contents, holds.sound.nodup_held holds.once, fun path => ⟨?_, ?_⟩, ?_⟩
  · exact holds.sound.nodup_query holds.once path
  · intro m member
    rw [← holds.contents]
    exact holds.sound.mem_query member
  · intro path excluded
    rw [holds.contents, holds.untouched_of_isExcluded excluded]
    rfl

def workspace (text : String) : Disk :=
  .ofTree ⟨.directory [("w", .directory [("a.yaml", .file text.toUTF8.toList)])]⟩

def outdated : World :=
  ((initial (.make (.ofString "/") (["/w"].map .ofString) ["*.yaml"] []) [] 256
    (workspace "lr: 1")).perform (.update .created "/w/a.yaml")).perform (.edit (workspace "x: 1"))

theorem contents_last_touched_outdated :
    (Path.ofString "/").isAbsolute = true ∧ (workspace "lr: 1").tree.isProper = true ∧
      (workspace "x: 1").tree.isProper = true ∧
      outdated.indexer.index.definitionsFor "/w/a.yaml" =
        [⟨["a", "lr"], "/w/a.yaml", ⟨0, 0, 2⟩, by decide⟩] := by
  have before : (workspace "lr: 1").tree.isProper = true := by decide +kernel
  have after : (workspace "x: 1").tree.isProper = true := by decide +kernel
  have created := Reaches.next (.update .created "/w/a.yaml") (.start (s := initial
    (.make (.ofString "/") (["/w"].map .ofString) ["*.yaml"] []) [] 256 (workspace "lr: 1"))) trivial
  have edited := created.next (.edit (workspace "x: 1")) ⟨after, Disk.isContained_ofTree _⟩
  have absolute : (Path.ofString "/").isAbsolute = true := by decide
  have holds := contents_last_touched absolute ["/w"] ["*.yaml"] [] [] 256 before
    (Disk.isContained_ofTree _) edited
  exact ⟨absolute, before, after, (holds.1 "/w/a.yaml").trans (by decide +kernel)⟩

end World

end KeyAtlas
