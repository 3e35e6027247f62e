import KeyAtlas.Proofs.Resolution.BruteForce
import KeyAtlas.Proofs.Update.Tracking
import KeyAtlas.Service.Configured

namespace KeyAtlas

open Update

variable {τ : Type}

theorem LiveIndex.consume_spec (disk : Disk) (l : LiveIndex) (e : Event) :
    (consume disk l e).submitted = [] ∧
      (consume disk l e).state.indexer = (l.indexer.apply disk e).1 := by
  rw [consume]
  split
  · rename_i indexer failure applied
    exact ⟨rfl, (congrArg Prod.fst applied).symm⟩
  · rename_i indexer applied
    rw [tell]
    split <;> exact ⟨rfl, (congrArg Prod.fst applied).symm⟩

theorem Update.Tracks.drain [Add τ] [LE τ] [DecidableLE τ] {start : Indexer} {t : FileTree}
    {coming : List Event} {q : Queue τ} {l : LiveIndex} (suits : start.Suits t)
    (holds : Tracks start t coming q l.indexer) (idle : q.running = false) (onlyDue : Bool)
    (now : τ) (fuel : Nat) :
    let drained := Queue.drain (LiveIndex.consume (.ofTree t)) onlyDue now fuel q l
    Tracks start t coming drained.queue drained.state.indexer ∧ drained.queue.running = false := by
  refine Queue.drain_keeps (fun (q : Queue τ) (l : LiveIndex) =>
    Tracks start t coming q l.indexer ∧ q.running = false) ?_ fuel ⟨holds, idle⟩
  intro q l e rest facts popped
  obtain ⟨holds, idle⟩ := facts
  obtain ⟨silent, indexer⟩ := LiveIndex.consume_spec (.ofTree t) l e
  obtain ⟨pending, cwd, running⟩ := rest.afterApplying_frame now silent
  have applied := holds.apply suits popped
  obtain ⟨document, due, _, rfl⟩ := Queue.pop?_eq_some popped
  rw [indexer]
  exact ⟨applied.withQueue pending cwd, running.trans idle⟩

theorem Update.Feed.submitAll_of_idle [Add τ] [LE τ] [DecidableLE τ] {σ : Type}
    (consume : Consumer σ) (now : τ) {f : Feed τ σ}
    (idle : f.queue.running = false) (es : List Event) :
    f.submitAll consume now es = { f with queue := f.queue.submitAll now es } := by
  induction es generalizing f with
  | nil => rfl
  | cons e rest ih =>
    have first : f.submit consume now e = { f with queue := f.queue.submit now e } := by
      rw [Feed.submit, Feed.work, if_neg]
      simp [Queue.submit, idle]
    have later := ih (f := { f with queue := f.queue.submit now e }) idle
    rw [Feed.submitAll, List.foldl_cons, first, ← Feed.submitAll, later]
    rfl

namespace Service

/-- A service that is told of file events, before its first scan. Host, indexer and handler share
the globs. -/
def attached (cwd : String) (roots includePatterns excludePatterns : List String) (delay : τ)
    (settings : Settings) (observer : Option Observer) : Service τ :=
  let s := ofSettings (.ofString cwd) delay
    { settings with workspace := ⟨roots.map .ofString, includePatterns, excludePatterns⟩ } false
    observer
  { s with feed := { s.feed with watcher := some (.make s.host.roots s.host.includePatterns) } }

/-- Nothing has been scanned and nothing is pending, and file events reach the queue only through
the handler. -/
structure IsNew (s : Service τ) : Prop where
  unwatched : s.watchAfterScan = false
  watcher : s.feed.watcher = some (.make s.host.roots s.host.includePatterns)
  index : s.indexer.index = .empty
  pending : s.queue.pending = .empty
  idle : s.queue.running = false

structure Alike (s s' : Service τ) : Prop where
  definitions : ∀ document,
    s.indexer.index.definitionsFor document = s'.indexer.index.definitionsFor document
  size : s.indexer.index.size = s'.indexer.index.size
  suffixCount : s.indexer.index.suffixCount = s'.indexer.index.suffixCount
  answers : ∀ path filter source,
    s.policy.resolve s.indexer.index.query path filter source =
      s'.policy.resolve s'.indexer.index.query path filter source

theorem alike_of_definitions {s s' : Service τ} (sound : s.indexer.index.Sound)
    (sound' : s'.indexer.index.Sound) (policy : s.policy = s'.policy)
    (same : ∀ document,
      s.indexer.index.definitionsFor document = s'.indexer.index.definitionsFor document) :
    s.Alike s' := by
  have alike := sound.alike sound' same
  refine ⟨same, alike.size, alike.suffixCount, fun path filter source => ?_⟩
  rw [policy]
  exact alike.answers s'.policy path filter source

end Service

/-- A service, the files of its workspace, and what it has not been told of their changes. -/
structure Following (τ : Type) where
  service : Service τ
  tree : FileTree
  untold : List FileEvent

namespace Following

/-- One step of a history. Each one that looks at the clock finds a time of its own there. -/
inductive Step (τ : Type) where
  | change (change : FileChange)
  | deliver (now : τ)
  | processDue (now : τ)
  | flush (now : τ)
  | refresh

variable [Add τ] [LE τ] [DecidableLE τ]

/-- A change that fails changes nothing. Changes are told in their order, one event at a time. -/
def perform (h : Host) (f : Following τ) : Step τ → Following τ
  | .change change =>
    match change.result? h.cwd f.tree with
    | none => f
    | some tree =>
      { f with tree := tree, untold := f.untold ++ change.reports h.roots h.cwd f.tree }
  | .deliver now =>
    match f.untold with
    | [] => f
    | e :: later =>
      { f with service := f.service.fileEvent (.ofTree f.tree) now e, untold := later }
  | .processDue now => { f with service := (f.service.processDue (.ofTree f.tree) now).1 }
  | .flush now => { f with service := (f.service.flush (.ofTree f.tree) now).1 }
  | .refresh => { f with service := (f.service.refresh (.ofTree f.tree)).1 }

def after (s : Service τ) (tree : FileTree) (begun : τ) (steps : List (Step τ)) : Following τ :=
  steps.foldl (perform s.host) ⟨(s.scan (.ofTree tree) begun).1, tree, []⟩

/-- The service has kept track of the files since it was `s`. -/
structure Tracked (s : Service τ) (f : Following τ) : Prop where
  suits : s.indexer.Suits f.tree
  tracks : Tracks s.indexer f.tree (f.untold.flatMap (·.updates s.host.includePatterns))
    f.service.queue f.service.indexer
  idle : f.service.queue.running = false
  watcher : f.service.feed.watcher = s.feed.watcher
  isolate : f.service.isolate = s.isolate
  filter : f.service.defaultFilter = s.defaultFilter

variable {s : Service τ} {f : Following τ}

theorem Tracked.perform (new : s.IsNew) (holds : f.Tracked s) (step : Step τ) :
    (f.perform s.host step).Tracked s := by
  cases step with
  | change change =>
    rw [Following.perform]
    split
    · exact holds
    · rename_i tree done
      obtain ⟨altered, reported⟩ :=
        FileChange.reported holds.suits.lexical holds.suits.proper done
      obtain ⟨contents, altered⟩ := altered
      have suits := holds.suits.alter altered
      refine ⟨suits, ?_, holds.idle, holds.watcher, holds.isolate, holds.filter⟩
      rw [List.flatMap_append]
      exact holds.tracks.change holds.suits suits reported
  | deliver now =>
    rw [Following.perform]
    split
    · exact holds
    · rename_i e later untold
      have tracks := holds.tracks
      rw [untold, List.flatMap_cons] at tracks
      have told : f.service.fileEvent (.ofTree f.tree) now e = { f.service with
          feed := { f.service.feed with
            queue := f.service.feed.queue.submitAll now (e.updates s.host.includePatterns) } } := by
        rw [Service.fileEvent, Feed.fileEvent, holds.watcher, new.watcher]
        exact congrArg (fun feed => { f.service with feed := feed })
          (Feed.submitAll_of_idle _ now holds.idle _)
      rw [told]
      refine ⟨holds.suits, tracks.submitAll now, ?_, holds.watcher, holds.isolate, holds.filter⟩
      exact (Queue.running_submitAll _ now _).trans holds.idle
  | processDue now =>
    obtain ⟨tracks, idle⟩ := Tracks.drain holds.suits holds.tracks holds.idle true now
      (f.service.feed.queue.size + f.service.feed.spare)
    exact ⟨holds.suits, tracks, idle, holds.watcher, holds.isolate, holds.filter⟩
  | flush now =>
    obtain ⟨tracks, idle⟩ := Tracks.drain holds.suits holds.tracks holds.idle false now
      (f.service.feed.queue.size + f.service.feed.spare)
    exact ⟨holds.suits, tracks, idle, holds.watcher, holds.isolate, holds.filter⟩
  | refresh =>
    exact ⟨holds.suits, holds.tracks.refresh, holds.idle, holds.watcher, holds.isolate,
      holds.filter⟩

theorem Tracked.foldl (new : s.IsNew) (holds : f.Tracked s) (steps : List (Step τ)) :
    (steps.foldl (Following.perform s.host) f).Tracked s := by
  induction steps generalizing f with
  | nil => exact holds
  | cons step rest ih => exact ih (holds.perform new step)

omit [Add τ] [LE τ] [DecidableLE τ] in
theorem Tracked.policy (holds : f.Tracked s) : f.service.policy = s.policy := by
  rw [Service.policy, Service.policy, holds.isolate, holds.filter, Service.host, holds.tracks.host]
  rfl

theorem Tracked.definitionsFor_flush (new : s.IsNew) (holds : f.Tracked s) (told : f.untold = [])
    (now : τ) (document : String) :
    (f.service.flush (.ofTree f.tree) now).1.indexer.index.definitionsFor document =
      s.indexer.scanFinds (.ofTree f.tree) document := by
  have tracks := (holds.perform new (.flush now)).tracks
  rw [Following.perform, told] at tracks
  refine tracks.current ?_ document
  exact Queue.size_drain (fun l e => (LiveIndex.consume_spec (.ofTree f.tree) l e).1) now
    (Nat.le_add_right _ f.service.feed.spare) f.service.feed.state

end Following

namespace Service

section Scanning

variable [Add τ] [LE τ] [DecidableLE τ]

theorem scan_unwatched {s : Service τ} (unwatched : s.watchAfterScan = false) (disk : Disk)
    (now : τ) : ∃ log, (s.scan disk now).1 =
      (s.withIndexer (s.indexer.scan disk).1).note log := by
  refine ⟨s.indexer.scanReport disk, ?_⟩
  rw [scan]
  cases s.indexer.scan disk with
  | mk indexer result =>
    cases result with
    | error failure => rfl
    | ok stats => simp only [unwatched, Bool.false_eq_true, if_false]

theorem IsNew.tracked_scan {s : Service τ} (new : s.IsNew) {tree : FileTree}
    (suits : s.indexer.Suits tree) (now : τ) :
    Following.Tracked s ⟨(s.scan (.ofTree tree) now).1, tree, []⟩ ∧
      (s.scan (.ofTree tree) now).1.queue.size = 0 := by
  obtain ⟨log, scanned⟩ := s.scan_unwatched new.unwatched (.ofTree tree) now
  rw [scanned]
  have size : s.queue.size = 0 := by
    rw [Queue.size, new.pending]
    rfl
  have tidy : s.queue.Tidy := by
    refine ⟨fun document entry held => ?_⟩
    rw [new.pending] at held
    cases held
  have comes : ∀ e ∈ ([] : List Event), s.indexer.host.Covers e.path := List.forall_mem_nil _
  have gone : ∀ p e, p.IsPlain → latest [] p = some e → e.kind = .deleted →
      tree.content? p = none := by
    intro p e _ found
    cases found
  exact ⟨⟨suits, tracks_of_scan rfl rfl new.index tidy size comes gone, new.idle, rfl, rfl, rfl⟩,
    size⟩

end Scanning

variable {tree : FileTree} (cwd : String) (roots includePatterns excludePatterns : List String)
  (delay : τ) (settings : Settings) (observer : Option Observer)

theorem isNew_attached :
    (attached cwd roots includePatterns excludePatterns delay settings observer).IsNew :=
  ⟨rfl, rfl, rfl, rfl, rfl⟩

theorem suits_attached (absolute : (Path.ofString cwd).isAbsolute = true)
    (trailing : Trailing excludePatterns) (proper : tree.isProper = true)
    (rooted : (attached cwd roots includePatterns excludePatterns delay settings
      observer).host.IsRooted tree) :
    (attached cwd roots includePatterns excludePatterns delay settings
      observer).indexer.Suits tree :=
  ⟨Host.make_isLexical absolute roots includePatterns excludePatterns, rfl, trailing, proper, rooted⟩

variable [Add τ] [LE τ] [DecidableLE τ]

/-- Whatever history of changes, deliveries, applications and refreshes a service has gone through,
once it has been told of every change and has flushed its queue it is like a new service that scans
the files as they are then. -/
theorem flush_alike_scan (absolute : (Path.ofString cwd).isAbsolute = true)
    (trailing : Trailing excludePatterns) (proper : tree.isProper = true)
    (rooted : (attached cwd roots includePatterns excludePatterns delay settings
      observer).host.IsRooted tree)
    (begun : τ) (steps : List (Following.Step τ)) {f : Following τ}
    (led : Following.after (attached cwd roots includePatterns excludePatterns delay settings
      observer) tree begun steps = f)
    (told : f.untold = []) (now later : τ) :
    Alike (f.service.flush (.ofTree f.tree) now).1
      ((attached cwd roots includePatterns excludePatterns delay settings observer).scan
        (.ofTree f.tree) later).1 := by
  have new := isNew_attached cwd roots includePatterns excludePatterns delay settings observer
  have suits := suits_attached cwd roots includePatterns excludePatterns delay settings observer
    absolute trailing proper rooted
  have holds := (new.tracked_scan suits begun).1.foldl new steps
  rw [← Following.after, led] at holds
  have flushed := holds.perform new (.flush now)
  obtain ⟨scanned, empty⟩ := new.tracked_scan holds.suits later
  refine alike_of_definitions flushed.tracks.sound scanned.tracks.sound
    (flushed.policy.trans scanned.policy.symm) fun document => ?_
  rw [holds.definitionsFor_flush new told now document]
  exact (scanned.tracks.current empty document).symm

def solitary : FileTree :=
  ⟨.directory [("w", .directory [("a.yaml", .file "lr: 1".toUTF8.toList)])]⟩

def tardy : List (Following.Step Nat) :=
  [.change (.write "/w/b.yaml" "lr: 2".toUTF8.toList), .change (.rename "/w/a.yaml" "/w/c.yaml"),
    .deliver 1, .processDue 2, .refresh, .change (.delete "w/b.yaml"), .deliver 0, .deliver 5]

theorem flush_alike_scan_tardy :
    (Path.ofString "/").isAbsolute = true ∧ solitary.isProper = true ∧
      ∃ f, Following.after (attached "/" ["w"] ["*.yaml"] ["**/out/*"] 3 .default none)
        solitary 0 tardy = f ∧ f.untold = [] ∧
        Alike (f.service.flush (.ofTree f.tree) 6).1
          ((attached "/" ["w"] ["*.yaml"] ["**/out/*"] 3 .default none).scan
            (.ofTree f.tree) 7).1 := by
  have proper : solitary.isProper = true := by decide +kernel
  have trailing : Trailing ["**/out/*"] := by
    intro pattern member
    rw [List.mem_singleton.mp member]
    decide
  have rooted : (attached "/" ["w"] ["*.yaml"] ["**/out/*"] 3 .default none).host.IsRooted
      solitary := by
    intro root member
    rw [List.mem_singleton.mp member]
    decide +kernel
  have told : (Following.after (attached "/" ["w"] ["*.yaml"] ["**/out/*"] 3 .default none)
      solitary 0 tardy).untold = [] := by decide +kernel
  exact ⟨by decide, proper, _, rfl, told, flush_alike_scan "/" ["w"] ["*.yaml"] ["**/out/*"] 3
    .default none (by decide) trailing proper rooted 0 tardy rfl told 6 7⟩

end Service

end KeyAtlas
