import KeyAtlas.Proofs.Update.Awaiting

/-!
An index that follows its files through a queue. A document that the index holds otherwise than a
scan would find it has an update that is pending or still to come. When the last of these is a
deletion, the file is gone. Both survive late and merged updates and scans that drop what is
pending.
-/

namespace KeyAtlas.Update

variable {τ : Type}

def outstanding (coming : List Event) (q : Queue τ) (p : Path) : Option Event :=
  (latest coming p).or (q.pendingFor p)

/-- `start` is an indexer that has not scanned anything, `coming` are the updates that the queue has
not received yet. -/
structure Tracks (start : Indexer) (t : FileTree) (coming : List Event) (q : Queue τ)
    (i : Indexer) : Prop where
  host : i.host = start.host
  patterns : i.excludePatterns = start.excludePatterns
  sound : i.index.Sound
  tidy : q.Tidy
  comes : ∀ e ∈ coming, start.host.Covers e.path
  pends : ∀ p e, p.IsPlain → q.pendingFor p = some e → start.host.Covers p
  behind : ∀ document,
    i.index.definitionsFor document ≠ start.scanFinds (.ofTree t) document →
      ∃ p, start.host.Covers p ∧ start.isExcluded p = false ∧
        start.host.documentId p = document ∧ (outstanding coming q p).isSome
  gone : ∀ p e, p.IsPlain → outstanding coming q p = some e → e.kind = .deleted →
    t.content? p = none

variable {start i : Indexer} {t t' : FileTree} {coming : List Event} {q : Queue τ}

theorem Tracks.awaits (holds : Tracks start t coming q i) :
    Awaits start t (outstanding coming q) none i := by
  refine ⟨holds.host, holds.patterns, holds.sound, fun p e plain found => ?_,
    fun document stale => ?_, fun p e plain found deleted _ => holds.gone p e plain found deleted⟩
  · rcases Option.or_eq_some_iff.mp found with comes | ⟨_, pends⟩
    · obtain ⟨member, here⟩ := latest_eq_some comes
      exact here ▸ holds.comes e member
    · exact holds.pends p e plain pends
  · obtain ⟨p, covered, kept, named, waits⟩ := holds.behind document stale
    exact ⟨p, covered, kept, named, .inl waits⟩

theorem Awaits.tracks {waiting : Path → Option Event} (holds : Awaits start t waiting none i)
    (same : ∀ p, p.IsPlain → outstanding coming q p = waiting p) (tidy : q.Tidy)
    (comes : ∀ e ∈ coming, start.host.Covers e.path) : Tracks start t coming q i := by
  have awaits := holds.congr same
  refine ⟨holds.host, holds.patterns, holds.sound, tidy, comes, fun p e plain pends => ?_,
    fun document stale => ?_,
    fun p e plain found deleted => awaits.gone p e plain found deleted nofun⟩
  · obtain ⟨last, found⟩ : ∃ last, outstanding coming q p = some last := by
      rw [outstanding, pends]
      cases latest coming p with
      | none => exact ⟨e, rfl⟩
      | some later => exact ⟨later, rfl⟩
    exact awaits.covered p last plain found
  · obtain ⟨p, covered, kept, named, waits | lost⟩ := awaits.behind document stale
    · exact ⟨p, covered, kept, named, waits⟩
    · cases lost

theorem Tracks.current (holds : Tracks start t [] q i) (empty : q.size = 0) (document : String) :
    i.index.definitionsFor document = start.scanFinds (.ofTree t) document :=
  holds.awaits.current (fun p _ => Queue.pendingFor_of_size_zero empty p) nofun

theorem Tracks.withQueue {q' : Queue τ} (holds : Tracks start t coming q i)
    (pending : q'.pending = q.pending) (cwd : q'.cwd = q.cwd) : Tracks start t coming q' i := by
  refine holds.awaits.tracks (fun p _ => ?_) (holds.tidy.congr pending cwd) holds.comes
  rw [outstanding, outstanding, Queue.pendingFor_congr pending cwd]

theorem tracks_of_scan {before : Indexer} (host : before.host = start.host)
    (patterns : before.excludePatterns = start.excludePatterns) (empty : before.index = .empty)
    (tidy : q.Tidy) (idle : q.size = 0) (comes : ∀ e ∈ coming, start.host.Covers e.path)
    (gone : ∀ p e, p.IsPlain → latest coming p = some e → e.kind = .deleted →
      t.content? p = none) :
    Tracks start t coming q (before.scan (.ofTree t)).1 := by
  have awaits : Awaits start t (latest coming) none (before.scan (.ofTree t)).1 := by
    refine awaits_of_scan host patterns empty (fun p e _ found => ?_)
      fun p e plain found deleted _ => gone p e plain found deleted
    obtain ⟨member, here⟩ := latest_eq_some found
    exact here ▸ comes e member
  refine awaits.tracks (fun p _ => ?_) tidy comes
  rw [outstanding, Queue.pendingFor_of_size_zero idle, Option.or_none]

theorem Tracks.refresh (holds : Tracks start t coming q i) :
    Tracks start t coming q.clear (i.refresh (.ofTree t)).1 := by
  refine tracks_of_scan holds.host holds.patterns rfl ⟨nofun⟩ rfl holds.comes ?_
  intro p e plain found
  exact holds.gone p e plain (by rw [outstanding, found, Option.some_or])

theorem Tracks.change (holds : Tracks start t coming q i) (suits : start.Suits t)
    (suits' : start.Suits t') {es : List Event}
    (reported : FileChange.Reported start.host t t' es) :
    Tracks start t' (coming ++ es) q i := by
  refine (holds.awaits.change suits suits' reported).tracks (fun p _ => ?_) holds.tidy
    fun e member => ?_
  · rw [outstanding, latest_append, Option.or_assoc, outstanding]
  · rcases List.mem_append.mp member with before | new
    · exact holds.comes e before
    · exact reported.covered e new

theorem Tracks.submitAll [Add τ] {es : List Event} (holds : Tracks start t (es ++ coming) q i)
    (now : τ) : Tracks start t coming (q.submitAll now es) i := by
  have plain : ∀ e ∈ es, e.path.IsPlain := fun e member =>
    (holds.comes e (List.mem_append_left _ member)).plain
  refine holds.awaits.tracks (fun p pathPlain => ?_) (holds.tidy.submitAll now plain)
    fun e member => holds.comes e (List.mem_append_right _ member)
  rw [outstanding, outstanding, q.pendingFor_submitAll now plain pathPlain, latest_append,
    Option.or_assoc]

theorem Queue.Tidy.pendingFor_eq_or [LE τ] [DecidableLE τ] {rest : Queue τ} (tidy : q.Tidy)
    {onlyDue : Bool} {now : τ} {e : Event} (popped : q.pop? onlyDue now = some (e, rest)) {p : Path}
    (plain : p.IsPlain) : q.pendingFor p = (rest.pendingFor p).or (latest [e] p) := by
  obtain ⟨_, _, pending, others⟩ := tidy.pop? popped
  rw [others p plain, latest_singleton]
  by_cases same : e.path = p
  · rw [if_pos same, if_pos same, ← same, pending, Option.none_or]
  · rw [if_neg same, if_neg same, Option.or_none]

theorem Tracks.apply [LE τ] [DecidableLE τ] (holds : Tracks start t coming q i)
    (suits : start.Suits t) {rest : Queue τ} {onlyDue : Bool} {now : τ} {e : Event}
    (popped : q.pop? onlyDue now = some (e, rest)) :
    Tracks start t coming rest (i.apply (.ofTree t) e).1 := by
  obtain ⟨plain, tidy, _, _⟩ := holds.tidy.pop? popped
  have first : ∀ p, p.IsPlain →
      outstanding coming q p = (outstanding coming rest p).or (latest [e] p) := by
    intro p pathPlain
    rw [outstanding, outstanding, holds.tidy.pendingFor_eq_or popped pathPlain, Option.or_assoc]
  exact (holds.awaits.apply suits plain first).tracks (fun _ _ => rfl) tidy holds.comes

end KeyAtlas.Update
