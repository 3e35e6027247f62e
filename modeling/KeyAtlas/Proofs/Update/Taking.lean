import KeyAtlas.Proofs.Update.Tracking
import KeyAtlas.Update.Feed

/-!
An update that a worker has taken from the queue and not applied yet. A scan in between drops what
is pending but not what has been taken. A taken update that reads its file does no harm after the
scan. A taken deletion does: when the file has come back by then, the index loses what the scan has
found in it, until something else happens to the file.
-/

namespace KeyAtlas.Update

variable {τ : Type}

namespace Feed

variable {σ : Type} [LE τ] [DecidableLE τ]

def pop? (f : Feed τ σ) (onlyDue : Bool) (now : τ) : Option (Event × Feed τ σ) :=
  (f.queue.pop? onlyDue now).map fun popped => (popped.1, { f with queue := popped.2 })

variable [Add τ]

def finish (f : Feed τ σ) (consume : Consumer σ) (now : τ) (e : Event) : Feed τ σ :=
  let reaction := consume f.state e
  { f with queue := f.queue.afterApplying now reaction, state := reaction.state }.note
    (reaction.fullReport e)

/-- Draining the queue is taking and applying by turns. -/
theorem settle_drain_succ (f : Feed τ σ) (consume : Consumer σ) (onlyDue : Bool) (now : τ)
    (fuel : Nat) :
    f.settle (Queue.drain consume onlyDue now (fuel + 1) f.queue f.state) =
      match f.pop? onlyDue now with
      | none => (f, 0)
      | some (e, rest) =>
        let next := rest.finish consume now e
        let (last, count) :=
          next.settle (Queue.drain consume onlyDue now fuel next.queue next.state)
        (last, count + 1) := by
  rw [Queue.drain, pop?]
  cases f.queue.pop? onlyDue now with
  | none => simp [settle, note]
  | some popped => simp [settle, note, finish, Queue.afterApplying, List.append_assoc]

end Feed

/-- The last update of a path that has not been applied. -/
def unapplied (q : Queue τ) (taken : Option Event) (p : Path) : Option Event :=
  (q.pendingFor p).or (latest taken.toList p)

/-- The index follows the files but for `missed`, of which it holds nothing once the taken update has
been applied. -/
structure Trails (start : Indexer) (t : FileTree) (q : Queue τ) (taken : Option Event)
    (missed : Option Path) (i : Indexer) : Prop where
  awaits : Awaits start t (unapplied q taken) missed i
  tidy : q.Tidy
  plain : ∀ e, taken = some e → e.path.IsPlain
  silent : ∀ p, missed = some p → p.IsPlain ∧ q.pendingFor p = none
  lost : ∀ p, missed = some p → match latest taken.toList p with
    | some e => e.kind = .deleted
    | none => start.isExcluded p = false →
      i.index.definitionsFor (start.host.documentId p) = []

variable {start i : Indexer} {t t' : FileTree} {q : Queue τ} {taken : Option Event}
  {missed : Option Path}

theorem Trails.submitAll [Add τ] (holds : Trails start t q taken missed i) (suits : start.Suits t)
    (suits' : start.Suits t') {es : List Event} (reported : FileChange.Reported start.host t t' es)
    (now : τ) : Trails start t' (q.submitAll now es) taken
      (missed.filter fun p => (latest es p).isNone) i := by
  have plain : ∀ e ∈ es, e.path.IsPlain := fun e member => (reported.covered e member).plain
  refine ⟨?_, holds.tidy.submitAll now plain, holds.plain, fun p lost => ?_, fun p lost => ?_⟩
  · refine (holds.awaits.change suits suits' reported).congr fun p pathPlain => ?_
    rw [unapplied, unapplied, q.pendingFor_submitAll now plain pathPlain, Option.or_assoc]
  · obtain ⟨before, untold⟩ := Option.filter_eq_some_iff.mp lost
    obtain ⟨pathPlain, pending⟩ := holds.silent p before
    rw [q.pendingFor_submitAll now plain pathPlain, Option.isNone_iff_eq_none.mp untold, pending]
    exact ⟨pathPlain, rfl⟩
  · exact holds.lost p (Option.filter_eq_some_iff.mp lost).1

section Popping

variable [LE τ] [DecidableLE τ]

theorem Trails.pop? (holds : Trails start t q none missed i) {onlyDue : Bool} {now : τ} {e : Event}
    {rest : Queue τ} (popped : q.pop? onlyDue now = some (e, rest)) :
    Trails start t rest (some e) missed i := by
  obtain ⟨plain, tidy, first, others⟩ := holds.tidy.pop? popped
  have apart : ∀ p, missed = some p → e.path ≠ p := by
    rintro _ lost rfl
    have pending := (holds.silent _ lost).2
    rw [first] at pending
    cases pending
  refine ⟨holds.awaits.congr fun p pathPlain => ?_, tidy, ?_, fun p lost => ?_, fun p lost => ?_⟩
  · rw [unapplied, unapplied, holds.tidy.pendingFor_eq_or popped pathPlain]
    exact Option.or_none.symm
  · intro _ held
    cases held
    exact plain
  · obtain ⟨pathPlain, pending⟩ := holds.silent p lost
    exact ⟨pathPlain, by rw [others p pathPlain, if_neg (apart p lost), pending]⟩
  · have gone := holds.lost p lost
    rwa [Option.toList_some, latest_singleton, if_neg (apart p lost)]

end Popping

theorem Trails.apply {q' : Queue τ} {e : Event} (holds : Trails start t q (some e) missed i)
    (suits : start.Suits t) (pending : q'.pending = q.pending) (cwd : q'.cwd = q.cwd) :
    Trails start t q' none missed (i.apply (.ofTree t) e).1 := by
  have plain := holds.plain e rfl
  have same := Queue.pendingFor_congr pending cwd
  refine ⟨holds.awaits.apply suits plain fun p _ => ?_, holds.tidy.congr pending cwd, nofun,
    fun p lost => ?_, fun p lost => ?_⟩
  · rw [unapplied, unapplied, same, Option.or_assoc]
    rfl
  · rw [same]
    exact holds.silent p lost
  · intro free
    have host := holds.awaits.host
    have gone := holds.lost p lost
    rw [Option.toList_some, latest_singleton] at gone
    rw [(Indexer.apply_sound (.ofTree t) holds.awaits.sound e).2, host]
    by_cases here : e.path = p
    · rw [if_pos here] at gone
      have excluded : i.isExcluded e.path = false := by
        rw [here, ← free]
        rw [Indexer.isExcluded_of_frame ⟨host, holds.awaits.patterns⟩]
      rw [here] at excluded ⊢
      rw [if_pos ⟨excluded, rfl⟩, Indexer.updated, gone]
    · rw [if_neg here] at gone
      have apart : start.host.documentId e.path ≠ start.host.documentId p := fun same =>
        here (Host.eq_of_documentId_eq plain (holds.silent p lost).1 same)
      rw [if_neg fun touched => apart touched.2]
      exact gone free

/-- The path that a scan leaves to a deletion out of date. -/
def overtakenBy (t : FileTree) (taken : Option Event) : Option Path :=
  (taken.filter fun e => e.kind = .deleted && (t.content? e.path).isSome).map Event.path

theorem Trails.refresh (holds : Trails start t q taken missed i) :
    Trails start t q.clear taken (overtakenBy t taken) (i.refresh (.ofTree t)).1 := by
  have left : ∀ p e, latest taken.toList p = some e → taken = some e ∧ e.path = p := by
    intro p e found
    obtain ⟨member, here⟩ := latest_eq_some found
    exact ⟨Option.mem_toList.mp member, here⟩
  -- The scan finds all there is, and of what has waited only the taken update is left.
  have awaits : Awaits start t (latest taken.toList) (overtakenBy t taken)
      (i.refresh (.ofTree t)).1 := by
    refine awaits_of_scan holds.awaits.host holds.awaits.patterns rfl (fun p e plain found => ?_)
      fun p e plain found deleted apart => ?_
    · cases pending : q.pendingFor p with
      | none =>
        exact holds.awaits.covered p e plain (by rw [unapplied, pending, Option.none_or, found])
      | some later =>
        exact holds.awaits.covered p later plain (by rw [unapplied, pending, Option.some_or])
    · obtain ⟨rfl, rfl⟩ := left p e found
      by_contra present
      exact apart (by simp [overtakenBy, deleted, Option.isSome_iff_ne_none.mpr present])
  have overtaken : ∀ p, overtakenBy t taken = some p →
      ∃ e, taken = some e ∧ e.kind = .deleted ∧ e.path = p := by
    intro p lost
    obtain ⟨e, found, here⟩ := Option.map_eq_some_iff.mp lost
    obtain ⟨held, wrong⟩ := Option.filter_eq_some_iff.mp found
    rw [Bool.and_eq_true, decide_eq_true_eq] at wrong
    exact ⟨e, held, wrong.1, here⟩
  refine ⟨awaits.congr fun _ _ => rfl, ⟨nofun⟩, holds.plain, fun p lost => ?_, fun p lost => ?_⟩
  · obtain ⟨e, held, _, rfl⟩ := overtaken p lost
    exact ⟨holds.plain e held, rfl⟩
  · obtain ⟨e, rfl, deleted, rfl⟩ := overtaken p lost
    rw [Option.toList_some, latest_singleton, if_pos rfl]
    exact deleted

theorem Trails.settled (holds : Trails start t q none missed i) (suits : start.Suits t)
    (empty : q.size = 0) :
    (∀ p, start.host.Covers p → start.isExcluded p = false →
      i.index.definitionsFor (start.host.documentId p) =
        if missed = some p then [] else start.host.defined (.ofTree t) p) ∧
    ∀ document, i.index.definitionsFor document ≠ [] →
      ∃ p, start.host.Covers p ∧ start.isExcluded p = false ∧ (t.content? p).isSome ∧
        start.host.documentId p = document := by
  have applied : ∀ p, p.IsPlain → unapplied q none p = none := by
    intro p _
    rw [unapplied, Queue.pendingFor_of_size_zero empty]
    rfl
  have finds : ∀ p, start.host.Covers p → start.isExcluded p = false →
      i.index.definitionsFor (start.host.documentId p) =
        if missed = some p then [] else start.host.defined (.ofTree t) p := by
    intro p covered kept
    split
    · rename_i lost
      exact holds.lost p lost kept
    · rename_i apart
      rw [← suits.scanFinds covered kept]
      refine holds.awaits.current applied fun q lost _ same => apart ?_
      rw [lost, Host.eq_of_documentId_eq (holds.silent q lost).1 covered.plain same]
  refine ⟨finds, fun document held => ?_⟩
  obtain ⟨p, covered, kept, rfl⟩ : ∃ p, start.host.Covers p ∧ start.isExcluded p = false ∧
      start.host.documentId p = document := by
    by_cases current : i.index.definitionsFor document = start.scanFinds (.ofTree t) document
    · exact suits.covers_of_scanFinds (current ▸ held)
    · obtain ⟨p, covered, kept, named, _⟩ := holds.awaits.behind document current
      exact ⟨p, covered, kept, named⟩
  refine ⟨p, covered, kept, ?_, rfl⟩
  rw [Option.isSome_iff_ne_none]
  intro absent
  rw [finds p covered kept, Host.defined_of_absent covered.plain absent, ite_self] at held
  exact held rfl

end KeyAtlas.Update
