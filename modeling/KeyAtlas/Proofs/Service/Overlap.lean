import KeyAtlas.Proofs.Service.Convergence
import KeyAtlas.Proofs.Update.Taking

namespace KeyAtlas

open Update

variable {τ : Type}

/-- A service, the files of its workspace, and the update that its worker has taken from the queue
and not applied yet. -/
structure Overlap (τ : Type) where
  service : Service τ
  tree : FileTree
  taken : Option Event

namespace Overlap

inductive Step (τ : Type) where
  | change (now : τ) (change : FileChange)
  | take (onlyDue : Bool) (now : τ)
  | apply (now : τ)
  | refresh

variable [Add τ] [LE τ] [DecidableLE τ]

/-- A change that fails changes nothing. A worker takes one update at a time. -/
def perform (h : Host) (w : Overlap τ) : Step τ → Overlap τ
  | .change now change =>
    match change.result? h.cwd w.tree with
    | none => w
    | some tree =>
      let feed := w.service.feed.submitAll (LiveIndex.consume (.ofTree tree)) now
        (change.updates h w.tree)
      { w with service := { w.service with feed := feed }, tree := tree }
  | .take onlyDue now =>
    match w.taken, w.service.feed.pop? onlyDue now with
    | none, some (e, feed) => { w with service := { w.service with feed := feed }, taken := some e }
    | _, _ => w
  | .apply now =>
    match w.taken with
    | none => w
    | some e =>
      let feed := w.service.feed.finish (LiveIndex.consume (.ofTree w.tree)) now e
      { w with service := { w.service with feed := feed }, taken := none }
  | .refresh => { w with service := (w.service.refresh (.ofTree w.tree)).1 }

/-- The path that the last refresh has left to a deletion out of date, given the one before this
step. Telling of the path again makes up for it. -/
def overtaken (h : Host) (w : Overlap τ) (before : Option Path) : Step τ → Option Path
  | .change _ change =>
    match change.result? h.cwd w.tree with
    | none => before
    | some _ => before.filter fun p => (latest (change.updates h w.tree) p).isNone
  | .take _ _ | .apply _ => before
  | .refresh => overtakenBy w.tree w.taken

/-- What a service comes to that scans a tree and goes through these steps, with the path that the
last refresh has left to a deletion out of date. -/
def after (s : Service τ) (tree : FileTree) (begun : τ) (steps : List (Step τ)) :
    Overlap τ × Option Path :=
  steps.foldl (fun (w, missed) step => (w.perform s.host step, w.overtaken s.host missed step))
    (⟨(s.scan (.ofTree tree) begun).1, tree, none⟩, none)

structure Kept (s : Service τ) (w : Overlap τ) (missed : Option Path) : Prop where
  suits : s.indexer.Suits w.tree
  trails : Trails s.indexer w.tree w.service.queue w.taken missed w.service.indexer
  idle : w.service.queue.running = false

variable {s : Service τ} {w : Overlap τ} {missed : Option Path}

theorem Kept.perform (holds : w.Kept s missed) (step : Step τ) :
    (w.perform s.host step).Kept s (w.overtaken s.host missed step) := by
  cases step with
  | change now change =>
    rw [Overlap.perform, overtaken]
    cases done : change.result? s.host.cwd w.tree with
    | none => exact holds
    | some tree =>
      obtain ⟨⟨contents, altered⟩, reported⟩ :=
        FileChange.reported holds.suits.lexical holds.suits.proper done
      have suits := holds.suits.alter altered
      dsimp only
      rw [Feed.submitAll_of_idle _ now holds.idle]
      exact ⟨suits, holds.trails.submitAll holds.suits suits reported now,
        (Queue.running_submitAll _ now _).trans holds.idle⟩
  | take onlyDue now =>
    rw [Overlap.perform]
    split
    · rename_i e feed free found
      obtain ⟨⟨_, rest⟩, popped, same⟩ := Option.map_eq_some_iff.mp found
      cases same
      have trails := holds.trails
      rw [free] at trails
      refine ⟨holds.suits, trails.pop? popped, ?_⟩
      obtain ⟨_, _, _, rfl⟩ := Queue.pop?_eq_some popped
      exact holds.idle
    · exact holds
  | apply now =>
    rw [Overlap.perform]
    cases held : w.taken with
    | none => exact holds
    | some e =>
      obtain ⟨silent, indexer⟩ := LiveIndex.consume_spec (.ofTree w.tree) w.service.feed.state e
      obtain ⟨pending, cwd, running⟩ := w.service.feed.queue.afterApplying_frame now silent
      have trails := holds.trails
      rw [held] at trails
      have applied : Trails s.indexer w.tree _ none missed
          (w.service.feed.state.indexer.apply (.ofTree w.tree) e).1 :=
        trails.apply holds.suits pending cwd
      rw [← indexer] at applied
      exact ⟨holds.suits, applied, running.trans holds.idle⟩
  | refresh => exact ⟨holds.suits, holds.trails.refresh, holds.idle⟩

theorem Kept.foldl (holds : w.Kept s missed) (steps : List (Step τ)) :
    let last := steps.foldl
      (fun (w, missed) step => (w.perform s.host step, w.overtaken s.host missed step)) (w, missed)
    last.1.Kept s last.2 := by
  induction steps generalizing w missed with
  | nil => exact holds
  | cons step rest ih => exact ih (holds.perform step)

theorem kept_after (new : s.IsNew) {tree : FileTree} (suits : s.indexer.Suits tree) (begun : τ)
    (steps : List (Step τ)) :
    (after s tree begun steps).1.Kept s (after s tree begun steps).2 := by
  obtain ⟨scanned, _⟩ := new.tracked_scan suits begun
  have awaits := scanned.tracks.awaits.congr fun p _ =>
    Option.or_none (o := (s.scan (.ofTree tree) begun).1.queue.pendingFor p)
  have trails : Trails s.indexer tree (s.scan (.ofTree tree) begun).1.queue none none
      (s.scan (.ofTree tree) begun).1.indexer :=
    ⟨awaits, scanned.tracks.tidy, nofun, nofun, nofun⟩
  exact Kept.foldl ⟨suits, trails, scanned.idle⟩ steps

end Overlap

namespace Service

variable {tree : FileTree} (cwd : String) (roots includePatterns excludePatterns : List String)
  (delay : τ) (settings : Settings) (observer : Option Observer)
  [Add τ] [LE τ] [DecidableLE τ]

/-- In whatever order files change and are told of, the worker takes and applies updates, and the
service is refreshed: once nothing is pending and nothing is taken, the service holds what its files
define as they are, and nothing of other documents. Only of a file that the last refresh has left to
a deletion out of date does it hold nothing. -/
theorem definitionsFor_of_overlap (absolute : (Path.ofString cwd).isAbsolute = true)
    (trailing : Trailing excludePatterns) (proper : tree.isProper = true)
    (rooted : (attached cwd roots includePatterns excludePatterns delay settings
      observer).host.IsRooted tree)
    (begun : τ) (steps : List (Overlap.Step τ)) {w : Overlap τ} {missed : Option Path}
    (led : Overlap.after (attached cwd roots includePatterns excludePatterns delay settings
      observer) tree begun steps = (w, missed))
    (drained : w.service.queue.size = 0) (free : w.taken = none) :
    let s := attached cwd roots includePatterns excludePatterns delay settings observer
    (∀ p, s.host.Covers p → s.indexer.isExcluded p = false →
      w.service.indexer.index.definitionsFor (s.host.documentId p) =
        if missed = some p then [] else s.host.defined (.ofTree w.tree) p) ∧
    ∀ document, w.service.indexer.index.definitionsFor document ≠ [] →
      ∃ p, s.host.Covers p ∧ s.indexer.isExcluded p = false ∧ (w.tree.content? p).isSome ∧
        s.host.documentId p = document := by
  have new := isNew_attached cwd roots includePatterns excludePatterns delay settings observer
  have suits := suits_attached cwd roots includePatterns excludePatterns delay settings observer
    absolute trailing proper rooted
  have kept := Overlap.kept_after new suits begun steps
  rw [led] at kept
  have trails := kept.trails
  rw [free] at trails
  exact trails.settled kept.suits drained

def replaced : List (Overlap.Step Nat) :=
  [.change 1 (.delete "/w/a.yaml"), .take false 2,
    .change 3 (.write "/w/b.yaml" "lr: 3".toUTF8.toList), .refresh, .apply 4]

theorem definitionsFor_of_overlap_replaced :
    let s := attached "/" ["w"] ["*.yaml"] ["**/out/*"] 3 .default none
    (Path.ofString "/").isAbsolute = true ∧ Trailing ["**/out/*"] ∧ solitary.isProper = true ∧
      s.host.IsRooted solitary ∧
      ∃ w, Overlap.after s solitary 0 replaced = (w, none) ∧ w.service.queue.size = 0 ∧
        w.taken = none ∧ s.host.Covers (.ofString "/w/b.yaml") ∧
        w.service.indexer.index.definitionsFor (s.host.documentId (.ofString "/w/b.yaml")) =
          s.host.defined (.ofTree w.tree) (.ofString "/w/b.yaml") := by
  have trailing : Trailing ["**/out/*"] := by
    unfold Trailing
    decide
  have rooted : (attached "/" ["w"] ["*.yaml"] ["**/out/*"] 3 .default none).host.IsRooted
      solitary := by
    unfold Host.IsRooted
    decide +kernel
  have proper : solitary.isProper = true := by decide +kernel
  have drained : (Overlap.after (attached "/" ["w"] ["*.yaml"] ["**/out/*"] 3 .default none)
      solitary 0 replaced).1.service.queue.size = 0 := by decide +kernel
  have free : (Overlap.after (attached "/" ["w"] ["*.yaml"] ["**/out/*"] 3 .default none)
      solitary 0 replaced).1.taken = none := by decide +kernel
  have led : Overlap.after (attached "/" ["w"] ["*.yaml"] ["**/out/*"] 3 .default none) solitary 0
      replaced = (_, none) := Prod.ext rfl (by decide +kernel)
  have covered : (attached "/" ["w"] ["*.yaml"] ["**/out/*"] 3 .default none).host.Covers
      (.ofString "/w/b.yaml") :=
    ⟨⟨by decide, by decide⟩, ⟨_, List.mem_singleton_self _, by decide +kernel⟩, by decide +kernel⟩
  refine ⟨by decide, trailing, proper, rooted, _, led, drained, free, covered, ?_⟩
  exact (definitionsFor_of_overlap "/" ["w"] ["*.yaml"] ["**/out/*"] 3 .default none (by decide)
    trailing proper rooted 0 replaced led drained free).1 _ covered (by decide +kernel)

def resurrected : List (Overlap.Step Nat) :=
  [.change 1 (.delete "/w/a.yaml"), .take false 2,
    .change 3 (.write "/w/a.yaml" "lr: 2".toUTF8.toList), .refresh, .apply 4]

/-- The file that came back is there, and the service does not know what it defines. -/
theorem unknown_resurrected :
    let s := attached "/" ["w"] ["*.yaml"] ["**/out/*"] 3 .default none
    let w := (Overlap.after s solitary 0 resurrected).1
    w.service.queue.size = 0 ∧ w.taken = none ∧ s.host.Covers (.ofString "/w/a.yaml") ∧
      s.indexer.isExcluded (.ofString "/w/a.yaml") = false ∧
      s.host.defined (.ofTree w.tree) (.ofString "/w/a.yaml") =
        [⟨["a", "lr"], "/w/a.yaml", ⟨0, 0, 2⟩, by decide⟩] ∧
      w.service.indexer.index.definitionsFor "/w/a.yaml" = [] := by
  refine ⟨by decide +kernel, by decide +kernel, ?_, by decide +kernel, by decide +kernel,
    by decide +kernel⟩
  exact ⟨⟨by decide, by decide⟩, ⟨_, List.mem_singleton_self _, by decide +kernel⟩,
    by decide +kernel⟩

end Service

end KeyAtlas
