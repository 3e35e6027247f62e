import KeyAtlas.Update.Queue
import KeyAtlas.Update.Watcher

namespace KeyAtlas.Update

structure Feed (τ σ : Type) where
  queue : Queue τ
  watcher : Option Watcher
  state : σ
  log : List Log.Event
  /-- How many updates the consumer may submit in all while it applies others. -/
  spare : Nat

namespace Feed

variable {τ σ : Type}

def note (f : Feed τ σ) (events : List Log.Event) : Feed τ σ :=
  { f with log := f.log ++ events }

def isWatching (f : Feed τ σ) : Bool :=
  f.watcher.any (·.isRunning)

def clear (f : Feed τ σ) : Feed τ σ :=
  { f with queue := f.queue.clear }

def settle (f : Feed τ σ) (d : Drained τ σ) : Feed τ σ × Nat :=
  ({ f with queue := d.queue, state := d.state }.note d.report, d.count)

variable [Add τ] [LE τ] [DecidableLE τ] (consume : Consumer σ) (now : τ)

def flush (f : Feed τ σ) : Feed τ σ × Nat :=
  f.settle (f.queue.flush consume now (f.queue.size + f.spare) f.state)

def processDue (f : Feed τ σ) : Feed τ σ × Nat :=
  f.settle (f.queue.processDue consume now (f.queue.size + f.spare) f.state)

def work (f : Feed τ σ) : Feed τ σ :=
  if f.queue.running then (f.processDue consume now).1 else f

def submit (f : Feed τ σ) (e : Event) : Feed τ σ :=
  { f with queue := f.queue.submit now e }.work consume now

def submitAll (f : Feed τ σ) (es : List Event) : Feed τ σ :=
  es.foldl (fun f e => f.submit consume now e) f

def start (f : Feed τ σ) : Feed τ σ :=
  if f.queue.running then f
  else
    let started := { f with queue := { f.queue with running := true } }
    (started.work consume now).note [.queueStarted]

def stop (f : Feed τ σ) (flushing : Bool) : Feed τ σ :=
  let stopped := { f with queue := { f.queue with running := false } }
  let settled := if flushing then (stopped.flush consume now).1 else stopped
  settled.note [.queueStopped settled.queue.applied settled.queue.coalesced]

/-- Starts the watcher, or a new one with these roots and globs, and the worker. Roots that are no
directories are reported and not observed. -/
def startWatching (f : Feed τ σ) (isDirectory : Path → Except FileError Bool) (new : Watcher) :
    Feed τ σ × Option FileError :=
  let watcher := f.watcher.getD new
  if watcher.isRunning then (f, none)
  else
    let found := Watcher.lookUp isDirectory watcher.roots
    let noted := { f with watcher := some watcher }.note
      (found.missing.map fun root : Path => .watchedRootMissing root.toString)
    match found.failure with
    | some e => (noted, some e)
    | none =>
      let started := { noted with watcher := some (watcher.start found.directories) }
      ((started.start consume now).note [.watcherStarted (watcher.roots.map Path.toString)], none)

def stopWatching (f : Feed τ σ) : Feed τ σ :=
  match f.watcher with
  | none => f
  | some watcher =>
    if watcher.isRunning then
      ({ f with watcher := some watcher.stop }.stop consume now true).note [.watcherStopped]
    else f

def fileEvent (f : Feed τ σ) (e : FileEvent) : Feed τ σ :=
  match f.watcher with
  | none => f
  | some watcher => f.submitAll consume now (e.updates watcher.includePatterns)

end Feed

end KeyAtlas.Update
