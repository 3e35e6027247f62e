import KeyAtlas.Indexer
import KeyAtlas.Reference
import KeyAtlas.Resolution.Policy
import KeyAtlas.Update.Feed

namespace KeyAtlas

open Update

structure Observer where
  report : Event → Nat → List Log.Event
  failure : Event → Option String

structure LiveIndex where
  indexer : Indexer
  observer : Option Observer
  updates : List (Event × Nat)

def ReadFailure.message : ReadFailure → String
  | unreadable path reason => "Cannot read " ++ path ++ ": " ++ reason.getD "unreadable"
  | system message => message
  | invalid message => message
  | unexpected message => message

def UpdateFailure.message : UpdateFailure → String
  | read failure => failure.message
  | noHistory => "There is no room to remember a deleted document"

namespace LiveIndex

def tell (l : LiveIndex) (e : Event) (report : List Log.Event) : Reaction LiveIndex :=
  match l.observer with
  | none => ⟨l, [], report, none⟩
  | some observer =>
    let count := (l.indexer.index.definitionsFor (l.indexer.host.documentId e.path)).length
    ⟨{ l with updates := l.updates ++ [(e, count)] }, [], report ++ observer.report e count,
      observer.failure e⟩

/-- Applies one update. Nothing is submitted meanwhile. -/
def consume (disk : Disk) : Consumer LiveIndex := fun l e =>
  let report := l.indexer.applyReport disk e
  match l.indexer.apply disk e with
  | (indexer, some failure) => ⟨{ l with indexer := indexer }, [], report, some failure.message⟩
  | (indexer, none) => { l with indexer := indexer }.tell e report

end LiveIndex

structure Service (τ : Type) where
  feed : Feed τ LiveIndex
  isolate : Bool
  defaultFilter : Resolution.Filter
  watchAfterScan : Bool

inductive QueryError where
  | unknownFilter (e : Resolution.UnknownFilter)
  | read (failure : ReadFailure)

namespace Service

variable {τ : Type}

def indexer (s : Service τ) : Indexer :=
  s.feed.state.indexer

def host (s : Service τ) : Host :=
  s.indexer.host

def queue (s : Service τ) : Queue τ :=
  s.feed.queue

def log (s : Service τ) : List Log.Event :=
  s.feed.log

def note (s : Service τ) (events : List Log.Event) : Service τ :=
  { s with feed := s.feed.note events }

def forgetLog (s : Service τ) : Service τ :=
  { s with feed := { s.feed with log := [] } }

def withIndexer (s : Service τ) (indexer : Indexer) : Service τ :=
  { s with feed := { s.feed with state := { s.feed.state with indexer := indexer } } }

def policy (s : Service τ) : Resolution.Policy :=
  ⟨s.isolate, s.defaultFilter, some s.host.rootOf⟩

def isWatching (s : Service τ) : Bool :=
  s.feed.isWatching

section Updates

variable [Add τ] [LE τ] [DecidableLE τ]

def flush (s : Service τ) (disk : Disk) (now : τ) : Service τ × Nat :=
  let (feed, count) := s.feed.flush (LiveIndex.consume disk) now
  ({ s with feed := feed }, count)

def processDue (s : Service τ) (disk : Disk) (now : τ) : Service τ × Nat :=
  let (feed, count) := s.feed.processDue (LiveIndex.consume disk) now
  ({ s with feed := feed }, count)

def notify (s : Service τ) (disk : Disk) (now : τ) (e : Event) : Service τ :=
  { s with feed := s.feed.submit (LiveIndex.consume disk) now e }

/-- Starts watching unless a root cannot be looked up. -/
def startWatching (s : Service τ) (disk : Disk) (now : τ) : Service τ × Option FileError :=
  let isDirectory := fun root => disk.tree.leadsToDirectory (s.host.cwd.under root)
  let new := Watcher.make s.host.roots s.host.includePatterns
  let (feed, failure) := s.feed.startWatching (LiveIndex.consume disk) now isDirectory new
  ({ s with feed := feed }, failure)

def stopWatching (s : Service τ) (disk : Disk) (now : τ) : Service τ :=
  { s with feed := s.feed.stopWatching (LiveIndex.consume disk) now }

def fileEvent (s : Service τ) (disk : Disk) (now : τ) (e : FileEvent) : Service τ :=
  { s with feed := s.feed.fileEvent (LiveIndex.consume disk) now e }

def scan (s : Service τ) (disk : Disk) (now : τ) : Service τ × Except ReadFailure ScanStats :=
  let (indexer, result) := s.indexer.scan disk
  let scanned := (s.withIndexer indexer).note (s.indexer.scanReport disk)
  match result with
  | .error failure => (scanned, .error failure)
  | .ok stats =>
    (if s.watchAfterScan then (scanned.startWatching disk now).1 else scanned, .ok stats)

/-- Drops pending updates and scans from an empty index. -/
def refresh (s : Service τ) (disk : Disk) : Service τ × Except ReadFailure ScanStats :=
  let (indexer, result) := s.indexer.refresh disk
  let refreshed := { s with feed := s.feed.clear }.withIndexer indexer
  (refreshed.note (s.indexer.refreshReport disk), result)

def dispose (s : Service τ) (disk : Disk) (now : τ) : Service τ :=
  let stopped := s.stopWatching disk now
  let idle := { stopped with feed := stopped.feed.stop (LiveIndex.consume disk) now false }
  (idle.withIndexer idle.indexer.dispose).note [.disposed]

end Updates

def resolve (s : Service τ) (path : List String) (filter source : Option String) :
    Service τ × Except QueryError (List Match) :=
  match s.policy.resolve s.indexer.index.query path filter source with
  | .error e => (s, .error (.unknownFilter e))
  | .ok .refused => (s, .ok [])
  | .ok (.found chosen shown) =>
    (s.note [.resolved (".".intercalate path) chosen.name shown.length], .ok shown)

/-- Resolves the text of a reference; a computed one resolves to nothing. -/
def resolveReference (s : Service τ) (text : String) (filter source : Option String) :
    Service τ × Except QueryError (List Match) :=
  match Reference.parse? text with
  | none => (s, .ok [])
  | some path => s.resolve path filter source

/-- The reference at a line and column of a text, both from zero. -/
def referenceAt (text : List Char) (line column : Int) : Option Reference :=
  if line < 0 then none
  else (Text.lines text)[line.toNat]?.bind fun found => Reference.at? found column

def resolveAt (s : Service τ) (disk : Disk) (p : Path) (line column : Int)
    (filter : Option String) : Service τ × Except QueryError (List Match) :=
  match s.host.read disk p with
  | .error (.unreadable _ _) => (s.note [.readFailed p.toString], .ok [])
  | .error failure => (s, .error (.read failure))
  | .ok text =>
    match referenceAt text line column with
    | none => (s, .ok [])
    | some r => s.resolve r.components filter (some (s.host.documentId p))

end Service

end KeyAtlas
