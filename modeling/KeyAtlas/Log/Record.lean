import KeyAtlas.Log.Event
import KeyAtlas.Value

namespace KeyAtlas.Log

/-- Levels in rising order. `human` marks progress and says nothing about severity. -/
inductive Level where
  | debug
  | info
  | human
  | warning
  | error
  deriving DecidableEq, Repr

def Level.severity : Level → Int
  | debug => 10
  | info => 20
  | human => 25
  | warning => 30
  | error => 40

def Level.name : Level → String
  | debug => "debug"
  | info => "info"
  | human => "human"
  | warning => "warning"
  | error => "error"

def Level.settingNames : List (String × Level) :=
  [("debug", debug), ("info", info), ("human", human), ("warn", warning), ("error", error)]

def Level.ofSetting? (name : String) : Option Level :=
  settingNames.lookup name

def Level.settingName : Level → String
  | warning => "warn"
  | level => level.name

def fileThreshold (level : String) : Int :=
  ((Level.ofSetting? level).getD .debug).severity

def consoleThreshold (verbosity : Int) : Int :=
  if verbosity = 0 then 30 else if verbosity = 1 then 20 else 10

structure Record where
  level : Level
  event : String
  fields : List (String × Value)

def count (n : Nat) : Value :=
  .int n

def Progress.record : Progress → Record
  | scanned documents definitions failed =>
    ⟨.human, "human.scan.complete",
      [("documents", count documents), ("definitions", count definitions),
       ("failed", count failed)]⟩
  | watching roots => ⟨.human, "human.watch.started", [("roots", .texts roots)]⟩
  | stopped => ⟨.human, "human.watch.stopped", []⟩
  | updated kind path definitions =>
    ⟨.human, "human.document.updated",
      [("kind", .text kind), ("path", .text path), ("definitions", count definitions)]⟩
  | unresolved reference => ⟨.human, "human.resolve.none", [("reference", .text reference)]⟩

def component (name : String) : String × Value :=
  ("component", .text name)

def Event.record (delay : Float) : Event → Record
  | rootMissing root => ⟨.warning, "host.root_missing", [("root", .text root)]⟩
  | documentIndexed document definitions =>
    ⟨.debug, "indexer.document.indexed",
      [component "indexer", ("document", .text document), ("definitions", count definitions)]⟩
  | documentFailed document =>
    ⟨.warning, "indexer.document.failed", [component "indexer", ("document", .text document)]⟩
  | documentRemoved document definitions =>
    ⟨.debug, "indexer.document.removed",
      [component "indexer", ("document", .text document), ("definitions", count definitions)]⟩
  | eventExcluded path =>
    ⟨.debug, "indexer.event.excluded", [component "indexer", ("path", .text path)]⟩
  | scanComplete documents definitions failed =>
    ⟨.info, "indexer.scan.complete",
      [component "indexer", ("documents", count documents), ("definitions", count definitions),
       ("failed", count failed)]⟩
  | refreshing => ⟨.info, "indexer.refresh", [component "indexer"]⟩
  | queueStarted =>
    ⟨.debug, "queue.started", [component "update_queue", ("debounce_seconds", .float delay)]⟩
  | queueStopped applied coalesced =>
    ⟨.debug, "queue.stopped",
      [component "update_queue", ("applied", count applied), ("coalesced", count coalesced)]⟩
  | applyFailed kind path reason =>
    ⟨.error, "queue.apply_failed",
      [component "update_queue", ("kind", .text kind), ("path", .text path),
       ("error", .text reason)]⟩
  | watchedRootMissing root =>
    ⟨.warning, "watcher.root_missing", [component "watcher", ("root", .text root)]⟩
  | watcherStarted roots =>
    ⟨.info, "watcher.started", [component "watcher", ("roots", .texts roots)]⟩
  | watcherStopped => ⟨.info, "watcher.stopped", [component "watcher"]⟩
  | resolved reference filter shown =>
    ⟨.debug, "resolve.done",
      [component "resolver", ("reference", .text reference), ("filter", .text filter),
       ("matches", count shown)]⟩
  | readFailed path =>
    ⟨.warning, "service.read_failed", [component "service", ("path", .text path)]⟩
  | disposed => ⟨.debug, "service.disposed", [component "service"]⟩
  | progress p => p.record

def Record.value (r : Record) : Value :=
  .record (r.fields ++ [("event", .text r.event), ("level", .text r.level.name)])

end KeyAtlas.Log
