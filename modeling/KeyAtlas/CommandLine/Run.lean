import KeyAtlas.CommandLine.Command
import KeyAtlas.CommandLine.Report
import KeyAtlas.Log.Display
import KeyAtlas.Service.Configured

namespace KeyAtlas.CommandLine

open Settings (DocumentReader Environment LoadError)

inductive Failure where
  | path (e : UsageError)
  | load (e : LoadError)
  | logFile (e : FileError)
  | query (e : QueryError)
  | watch (e : FileError)

def Failure.message : Failure → String
  | path e => e.message
  | load e => e.message
  | logFile e => "Cannot open the log file: " ++ e.message
  | query (.unknownFilter e) => e.message
  | query (.read failure) => failure.message
  | watch e => "Cannot go on watching: " ++ e.message

inductive Notice where
  | text (content : String)
  | technical (r : Log.Record)

structure Outcome where
  status : Nat
  output : String
  notices : List Notice
  log : Option (Path × List Log.Record)
  failure : Option Failure

namespace Outcome

def succeeded : Nat :=
  0

def noMatch : Nat :=
  1

def failed : Nat :=
  1

def misused : Nat :=
  2

def misconfigured : Nat :=
  3

def plain (status : Nat) (output notice : String) : Outcome :=
  ⟨status, output, if notice = "" then [] else [.text notice], none, none⟩

def ofFailure (f : Failure) : Outcome :=
  ⟨failed, "", [], none, some f⟩

def ofUsageError (e : UsageError) : Outcome :=
  match e with
  | .invalidPath _ => ofFailure (.path e)
  | _ => plain misused "" ("Error: " ++ e.message ++ "\n")

def ofLoadError : LoadError → Outcome
  | .invalid _ => plain misconfigured "" "Invalid configuration:"
  | .fileMissing path =>
    plain misconfigured "" ("Error: " ++ (LoadError.fileMissing path).message ++ "\n")
  | e => ofFailure (.load e)

end Outcome

/-! ### Logging -/

structure Logging where
  silent : Bool
  settings : Settings

namespace Logging

variable (l : Logging)

/-- Progress is shown as text, and technical events from the threshold of the verbosity on. -/
def notice? : Log.Event → Option Notice
  | .progress p => if l.silent then none else some (.text (Log.Progress.line p))
  | e =>
    let r := e.record l.settings.delay
    if l.silent || r.level.severity < Log.consoleThreshold l.settings.logging.verbosity then none
    else some (.technical r)

def records (events : List Log.Event) : List Log.Record :=
  (events.map (Log.Event.record l.settings.delay)).filter
    fun r => l.settings.logging.level.severity ≤ r.level.severity

def lines (events : List Log.Event) : List UInt8 :=
  Text.Utf8.encode ((l.records events).flatMap fun r => (Value.Json.compact r.value ++ "\n").toList)

def outcome (cwd : Path) (events : List Log.Event) (status : Nat) (output : String) : Outcome where
  status := status
  output := output
  notices := events.filterMap l.notice?
  log := l.settings.logging.file.map fun file => (cwd.absolute file, l.records events)
  failure := none

end Logging

def openLog (cwd : Path) (tree : FileTree) : Option Path → Except FileError FileTree
  | none => .ok tree
  | some file => do
    let made ← tree.makeDirectory (cwd.under file.parent)
    let full := cwd.absolute file
    match made.reach full with
    | .ok (.file _) => return made
    | .ok (.directory _) => throw .isDirectory
    | .error _ => made.write full []

/-! ### Sessions -/

inductive Happening where
  /-- The files change. An edit that fails may have done a part of its work. -/
  | edit (change : FileTree → FileTree × Option FileError)
  | event (e : Update.FileEvent)

/-- A service that a command works with, and the files as they are. Times are in seconds. -/
structure Session where
  cwd : Path
  logging : Logging
  tree : FileTree
  service : Service Float
  /-- How many of the reports of the service are in the log file. -/
  written : Nat

namespace Session

def logFile? (s : Session) : Option Path :=
  s.logging.settings.logging.file.map s.cwd.absolute

def write (s : Session) (events : List Log.Event) : Session :=
  match s.logFile? with
  | none => s
  | some file => { s with tree := s.tree.append file (s.logging.lines events) }

def sync (s : Session) : Session :=
  { s.write (s.service.log.drop s.written) with written := s.service.log.length }

def disk (s : Session) : Disk :=
  .ofTree s.sync.tree

def note (s : Session) (p : Log.Progress) : Session :=
  { s with service := s.service.note [.progress p] }

def begin? (cwd : Path) (tree : FileTree) (silent : Bool) (settings : Settings)
    (observer : Option Observer) : Except FileError Session :=
  (openLog cwd tree settings.logging.file).map fun opened =>
    ⟨cwd, ⟨silent, settings⟩, opened, .ofSettings cwd settings.delay settings false observer, 0⟩

/-- Scans the workspace and reports the statistics. A log file that is a document too holds what
was reported before it is read. -/
def scan (s : Session) : Session × Except ReadFailure ScanStats :=
  let before := s.service.indexer.reportBefore s.disk s.logFile?.toList
  let (service, result) := s.service.scan (s.write before).disk 0
  let scanned := { s with service := service }
  match result with
  | .error failure => (scanned, .error failure)
  | .ok stats =>
    (scanned.note (.scanned stats.documents stats.definitions stats.failed.length), .ok stats)

def breakOff (s : Session) (f : Failure) : Outcome :=
  { s.logging.outcome s.cwd s.service.log Outcome.failed "" with failure := some f }

def finish (s : Session) (status : Nat) (output : String) : Outcome :=
  s.logging.outcome s.cwd (s.service.dispose s.disk 0).log status output

def answer (s : Session) (json : Bool) (asked : String)
    (result : Service Float × Except QueryError (List Match)) : Outcome :=
  match result with
  | (service, .error e) =>
    { s with service := service.dispose s.disk 0 }.breakOff (.query e)
  | (service, .ok found) =>
    let asking := { s with service := service }
    let output := matchesReport s.cwd json found
    if found.isEmpty then (asking.note (.unresolved asked)).finish Outcome.noMatch output
    else asking.finish Outcome.succeeded output

def updateObserver (cwd : Path) : Observer where
  report e definitions :=
    [.progress (.updated e.kind.name (displayPath cwd (documentId cwd e.path)) definitions)]
  failure _ := none

def beginWatch (s : Session) (now : Float) : Session :=
  let roots := s.service.host.roots.map fun root => displayPath s.cwd (documentId s.cwd root)
  ({ s with service := (s.service.startWatching s.disk now).1 }).note (.watching roots)

def edit (s : Session) (change : FileTree → FileTree × Option FileError) :
    Session × Option FileError :=
  let synced := s.sync
  let (tree, failure) := change synced.tree
  ({ synced with tree := tree }, failure)

def event (s : Session) (now : Float) (e : Update.FileEvent) : Session :=
  { s with service := s.service.fileEvent s.disk now e }

def play (s : Session) (now : Float) : List Happening → Session × Option FileError
  | [] => (s, none)
  | .event e :: rest => (s.event now e).play now rest
  | .edit change :: rest =>
    match s.edit change with
    | (edited, none) => edited.play now rest
    | (edited, some e) => (edited, some e)

def work (s : Session) (now : Float) : Session :=
  { s with service := (s.service.processDue s.disk now).1 }

def endWatch (s : Session) (now : Float) : Session :=
  ({ s with service := s.service.stopWatching s.disk now }).note .stopped

def watch (s : Session) (history : List Happening) : Outcome :=
  match (s.beginWatch 0).play 0 history with
  | (seen, none) => (seen.endWatch 0).finish Outcome.succeeded ""
  | (seen, some e) =>
    { (seen.endWatch 0).finish Outcome.failed "" with failure := some (.watch e) }

def takeReports (s : Session) : List Log.Event × Session :=
  (s.service.log, { s.sync with service := s.service.forgetLog, written := 0 })

end Session

/-! ### Commands -/

def withScan (cwd : Path) (tree : FileTree) (silent : Bool) (settings : Settings)
    (observer : Option Observer) (next : Session → ScanStats → Outcome) : Outcome :=
  match Session.begin? cwd tree silent settings observer with
  | .error e => .ofFailure (.logFile e)
  | .ok session =>
    match session.scan with
    | (broken, .error failure) => broken.breakOff (.query (.read failure))
    | (scanned, .ok stats) => next scanned stats

def Command.runWith (cwd : Path) (tree : FileTree) (history : List Happening) (settings : Settings)
    (c : Command) : Outcome :=
  match c with
  | .index _ json =>
    withScan cwd tree c.isSilent settings none fun session stats =>
      session.finish Outcome.succeeded (statsReport cwd json stats)
  | .resolve _ shown reference source =>
    withScan cwd tree c.isSilent settings none fun session _ =>
      session.answer shown.json reference
        (session.service.resolveReference reference none (source.map (documentId cwd)))
  | .resolveAt _ shown file line column =>
    withScan cwd tree c.isSilent settings none fun session _ =>
      session.answer shown.json
        (file.toString ++ ":" ++ toString line ++ ":" ++ toString column)
        (session.service.resolveAt session.disk file (line - 1) (column - 1) none)
  | .watch _ _ =>
    withScan cwd tree c.isSilent settings (some (Session.updateObserver cwd)) fun session _ =>
      session.watch history
  | .validate config => .plain Outcome.succeeded (settingsReport config settings) ""
  | .version => .plain Outcome.succeeded versionReport ""
  | .help => .plain Outcome.succeeded helpReport ""

/-- A reference that cannot be looked up is refused before anything is read. -/
def Command.refusal? : Command → Option Outcome
  | .resolve _ _ reference _ =>
    if (Reference.parse? reference).isSome then none
    else some (.plain Outcome.noMatch "" ("Not a resolvable reference: " ++ reference ++ "\n"))
  | .version => some (.plain Outcome.succeeded versionReport "")
  | .help => some (.plain Outcome.succeeded helpReport "")
  | _ => none

def Command.run (reader : DocumentReader) (cwd : Path) (tree : FileTree) (e : Environment)
    (history : List Happening) (c : Command) : Outcome :=
  match c.refusal? with
  | some outcome => outcome
  | none =>
    match c.settings reader tree cwd e with
    | .error fault => .ofLoadError fault
    | .ok settings => c.runWith cwd tree history settings

def run (cwd : Path) (tree : FileTree) (e : Environment) (history : List Happening)
    (args : List String) : Outcome :=
  match Command.ofArguments ⟨tree, cwd⟩ args with
  | .error usage => .ofUsageError usage
  | .ok command => command.run Settings.yaml cwd tree e history

end KeyAtlas.CommandLine
