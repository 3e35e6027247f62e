import KeyAtlas.CommandLine.Run
import KeyAtlas.Update.Difference

namespace KeyAtlas.Program

open CommandLine

abbrev Findings := List (Path × Node)

/-- The content of files that cannot be read: an octet that no text has. -/
def unreadable : List UInt8 :=
  [0xFF]

def contentAt (p : Path) : IO (List UInt8) := do
  match ← (IO.FS.readBinFile p.toString).toBaseIO with
  | .ok octets => return octets.toList
  | .error _ => return unreadable

def nodeAt? (p : Path) : IO (Option Node) := do
  let place := (← IO.currentDir) / p.toString
  match ← place.metadata.toBaseIO with
  | .error _ => return none
  | .ok found =>
    match found.type with
    | .dir => return some (.directory [])
    | .file => return some (.file (← contentAt p))
    | _ => return none

def along (cwd p : Path) : IO Findings := do
  let full := cwd.under p
  let found ← (List.range (full.parts.length + 1)).mapM fun count => do
    let way := Path.mk full.root (full.parts.take count)
    return (← nodeAt? way).toList.map fun node => (cwd.absolute way, node)
  return found.flatten

def pathTexts (arg : String) : List String :=
  if arg.startsWith "-" then
    (List.range arg.length).map fun n => String.ofList (arg.toList.drop (n + 1))
  else [arg]

def namedBy (cwd : Path) (args : List String) : IO Findings := do
  let found ← (args.flatMap pathTexts).mapM fun text => along cwd (.ofString text)
  return found.flatten

/-- The names in a directory. Links to directories are not followed below a root. -/
def namesIn? (p : Path) (followed : Bool) : IO (Option (List String)) := do
  let place := (← IO.currentDir) / p.toString
  match ← (if followed then place.metadata else place.symlinkMetadata).toBaseIO with
  | .error _ => return none
  | .ok found =>
    match found.type with
    | .dir =>
      match ← place.readDir.toBaseIO with
      | .ok entries => return some (entries.toList.map (·.fileName))
      | .error _ => return some []
    | _ => return none

partial def below (host : Host) (root : Path) (parts : List String) : IO Findings := do
  let here := Path.mk root.root (root.parts ++ parts)
  match ← namesIn? here parts.isEmpty with
  | some names =>
    if parts.isEmpty || host.enters parts then
      let found ← names.mapM fun name => below host root (parts ++ [name])
      return (here, .directory []) :: found.flatten
    else return [(here, .directory [])]
  | none =>
    if parts.isEmpty || !host.takes parts then return []
    else return (← nodeAt? here).toList.map fun node => (here, node)

def workspaceOf (host : Host) : IO Findings := do
  let found ← host.roots.mapM fun root => below host root []
  return found.flatten

def showNotice : Notice → IO Unit
  | .text content => IO.eprint content
  | .technical record => IO.eprintln (Value.Json.compact record.value)

def record (file : Path) (records : List Log.Record) : IO Unit := do
  let directory := Path.mk file.root file.parts.dropLast
  IO.FS.createDirAll directory.toString
  let handle ← IO.FS.Handle.mk file.toString .append
  handle.putStr (lines (records.map fun r => Value.Json.compact r.value))

def finish (o : Outcome) : IO UInt32 := do
  (← IO.getStdout).putStr o.output
  o.notices.forM showNotice
  match o.log with
  | some (file, records) => record file records
  | none => pure ()
  match o.failure with
  | some failure => IO.eprintln ("Error: " ++ failure.message)
  | none => pure ()
  return o.status.toUInt32

def seconds : IO Float := do
  return (← IO.monoMsNow).toFloat / 1000

def report (s : Session) : IO Session := do
  let (events, rest) := s.takeReports
  let shown := s.logging.outcome s.cwd events Outcome.succeeded ""
  let _ ← finish shown
  return rest

/-- Keeps the session in step with the disk, which held `seen` when it was last looked at. -/
partial def keepWatching (s : Session) (seen : FileTree) : IO UInt32 := do
  let reported ← report s
  IO.sleep 500
  let tree := FileTree.empty.holdAll (← workspaceOf s.service.host)
  let now ← seconds
  let (edited, _) := reported.edit fun _ => (tree, none)
  let events := Update.changesBetween seen tree
  keepWatching ((events.foldl (Session.event · now ·) edited).work now) tree

def watch (cwd : Path) (tree seen : FileTree) (silent : Bool) (settings : Settings) :
    IO UInt32 := do
  match Session.begin? cwd tree silent settings (some (Session.updateObserver cwd)) with
  | .error e => finish (.ofFailure (.logFile e))
  | .ok session =>
    match session.scan with
    | (broken, .error failure) => finish (broken.breakOff (.query (.read failure)))
    | (scanned, .ok _) => keepWatching (scanned.beginWatch (← seconds)) seen

def environment : IO Settings.Environment := do
  let read (name : String) : IO String := return (← IO.getEnv name).getD ""
  return ⟨← read "HYDRALINK_WORKSPACE", ← read "HYDRALINK_LOG_LEVEL",
    ← read "HYDRALINK_MATCH_FILTER"⟩

def runCommand (cwd : Path) (tree : FileTree) (e : Settings.Environment) (settings : Settings)
    (command : Command) : IO UInt32 := do
  let found ← workspaceOf (Service.hostOf cwd settings.workspace)
  let log ← match settings.logging.file with
    | some file => along cwd file
    | none => pure []
  let all := (tree.holdAll found).holdAll log
  match command with
  | .watch _ _ => watch cwd all (FileTree.empty.holdAll found) command.isSilent settings
  | _ => finish (command.run Settings.yaml cwd all e [])

def run (args : List String) : IO UInt32 := do
  let cwd := Path.ofString (toString (← IO.currentDir))
  let tree := FileTree.empty.holdAll (← namedBy cwd args)
  let e ← environment
  match Command.ofArguments ⟨tree, cwd⟩ args with
  | .error usage => finish (.ofUsageError usage)
  | .ok command =>
    match command.refusal?, command.settings Settings.yaml tree cwd e with
    | some outcome, _ => finish outcome
    | none, .ok settings => runCommand cwd tree e settings command
    | none, .error (.invalid faults) =>
      let status ← finish (.ofLoadError (.invalid faults))
      IO.eprintln ("\n" ++ (Settings.LoadError.invalid faults).message)
      return status
    | none, .error fault => finish (.ofLoadError fault)

end KeyAtlas.Program

def main (args : List String) : IO UInt32 :=
  KeyAtlas.Program.run args
