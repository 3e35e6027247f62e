import KeyAtlas.CommandLine.Option
import KeyAtlas.Settings.Load
import KeyAtlas.Text.Integer

namespace KeyAtlas.CommandLine

open Settings (Arguments DocumentReader Environment)

structure CommonOptions where
  config : Option Path
  workspace : List Path
  exclude : List String
  verbosity : Nat
  logFile : Option Path
  quiet : Bool

structure MatchOptions where
  filter : Option Resolution.Filter
  noIsolation : Bool
  json : Bool

inductive Command where
  | index (common : CommonOptions) (json : Bool)
  | resolve (common : CommonOptions) (shown : MatchOptions) (reference : String)
      (source : Option Path)
  /-- Resolves the reference at a line and column of a file, both from one. -/
  | resolveAt (common : CommonOptions) (shown : MatchOptions) (file : Path) (line column : Nat)
  | watch (common : CommonOptions) (debounce : Option Nat)
  | validate (config : Path)
  | version
  | help

/-! ### Settings of a command -/

/-- A count of verbosity is passed on even when it is zero. -/
def CommonOptions.arguments (c : CommonOptions) : Arguments :=
  { Arguments.none with
    workspace := .texts (c.workspace.map Path.toString)
    exclude := .texts c.exclude
    logFile := c.logFile.elim .null fun p => .text p.toString
    verbosity := .int c.verbosity }

def CommonOptions.matchArguments (c : CommonOptions) (m : MatchOptions) : Arguments :=
  { c.arguments with
    filter := m.filter.elim .null fun filter => .text filter.name
    noIsolation := .flag m.noIsolation }

namespace Command

def sources : Command → Option Path × Arguments
  | index c _ => (c.config, c.arguments)
  | resolve c m _ _ => (c.config, c.matchArguments m)
  | resolveAt c m _ _ _ => (c.config, c.matchArguments m)
  | watch c debounce =>
    (c.config, { c.arguments with debounce := debounce.elim .null fun n => .int n })
  | validate config => (some config, .none)
  | version => (none, .none)
  | help => (none, .none)

def settings (reader : DocumentReader) (tree : FileTree) (cwd : Path) (e : Environment)
    (c : Command) : Except Settings.LoadError Settings :=
  Settings.load reader tree cwd c.sources.1 e c.sources.2

def isSilent : Command → Bool
  | index c json => c.quiet || json
  | resolve c m _ _ => c.quiet || m.json
  | resolveAt c m _ _ _ => c.quiet || m.json
  | watch c _ => c.quiet
  | _ => true

end Command

/-! ### Reading commands -/

def helpOption : OptionSpec :=
  ⟨"help", none, "--help", false⟩

def configOption : OptionSpec :=
  ⟨"config", some 'c', "--config", true⟩

def jsonOption : OptionSpec :=
  ⟨"json", none, "--json", false⟩

def commonSpecs : List OptionSpec :=
  [helpOption, configOption, ⟨"workspace", some 'w', "--workspace", true⟩,
   ⟨"exclude", none, "--exclude", true⟩, ⟨"verbose", some 'v', "--verbose", false⟩,
   ⟨"log-file", none, "--log-file", true⟩, ⟨"quiet", none, "--quiet", false⟩]

def matchSpecs : List OptionSpec :=
  [⟨"filter", some 'f', "--filter", true⟩, ⟨"no-isolation", none, "--no-isolation", false⟩,
   jsonOption]

def programSpecs : List OptionSpec :=
  [helpOption, ⟨"version", none, "--version", false⟩]

structure Surroundings where
  tree : FileTree
  cwd : Path

namespace Surroundings

variable (s : Surroundings)

def look? (text : String) : Option Node :=
  let found := s.tree.look? (s.cwd.under (.ofString text))
  if text = "" then none
  else if Path.namesDirectory text then found.filter (·.isDirectory)
  else found

end Surroundings

def pathOperand (name text : String) : Except UsageError Path :=
  if text.toList.contains '\x00' then .error (.invalidPath name) else .ok (.ofString text)

namespace Surroundings

variable (s : Surroundings)

def existing (name text : String) : Except UsageError Path := do
  let path ← pathOperand name text
  if (s.look? text).isSome then return path else throw (.invalidValue name text)

def existingFile (name text : String) : Except UsageError Path := do
  let path ← pathOperand name text
  match s.look? text with
  | some (.file _) => return path
  | _ => throw (.invalidValue name text)

end Surroundings

def integerOperand (name : String) (least : Nat) (most : Option Nat) (text : String) :
    Except UsageError Nat :=
  match Text.Integer.decimal? text.toList with
  | some (.ofNat n) =>
    if least ≤ n && most.all (n ≤ ·) then .ok n else .error (.invalidValue name text)
  | _ => .error (.invalidValue name text)

def filterOperand (text : String) : Except UsageError Resolution.Filter :=
  match Resolution.Filter.ofName? text with
  | some filter => .ok filter
  | none => .error (.invalidValue "filter" text)

def optional {α : Type} (p : Parsed) (name : String) (f : String → Except UsageError α) :
    Except UsageError (Option α) :=
  match p.value? name with
  | none => .ok none
  | some text => (f text).map some

def configValue (s : Surroundings) (p : Parsed) : Except UsageError (Option Path) :=
  optional p "config" (s.existing "config")

def workspaceValue (p : Parsed) : Except UsageError (List Path) :=
  (p.valuesOf "workspace").mapM (pathOperand "workspace")

def pathValue (name : String) (p : Parsed) : Except UsageError (Option Path) :=
  optional p name (pathOperand name)

def filterValue (p : Parsed) : Except UsageError (Option Resolution.Filter) :=
  optional p "filter" filterOperand

def debounceValue (p : Parsed) : Except UsageError (Option Nat) :=
  optional p "debounce" (integerOperand "debounce-ms" 0 (some Settings.longestDebounce))

def checkOption (s : Surroundings) (p : Parsed) (name : String) : Except UsageError Unit :=
  match name with
  | "config" => (configValue s p).map fun _ => ()
  | "workspace" => (workspaceValue p).map fun _ => ()
  | "log-file" => (pathValue "log-file" p).map fun _ => ()
  | "from" => (pathValue "from" p).map fun _ => ()
  | "filter" => (filterValue p).map fun _ => ()
  | "debounce" => (debounceValue p).map fun _ => ()
  | _ => .ok ()

def checkOptions (s : Surroundings) (p : Parsed) : Except UsageError Unit :=
  p.names.forM (checkOption s p)

def commonOptions (s : Surroundings) (p : Parsed) : Except UsageError CommonOptions := do
  checkOptions s p
  let config ← configValue s p
  let workspace ← workspaceValue p
  let logFile ← pathValue "log-file" p
  return {
    config := config
    workspace := workspace
    exclude := p.valuesOf "exclude"
    verbosity := p.count "verbose"
    logFile := logFile
    quiet := p.has "quiet" }

def matchOptions (p : Parsed) : Except UsageError MatchOptions :=
  (filterValue p).map fun filter => ⟨filter, p.has "no-isolation", p.has "json"⟩

def operands (names given : List String) : Except UsageError (List String) :=
  match names, given with
  | [], [] => .ok []
  | [], extra :: _ => .error (.operandUnexpected extra)
  | name :: _, [] => .error (.operandMissing name)
  | _ :: names, text :: given => (operands names given).map (text :: ·)

def orHelp (p : Parsed) (command : Except UsageError Command) : Except UsageError Command :=
  if p.has "help" then .ok .help else command

def indexCommand (s : Surroundings) (args : List String) : Except UsageError Command := do
  let p ← read (commonSpecs ++ [jsonOption]) true args
  orHelp p do
    let common ← commonOptions s p
    let _ ← operands [] p.operands
    return .index common (p.has "json")

def resolveCommand (s : Surroundings) (args : List String) : Except UsageError Command := do
  let p ← read (commonSpecs ++ ⟨"from", none, "--from", true⟩ :: matchSpecs) true args
  orHelp p do
    let common ← commonOptions s p
    let shown ← matchOptions p
    let source ← pathValue "from" p
    match ← operands ["REFERENCE"] p.operands with
    | [reference] => return .resolve common shown reference source
    | _ => .error (.operandMissing "REFERENCE")

def resolveAtCommand (s : Surroundings) (args : List String) : Except UsageError Command := do
  let p ← read (commonSpecs ++ matchSpecs) true args
  orHelp p do
    let common ← commonOptions s p
    let shown ← matchOptions p
    let _ ← (p.operands.take 1).mapM (s.existingFile "FILE")
    match ← operands ["FILE", "LINE", "COLUMN"] p.operands with
    | [file, line, column] =>
      let line ← integerOperand "LINE" 1 none line
      let column ← integerOperand "COLUMN" 1 none column
      return .resolveAt common shown (.ofString file) line column
    | _ => .error (.operandMissing "FILE")

def watchCommand (s : Surroundings) (args : List String) : Except UsageError Command := do
  let p ← read (commonSpecs ++ [⟨"debounce", none, "--debounce-ms", true⟩]) true args
  orHelp p do
    let common ← commonOptions s p
    let debounce ← debounceValue p
    let _ ← operands [] p.operands
    return .watch common debounce

def validateCommand (s : Surroundings) (args : List String) : Except UsageError Command := do
  let p ← read [helpOption, configOption] true args
  orHelp p do
    let config ← configValue s p
    let _ ← operands [] p.operands
    match config with
    | some config => return .validate config
    | none => .error (.optionMissing "config")

def programCommand? (p : Parsed) : Option Command :=
  p.options.head?.map fun first => if first.name = "version" then .version else .help

/-- What is asked for in place of a command. After `--` there may still be options. -/
def otherCommand (name : String) (rest : List String) : Except UsageError Command := do
  match programCommand? (← read programSpecs false (name :: rest)) with
  | some command => return command
  | none => throw (.unknownCommand name)

/-- Reads the command in an argument list. An option of the program itself goes before any
command. -/
def Command.ofArguments (s : Surroundings) (args : List String) : Except UsageError Command := do
  let p ← read programSpecs false args
  match programCommand? p, p.operands with
  | some command, _ => return command
  | none, [] => .error .commandMissing
  | none, "index" :: rest => indexCommand s rest
  | none, "resolve" :: rest => resolveCommand s rest
  | none, "at" :: rest => resolveAtCommand s rest
  | none, "watch" :: rest => watchCommand s rest
  | none, "validate-config" :: rest => validateCommand s rest
  | none, name :: rest => otherCommand name rest

end KeyAtlas.CommandLine
