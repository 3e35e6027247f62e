import KeyAtlas.Definition
import KeyAtlas.Indexer
import KeyAtlas.Settings.Basic
import KeyAtlas.Value.Json

namespace KeyAtlas.CommandLine

def displayPath (cwd : Path) (document : String) : String :=
  match (Path.ofString document).relativeTo? cwd with
  | some parts => Path.relativeText parts
  | none => document

def lines (texts : List String) : String :=
  String.join (texts.map (· ++ "\n"))

/-- Build times are not measured. -/
def buildTime : Value :=
  .float 0

def statsValue (s : ScanStats) : Value :=
  .record [("documents", .int s.documents), ("definitions", .int s.definitions),
    ("suffix_keys", .int s.suffixes), ("failed", .texts s.failed), ("build_time_ms", buildTime)]

def statsText (cwd : Path) (s : ScanStats) : String :=
  lines (["Documents:    " ++ toString s.documents, "Definitions:  " ++ toString s.definitions,
    "Suffix keys:  " ++ toString s.suffixes] ++
    s.failed.map fun document => "Unreadable:   " ++ displayPath cwd document)

def matchValue (m : Match) : Value :=
  let anchor := m.definition.anchor
  .record [("document", .text m.document), ("line", .int anchor.line), ("start", .int anchor.start),
    ("end", .int anchor.stop), ("match_level", .int m.level), ("path", .text m.definition.dotted)]

def matchLine (cwd : Path) (m : Match) : String :=
  let anchor := m.definition.anchor
  displayPath cwd m.document ++ ":" ++ toString (anchor.line + 1) ++ ":" ++
    toString (anchor.start + 1) ++ "  level=" ++ toString m.level ++ "  " ++ m.definition.dotted

def jsonText (v : Value) : String :=
  Value.Json.pretty 0 v ++ "\n"

def statsReport (cwd : Path) (json : Bool) (s : ScanStats) : String :=
  if json then jsonText (statsValue s) else statsText cwd s

def matchesReport (cwd : Path) (json : Bool) (found : List Match) : String :=
  if json then jsonText (.sequence (found.map matchValue)) else lines (found.map (matchLine cwd))

def settingsReport (config : Path) (s : Settings) : String :=
  lines ["Valid configuration: " ++ config.toString,
    "  Roots:           " ++ ", ".intercalate (s.workspace.roots.map Path.toString),
    "  Include:         " ++ ", ".intercalate s.workspace.includePatterns,
    "  Exclude:         " ++ toString s.workspace.excludePatterns.length ++ " patterns",
    "  Match filter:    " ++ s.resolver.filter.name,
    "  Isolate folders: " ++ (Value.flag s.resolver.isolate).display,
    "  Watch debounce:  " ++ toString s.watch.debounce ++ "ms"]

def versionReport : String :=
  "hydralink, version 0.3.0\n"

def helpReport : String :=
  lines ["Usage: hydralink [OPTIONS] COMMAND [ARGS]...", "",
    "  Resolves references to keys across trees of YAML documents.", "", "Commands:",
    "  at               Resolve the reference at a line and column of a file.",
    "  index            Scan the workspace and print statistics.",
    "  resolve          Resolve a reference to its definitions.",
    "  validate-config  Check a configuration file.",
    "  watch            Keep the index up to date and report updates."]

end KeyAtlas.CommandLine
