import KeyAtlas.Host
import KeyAtlas.Log.Record
import KeyAtlas.Resolution.Filter

namespace KeyAtlas

structure WorkspaceSettings where
  roots : List Path
  includePatterns : List String
  excludePatterns : List String

structure ResolverSettings where
  filter : Resolution.Filter
  isolate : Bool

structure WatchSettings where
  enabled : Bool
  /-- How many milliseconds a document stays quiet before it is read again. -/
  debounce : Nat

structure LoggingSettings where
  level : Log.Level
  file : Option Path
  verbosity : Int

structure Settings where
  workspace : WorkspaceSettings
  resolver : ResolverSettings
  watch : WatchSettings
  logging : LoggingSettings

namespace Settings

def longestDebounce : Nat :=
  10000

def default : Settings where
  workspace := ⟨[.ofString "."], Host.defaultIncludes, Host.defaultExcludes⟩
  resolver := ⟨.top, true⟩
  watch := ⟨false, 300⟩
  logging := ⟨.human, none, 0⟩

/-- The debounce delay in seconds. -/
def delay (s : Settings) : Float :=
  Float.ofNat s.watch.debounce / 1000

def value (s : Settings) : Value :=
  .record [
    ("workspace", .record [
      ("roots", .texts (s.workspace.roots.map Path.toString)),
      ("include_patterns", .texts s.workspace.includePatterns),
      ("exclude_patterns", .texts s.workspace.excludePatterns)]),
    ("resolver", .record [
      ("match_filter", .text s.resolver.filter.name),
      ("isolate_workspace_folders", .flag s.resolver.isolate)]),
    ("watch", .record [("enabled", .flag s.watch.enabled), ("debounce_ms", .int s.watch.debounce)]),
    ("logging", .record [
      ("level", .text s.logging.level.settingName),
      ("file", match s.logging.file with
        | none => .null
        | some p => .text p.toString),
      ("verbose", .int s.logging.verbosity)])]

end Settings

end KeyAtlas
