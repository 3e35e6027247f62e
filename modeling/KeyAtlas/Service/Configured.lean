import KeyAtlas.Service
import KeyAtlas.Settings.Basic

namespace KeyAtlas.Service

def hostOf (cwd : Path) (w : WorkspaceSettings) : Host :=
  .make cwd w.roots w.includePatterns w.excludePatterns

/-- A service in the working directory `cwd` with a debounce delay of `delay`. The globs that the
host passes over are also those that the indexer excludes. -/
def ofSettings {τ : Type} (cwd : Path) (delay : τ) (s : Settings) (watchAfterScan : Bool)
    (observer : Option Observer) : Service τ where
  feed :=
    { queue := .make cwd delay
      watcher := none
      state := ⟨.make (hostOf cwd s.workspace) s.workspace.excludePatterns, observer, []⟩
      log := []
      spare := 0 }
  isolate := s.resolver.isolate
  defaultFilter := s.resolver.filter
  watchAfterScan := watchAfterScan

end KeyAtlas.Service
