import KeyAtlas.Host
import KeyAtlas.Index
import KeyAtlas.Log.Event
import KeyAtlas.Update.Event

namespace KeyAtlas

inductive DocumentState where
  | unindexed
  | indexed
  | reindexed
  | removed
  deriving DecidableEq, Repr

def DocumentState.name : DocumentState → String
  | unindexed => "unindexed"
  | indexed => "indexed"
  | reindexed => "reindexed"
  | removed => "removed"

structure Indexer where
  host : Host
  excludePatterns : List String
  /-- How many deleted documents are remembered. A negative limit leaves no room for any history,
  not even for an empty one. -/
  historyLimit : Int
  index : Index Definition
  states : OrderedMap String DocumentState
  /-- The deleted documents, the latest last. -/
  removed : List String
  scanned : Bool

inductive UpdateFailure where
  | read (failure : ReadFailure)
  | noHistory
  deriving DecidableEq, Repr

structure ScanStats where
  documents : Nat
  definitions : Nat
  suffixes : Nat
  failed : List String
  deriving DecidableEq, Repr

namespace Indexer

def defaultHistoryLimit : Int :=
  256

def make (host : Host) (excludePatterns : List String) : Indexer :=
  ⟨host, excludePatterns, defaultHistoryLimit, .empty, .empty, [], false⟩

/-- Tests a document against the exclusion globs by its path below its workspace root, or by its
absolute path outside every root. -/
def isExcluded (i : Indexer) (p : Path) : Bool :=
  let full := i.host.cwd.absolute p
  let candidate := match i.host.rootOf full with
    | some root => Path.relativeText (full.parts.drop root.parts.length)
    | none => full.toString
  matchesAny candidate i.excludePatterns

/-- Adds what a document defines, or notes that it could not be read. A failure that is not
contained leaves the state of the document as it was. -/
def load (i : Indexer) (document : String) :
    Except ReadFailure (List Definition) → Indexer × Except ReadFailure Bool
  | .ok definitions =>
    ({ i with
        removed := i.removed.filter (· ≠ document)
        index := i.index.addAll definitions
        states := i.states.insert document .indexed }, .ok true)
  | .error failure =>
    let i := { i with removed := i.removed.filter (· ≠ document) }
    if failure.isContained then
      ({ i with states := i.states.insert document .unindexed }, .ok false)
    else (i, .error failure)

def loadAll (disk : Disk) : Indexer → List Path → Indexer × Except ReadFailure (List String)
  | i, [] => (i, .ok [])
  | i, p :: rest =>
    let document := i.host.documentId p
    match i.load document (i.host.contribution disk p) with
    | (next, .error failure) => (next, .error failure)
    | (next, .ok loaded) =>
      let (last, result) := loadAll disk next rest
      (last, result.map fun failed => if loaded then failed else document :: failed)

def targets (i : Indexer) (tree : FileTree) : List Path :=
  (i.host.documents tree).filter fun p => !i.isExcluded p

def scan (i : Indexer) (disk : Disk) : Indexer × Except ReadFailure ScanStats :=
  let paths := i.targets disk.tree
  match i.host.listingFailure? disk.tree with
  | some failure => (i, .error failure)
  | none =>
    match i.loadAll disk paths with
    | (next, .error failure) => (next, .error failure)
    | (next, .ok failed) =>
      ({ next with scanned := true },
        .ok ⟨paths.length, next.index.size, next.index.suffixCount, failed⟩)

def reset (i : Indexer) : Indexer :=
  { i with index := .empty, states := .empty, removed := [] }

def refresh (i : Indexer) (disk : Disk) : Indexer × Except ReadFailure ScanStats :=
  i.reset.scan disk

def dispose (i : Indexer) : Indexer :=
  { i.reset with scanned := false }

def markReindexed (i : Indexer) (document : String) (previous : Option DocumentState) : Indexer :=
  if previous = some .indexed ∨ previous = some .reindexed then
    { i with states := i.states.insert document .reindexed }
  else i

def reload (i : Indexer) (disk : Disk) (p : Path) (created : Bool) :
    Indexer × Option UpdateFailure :=
  let document := i.host.documentId p
  let previous := i.states.get? document
  let cleared := { i with index := i.index.removeDocument document }
  match cleared.load document (i.host.contribution disk p) with
  | (next, .error failure) => (next, some (.read failure))
  | (next, .ok loaded) =>
    (if loaded && !created then next.markReindexed document previous else next, none)

def remember (limit : Nat) (removed : List String) (document : String) : List String :=
  let all := removed.filter (· ≠ document) ++ [document]
  all.drop (all.length - limit)

def lacksHistory (i : Indexer) (document : String) : Bool :=
  i.historyLimit < 0 && i.states.contains document

def forget (i : Indexer) (p : Path) : Indexer × Option UpdateFailure :=
  let document := i.host.documentId p
  ({ i with
      index := i.index.removeDocument document
      states := i.states.erase document
      removed := if i.states.contains document then remember i.historyLimit.toNat i.removed document
        else i.removed },
    if i.lacksHistory document then some .noHistory else none)

def apply (i : Indexer) (disk : Disk) (e : Update.Event) : Indexer × Option UpdateFailure :=
  if i.isExcluded e.path then (i, none)
  else match e.kind with
    | .deleted => i.forget e.path
    | .created => i.reload disk e.path true
    | .changed => i.reload disk e.path false

def stateOf (i : Indexer) (document : String) : DocumentState :=
  match i.states.get? document with
  | some state => state
  | none => if i.removed.contains document then .removed else .unindexed

def scannedDocuments (i : Indexer) : List String :=
  i.states.keys.mergeSort fun a b => a ≤ b

def loadReport (document : String) : Except ReadFailure (List Definition) → List Log.Event
  | .ok definitions => [.documentIndexed document definitions.length]
  | .error failure => if failure.isContained then [.documentFailed document] else []

/-- The reports of loading documents, up to the first failure that is not contained. -/
def loadAllReport (i : Indexer) (disk : Disk) : List Path → List Log.Event
  | [] => []
  | p :: rest =>
    let outcome := i.host.contribution disk p
    let report := loadReport (i.host.documentId p) outcome
    match outcome with
    | .ok _ => report ++ loadAllReport i disk rest
    | .error failure => if failure.isContained then report ++ loadAllReport i disk rest else report

def missingReport (i : Indexer) (tree : FileTree) : List Log.Event :=
  (i.host.missingRoots tree).map fun root => .rootMissing root.toString

def reportBefore (i : Indexer) (disk : Disk) (documents : List Path) : List Log.Event :=
  if (i.host.listingFailure? disk.tree).isSome then i.missingReport disk.tree
  else i.missingReport disk.tree ++
    i.loadAllReport disk ((i.targets disk.tree).takeWhile fun p => !documents.contains p)

def scanReport (i : Indexer) (disk : Disk) : List Log.Event :=
  i.reportBefore disk [] ++
    match (i.scan disk).2 with
    | .ok stats => [.scanComplete stats.documents stats.definitions stats.failed.length]
    | .error _ => []

def refreshReport (i : Indexer) (disk : Disk) : List Log.Event :=
  .refreshing :: i.reset.scanReport disk

def applyReport (i : Indexer) (disk : Disk) (e : Update.Event) : List Log.Event :=
  if i.isExcluded e.path then [.eventExcluded e.path.toString]
  else match e.kind with
    | .deleted =>
      let document := i.host.documentId e.path
      if i.lacksHistory document then []
      else [.documentRemoved document (i.index.definitionsFor document).length]
    | _ => loadReport (i.host.documentId e.path) (i.host.contribution disk e.path)

end Indexer

end KeyAtlas
