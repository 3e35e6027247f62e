
namespace KeyAtlas.Log

inductive Progress where
  | scanned (documents definitions failed : Nat)
  | watching (roots : List String)
  | stopped
  | updated (kind path : String) (definitions : Nat)
  | unresolved (reference : String)
  deriving DecidableEq, Repr

inductive Event where
  | rootMissing (root : String)
  | documentIndexed (document : String) (definitions : Nat)
  | documentFailed (document : String)
  | documentRemoved (document : String) (definitions : Nat)
  | eventExcluded (path : String)
  | scanComplete (documents definitions failed : Nat)
  | refreshing
  | queueStarted
  | queueStopped (applied coalesced : Nat)
  | applyFailed (kind path reason : String)
  | watchedRootMissing (root : String)
  | watcherStarted (roots : List String)
  | watcherStopped
  | resolved (reference filter : String) (shown : Nat)
  | readFailed (path : String)
  | disposed
  | progress (p : Progress)
  deriving DecidableEq, Repr

end KeyAtlas.Log
