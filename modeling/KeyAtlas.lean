import KeyAtlas.Main
import KeyAtlas.FileTree.Edit
import KeyAtlas.Proofs.OrderedMap
import KeyAtlas.Proofs.Index.Grouping
import KeyAtlas.Proofs.Index.Live
import KeyAtlas.Proofs.Index.Scan
import KeyAtlas.Proofs.Resolution.Ranking
import KeyAtlas.Proofs.Resolution.BruteForce
import KeyAtlas.Proofs.FileTree.Proper
import KeyAtlas.Proofs.Document.Entries
import KeyAtlas.Proofs.Host.Documents
import KeyAtlas.Proofs.Index.Contents
import KeyAtlas.Proofs.Index.Slots
import KeyAtlas.Proofs.Indexer.Contents
import KeyAtlas.Proofs.Indexer.LastTouch
import KeyAtlas.Proofs.Glob.Meaning
import KeyAtlas.Proofs.Glob.Trailing
import KeyAtlas.Proofs.FileTree.Reach
import KeyAtlas.Proofs.Indexer.Targets
import KeyAtlas.Proofs.FileTree.Alter
import KeyAtlas.Proofs.Update.Latest
import KeyAtlas.Proofs.Update.Report
import KeyAtlas.Proofs.Update.Tracking
import KeyAtlas.Proofs.Service.Convergence
import KeyAtlas.Proofs.Update.Coalescing
import KeyAtlas.Proofs.Resolution.Isolation
import KeyAtlas.Proofs.Update.Taking
import KeyAtlas.Proofs.Service.Overlap
import KeyAtlas.Proofs.Document.Block
import KeyAtlas.Proofs.Document.Quoted
import KeyAtlas.Proofs.Document.Reading
import KeyAtlas.Proofs.Document.Exact
import KeyAtlas.Proofs.Document.Nesting
import KeyAtlas.Proofs.Document.Anchors
import KeyAtlas.Proofs.Document.Separator
import KeyAtlas.Proofs.Document.ScalarBody
import KeyAtlas.Proofs.Update.Conservation
import KeyAtlas.Proofs.Update.Due
import KeyAtlas.Proofs.Update.Order
import KeyAtlas.Proofs.Update.Waiting
import KeyAtlas.Proofs.Indexer.Rescan
import KeyAtlas.Proofs.Indexer.Notices
import KeyAtlas.Proofs.Indexer.History
import KeyAtlas.Proofs.Indexer.Exclusion
import KeyAtlas.Proofs.Settings.Precedence
import KeyAtlas.Proofs.Settings.Legible
import KeyAtlas.Proofs.Settings.Adding
import KeyAtlas.Proofs.CommandLine.Omitted
import KeyAtlas.Proofs.CommandLine.Misconfigured
import KeyAtlas.Proofs.Resolution.Rearrangement
import KeyAtlas.Proofs.Glob.Depth
import KeyAtlas.Proofs.Host.Hidden
import KeyAtlas.Proofs.Indexer.RootOrder
import KeyAtlas.Proofs.Indexer.Unread
import KeyAtlas.Proofs.Reference.Naming
import KeyAtlas.Proofs.Reference.Spelling
import KeyAtlas.Proofs.Reference.Interpolation
import KeyAtlas.Proofs.Service.Cursor
import KeyAtlas.Proofs.Value.Leaves
import KeyAtlas.Proofs.Settings.Depth
