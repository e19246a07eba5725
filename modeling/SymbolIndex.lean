import SymbolIndex.Event.Print
import SymbolIndex.Format
import SymbolIndex.Main
import SymbolIndex.Proofs.Session.Agreement
import SymbolIndex.Proofs.Session.Commute
import SymbolIndex.Proofs.Session.FileRecords
import SymbolIndex.Proofs.Session.Lossless
import SymbolIndex.Proofs.Session.Malformed
import SymbolIndex.Proofs.Session.Phases
import SymbolIndex.Proofs.Session.Reindex
import SymbolIndex.Proofs.Session.Replay
import SymbolIndex.Proofs.Session.Rounds
import SymbolIndex.Report.Style
import SymbolIndex.Workspace.Directory
import SymbolIndex.Proofs.Store.Undocumented
import SymbolIndex.Proofs.Session.Undocumented
import SymbolIndex.Proofs.Store.Calls
import SymbolIndex.Proofs.Store.FirstWriter
import SymbolIndex.Proofs.Session.References
import SymbolIndex.Proofs.Session.Imports
import SymbolIndex.Proofs.Text.Bytes
import SymbolIndex.Proofs.Identity
import SymbolIndex.Proofs.Insertions
import SymbolIndex.Proofs.KnownFiles
import SymbolIndex.Proofs.ThreeLists
import SymbolIndex.Proofs.Event.Splitting
import SymbolIndex.Proofs.Store.FunctionLists
import SymbolIndex.Proofs.Store.ReadBack
import SymbolIndex.Proofs.Store.Builds
import SymbolIndex.Proofs.Json.Grammar
import SymbolIndex.Proofs.Json.Fields
import SymbolIndex.Proofs.Json.Reads
import SymbolIndex.Proofs.Event.Shapes
import SymbolIndex.Proofs.Event.Objects
import SymbolIndex.Proofs.Json.Range
import SymbolIndex.Proofs.Event.Tolerance
