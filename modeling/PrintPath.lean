import PrintPath.Main
import PrintPath.Files.Tree
import PrintPath.Json.Quotation
import PrintPath.Number.Order
import PrintPath.Number.Sums
import PrintPath.Number.Value
import PrintPath.Number.Faithful
import PrintPath.Number.Arithmetic
import PrintPath.Number.Signs
import PrintPath.Number.Bounds
import PrintPath.Number.Differences
import PrintPath.Number.Nearest
import PrintPath.Proofs.Feeding
import PrintPath.Proofs.History
import PrintPath.Proofs.Words
import PrintPath.Proofs.Spacing
import PrintPath.Proofs.WordOrder
import PrintPath.Proofs.GluedLetters
import PrintPath.Proofs.Agreement
import PrintPath.Proofs.RecordedMoves
import PrintPath.Proofs.Contiguity
import PrintPath.Proofs.Codes
import PrintPath.Proofs.HeadPosition
import PrintPath.Proofs.Growth
import PrintPath.Proofs.FilamentTotal
import PrintPath.Proofs.ToolOffsets
import PrintPath.Proofs.Values
import PrintPath.Proofs.Duration
import PrintPath.Proofs.Finiteness
import PrintPath.Proofs.Magnitudes
import PrintPath.Proofs.Units
import PrintPath.Proofs.Redefinition
import PrintPath.Proofs.Diagnosis
import PrintPath.Proofs.ProfileUse
import PrintPath.Proofs.Sizes
import PrintPath.Proofs.Sessions
import PrintPath.Proofs.Comments
import PrintPath.Proofs.Preamble
import PrintPath.Proofs.InertLines
import PrintPath.Proofs.InlineComments
import PrintPath.Proofs.Calls
import PrintPath.Proofs.FileReports
import PrintPath.Proofs.LayerThickness
import PrintPath.Proofs.SegmentThickness
import PrintPath.Proofs.PositiveThickness
import PrintPath.Proofs.FilamentShares
import PrintPath.Proofs.Recovery
import PrintPath.Proofs.Progress
import PrintPath.Proofs.FirstValues
import PrintPath.Proofs.CanonicalTypes
import PrintPath.Proofs.OffsetEntries
import PrintPath.Proofs.Announcements
