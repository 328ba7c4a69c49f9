import ProtocolMocks.Main
import ProtocolMocks.Proofs.Position
import ProtocolMocks.Proofs.ViablePrefix
import ProtocolMocks.Proofs.Grammar
import ProtocolMocks.Proofs.Lexical
import ProtocolMocks.Proofs.Printing
import ProtocolMocks.Proofs.RoundTrip
import ProtocolMocks.Proofs.Partition
import ProtocolMocks.Proofs.RegionBounds
import ProtocolMocks.Proofs.Relayout
import ProtocolMocks.Proofs.Inventory
import ProtocolMocks.Proofs.PageText
import ProtocolMocks.Proofs.Concatenation
import ProtocolMocks.Proofs.NameListing
import ProtocolMocks.Proofs.Excerpt
import ProtocolMocks.Proofs.ErrorContext
import ProtocolMocks.Proofs.MemberReading
import ProtocolMocks.Proofs.MockReading
import ProtocolMocks.Proofs.SettingTable
import ProtocolMocks.Proofs.Overrides
import ProtocolMocks.Proofs.Precedence
import ProtocolMocks.Proofs.Generation
import ProtocolMocks.Proofs.JsonGrammar
import ProtocolMocks.Proofs.JsonReading
import ProtocolMocks.Proofs.InspectionReading
import ProtocolMocks.Proofs.BraceBalance
import ProtocolMocks.Proofs.Projection
import ProtocolMocks.Proofs.MockLayout
import ProtocolMocks.Proofs.Window
import ProtocolMocks.Proofs.StoredProperties
import ProtocolMocks.Proofs.Adjacency
import ProtocolMocks.Proofs.Progress
import ProtocolMocks.Proofs.Indentation
