import CableRegistry.Answers
import CableRegistry.ArrivalOrder
import CableRegistry.Attestations
import CableRegistry.Blurring
import CableRegistry.Canonical
import CableRegistry.Catalogue
import CableRegistry.Claims
import CableRegistry.Codec
import CableRegistry.Compaction
import CableRegistry.Connection
import CableRegistry.Consistency
import CableRegistry.Conversation
import CableRegistry.Core
import CableRegistry.Derive
import CableRegistry.DerivedBounds
import CableRegistry.Digest
import CableRegistry.Dissent
import CableRegistry.Duplicates
import CableRegistry.Durability
import CableRegistry.Events
import CableRegistry.Evidence
import CableRegistry.Faults
import CableRegistry.FencedCounts
import CableRegistry.Fencing
import CableRegistry.Folding
import CableRegistry.Frames
import CableRegistry.Framing
import CableRegistry.Freshness
import CableRegistry.Graph
import CableRegistry.GraphIdentity
import CableRegistry.HighWater
import CableRegistry.Ids
import CableRegistry.ImageRoundTrip
import CableRegistry.Ingest
import CableRegistry.Injectivity
import CableRegistry.Inspecting
import CableRegistry.Inspection
import CableRegistry.LabelScan
import CableRegistry.LargerLimits
import CableRegistry.Lib.Crc
import CableRegistry.Lib.Delimited
import CableRegistry.Lib.FramedLog
import CableRegistry.Lib.LittleEndian
import CableRegistry.Lib.Order
import CableRegistry.Lib.Parse
import CableRegistry.Lib.Sorting
import CableRegistry.Lib.Supersession
import CableRegistry.Lifecycle
import CableRegistry.Lifetimes
import CableRegistry.LiveClaims
import CableRegistry.LiveLabels
import CableRegistry.Messages
import CableRegistry.OtherLimits
import CableRegistry.Overriding
import CableRegistry.OwnWords
import CableRegistry.Places
import CableRegistry.PortAnswers
import CableRegistry.PortParts
import CableRegistry.Protocol
import CableRegistry.Queries
import CableRegistry.Ranges
import CableRegistry.Reachable
import CableRegistry.Rearrangements
import CableRegistry.Recovery
import CableRegistry.Refusals
import CableRegistry.Registry
import CableRegistry.Reopening
import CableRegistry.Replacements
import CableRegistry.Replay
import CableRegistry.Requests
import CableRegistry.Resources
import CableRegistry.Restoration
import CableRegistry.Retirement
import CableRegistry.Rewriting
import CableRegistry.Salvage
import CableRegistry.Serialization
import CableRegistry.SideAnswers
import CableRegistry.SideEdges
import CableRegistry.SideRule
import CableRegistry.SingleSource
import CableRegistry.Snapshot
import CableRegistry.SnapshotCodec
import CableRegistry.SnapshotOrder
import CableRegistry.Splicing
import CableRegistry.State
import CableRegistry.StateImage
import CableRegistry.Steps
import CableRegistry.Store
import CableRegistry.StoreRuns
import CableRegistry.Tails
import CableRegistry.Validation
import CableRegistry.Verdicts
import CableRegistry.ViewCodec
import CableRegistry.Views
import CableRegistry.Vocabulary
import CableRegistry.Winners
