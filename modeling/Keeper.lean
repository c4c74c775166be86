import Keeper.Draft
import Keeper.Drift.Keyed
import Keeper.Cluster.Scene
import Keeper.Main
import Keeper.Proofs.Program
import Keeper.Proofs.CallProtocol
import Keeper.Proofs.Carriage
import Keeper.Proofs.Backend
import Keeper.Proofs.Fleet
import Keeper.Proofs.LostUpdate
import Keeper.Proofs.Equality
import Keeper.Proofs.Merge
import Keeper.Proofs.Origin
import Keeper.Proofs.RoundTrip
import Keeper.Proofs.Overlay
import Keeper.Proofs.FailureReport
import Keeper.Proofs.History
import Keeper.Proofs.Course
import Keeper.Proofs.Preview
import Keeper.Proofs.Spans
import Keeper.Proofs.Transmission
import Keeper.Proofs.Cancellation
import Keeper.Proofs.Classification
import Keeper.Proofs.Standstill
import Keeper.Proofs.Repetition
import Keeper.Proofs.Rerun
import Keeper.Proofs.Addressing
import Keeper.Proofs.Escape
import Keeper.Proofs.Takeover
import Keeper.Proofs.Mappings
import Keeper.Proofs.Layers
import Keeper.Proofs.Precedence
import Keeper.Proofs.Linkage
import Keeper.Proofs.Breakage
import Keeper.Proofs.Comparison
import Keeper.Proofs.Loading
import Keeper.Proofs.Unordered
import Keeper.Proofs.Ports
import Keeper.Proofs.Announcement
import Keeper.Proofs.Passage
import Keeper.Proofs.Redaction
import Keeper.Proofs.Password
import Keeper.Proofs.Timeouts
import Keeper.Proofs.References
import Keeper.Proofs.Variables
import Keeper.Proofs.Rendering
import Keeper.Proofs.Places
import Keeper.Proofs.Exposure
import Keeper.Proofs.DeepMerge
import Keeper.Proofs.Coercion
import Keeper.Proofs.Writability
import Keeper.Proofs.Sinks
import Keeper.Proofs.Keyed
import Keeper.Proofs.Drafts
