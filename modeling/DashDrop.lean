import DashDrop.Transport.Evidence
import DashDrop.Sending.PeerBinding
import DashDrop.Sending.Cancellation
import DashDrop.Sending.SourceChanges
import DashDrop.Lifecycle.Overlap
import DashDrop.Lifecycle.Owners
import DashDrop.Lifecycle.Terminal
import DashDrop.Lifecycle.Revisions
import DashDrop.Receiving.Isolation
import DashDrop.Receiving.Lengths
import DashDrop.Receiving.Decision
import DashDrop.Receiving.Maintenance
import DashDrop.Receiving.OfferExit
import DashDrop.Receiving.Containment
import DashDrop.Receiving.Separation
import DashDrop.Receiving.SideBySide
import DashDrop.Receiving.AutoAccept
import DashDrop.Receiving.Resume
import DashDrop.Exchange.Routing
import DashDrop.Exchange.Acks
import DashDrop.Exchange.Permits
import DashDrop.Pairing.Authenticity
import DashDrop.Trust.Persistence
import DashDrop.Trust.Migration
import DashDrop.Events.Naming
import DashDrop.Events.Delivery
import DashDrop.Ipc.Authorization
import DashDrop.Ipc.Frames
import DashDrop.Ipc.FeedFrames
import DashDrop.Events.Hints
import DashDrop.Ui.Polling
import DashDrop.Ui.Convergence
import DashDrop.Ui.EventChain
import DashDrop.Ui.CatchingUp
import DashDrop.History.Order
import DashDrop.History.Dirty
import DashDrop.Exchange.Outcomes
import DashDrop.Trust.Coherence
import DashDrop.Trust.Freezing
import DashDrop.Trust.Atomicity
import DashDrop.Trust.TableWrites
import DashDrop.Discovery.TrustFlags
import DashDrop.Discovery.Reachability
import DashDrop.Discovery.SessionIndex
import DashDrop.Receiving.Notifications
import DashDrop.Receiving.Requests
import DashDrop.Receiving.ClientAuth
import DashDrop.Transport.Mismatch
import DashDrop.Ipc.TokenCache
import DashDrop.Transport.PathGrammar
import DashDrop.Transport.Destinations
import DashDrop.Receiving.Cleanup
import DashDrop.Receiving.Preservation
import DashDrop.Sending.FileChunks
import DashDrop.Transport.Wire
import DashDrop.Sending.SourceWalk
import DashDrop.Sending.OwnOffers
import DashDrop.Sending.Selections
import DashDrop.Sending.Retries
import DashDrop.Runtime.SharePaths
import DashDrop.Transport.RateLimits
import DashDrop.Discovery.Answers
import DashDrop.Discovery.BleAssist
import DashDrop.Discovery.HostLabel
import DashDrop.Trust.Rows
import DashDrop.Trust.StoreRuns
import DashDrop.Pairing.SignedLinks
import DashDrop.Pairing.Codes
import DashDrop.Pairing.CodeShape
import DashDrop.Ipc.RequestCodec
import DashDrop.Ipc.ResponseCodec
import DashDrop.Ipc.CoreCommands
import DashDrop.Ipc.Connection
import DashDrop.Ipc.Parity
import DashDrop.Runtime.DeviceIdentity
import DashDrop.Runtime.IdleExit
import DashDrop.Receiving.Arrival
