import Mosaic.Auth.Proofs.Credentials
import Mosaic.Auth.Proofs.Expiry
import Mosaic.Billing.Proofs.Locks
import Mosaic.Catalog.Proofs.Admission
import Mosaic.Billing.Proofs.Conservation
import Mosaic.Billing.Proofs.Replay
import Mosaic.Chat.Proofs.Busy
import Mosaic.Chat.Proofs.Claimable
import Mosaic.Chat.Proofs.Coherent
import Mosaic.Chat.Proofs.Completion
import Mosaic.Chat.Proofs.Log
import Mosaic.Chat.Proofs.Replay
import Mosaic.Chat.Proofs.Resendable
import Mosaic.Chat.Proofs.Stop
import Mosaic.Chat.Proofs.Transcript
import Mosaic.Generation.Proofs.Input
import Mosaic.Generation.Proofs.Outcome
import Mosaic.Generation.Proofs.Ownership
import Mosaic.Generation.Proofs.Replay
import Mosaic.Generation.Proofs.Release
import Mosaic.Generation.Proofs.VideoStatus
import Mosaic.Chat.Proofs.Sse
import Mosaic.Infrastructure.Proofs.Semaphore
import Mosaic.Outbox.Proofs.Fenced
import Mosaic.Web.Proofs.Convergence
import Mosaic.Messaging.Proofs.Codec
import Mosaic.Generation.Proofs.Chunks
import Mosaic.Generation.Proofs.Cleanup
import Mosaic.Auth.Proofs.Lockout
import Mosaic.Lib.IsoTime
import Mosaic.Web.DemoState
import Mosaic.Web.DemoScenario
import Mosaic.Web.DemoStore
import Mosaic.Web.Proofs.Persisted
import Mosaic.Web.Proofs.Kept
import Mosaic.Web.Proofs.Store
import Mosaic.Web.Proofs.Session
import Mosaic.Web.Proofs.Stored
