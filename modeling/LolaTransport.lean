import LolaTransport.Proofs.Frame
import LolaTransport.Proofs.Pull
import LolaTransport.Proofs.PullOrder
import LolaTransport.Proofs.Rejects
import LolaTransport.Proofs.Layout
import LolaTransport.Proofs.Registry
import LolaTransport.Proofs.Exhaustion
import LolaTransport.Proofs.SlotMapping
import LolaTransport.Proofs.PlainFrames
import LolaTransport.PullCalls
import LolaTransport.Proofs.PullCalls
import LolaTransport.Proofs.PullConservation
import LolaTransport.Proofs.PullNotFound
import LolaTransport.Proofs.PullCancel
import LolaTransport.Proofs.PullClientOrder
import LolaTransport.Proofs.TxLoans
import LolaTransport.Proofs.NativePull
import LolaTransport.Proofs.NativeQueue
import LolaTransport.Proofs.Listeners
import LolaTransport.Proofs.ListenerTasks
import LolaTransport.Proofs.EventPipe
import LolaTransport.Proofs.PullProgress
import LolaTransport.Proofs.WireImage
import LolaTransport.Proofs.Registrations
import LolaTransport.Proofs.Unregistered
import LolaTransport.Proofs.SinglePoller
import LolaTransport.Proofs.Alignment
import LolaTransport.Proofs.PullRejects
import LolaTransport.Proofs.Spelling
import LolaTransport.Proofs.SelfDelimiting
import LolaTransport.Proofs.PoolLife
import LolaTransport.Proofs.Lifecycle
import LolaTransport.Proofs.SubscriptionOrder
import LolaTransport.Proofs.StubTransport
import LolaTransport.Proofs.ListenerRounds
import LolaTransport.Proofs.OwnedBenchmark
import LolaTransport.Proofs.EventListeners
