import Proactor.Main
import Proactor.Proofs.Abreast
import Proactor.Proofs.Accepted
import Proactor.Proofs.Accounting
import Proactor.Proofs.AllOrNothing
import Proactor.Proofs.Asking
import Proactor.Proofs.Backlog
import Proactor.Proofs.Building
import Proactor.Proofs.Bytes
import Proactor.Proofs.Closing
import Proactor.Proofs.Dispatch
import Proactor.Proofs.DottedText
import Proactor.Proofs.Drain
import Proactor.Proofs.Entries
import Proactor.Proofs.FiniteMap
import Proactor.Proofs.Halves
import Proactor.Proofs.HandOff
import Proactor.Proofs.Hidden
import Proactor.Proofs.History
import Proactor.Proofs.Idle
import Proactor.Proofs.IdlePumps
import Proactor.Proofs.InOrder
import Proactor.Proofs.Interrupts
import Proactor.Proofs.Invisible
import Proactor.Proofs.Lasting
import Proactor.Proofs.LatePosts
import Proactor.Proofs.Lending
import Proactor.Proofs.Memory
import Proactor.Proofs.Moments
import Proactor.Proofs.OneByOne
import Proactor.Proofs.Outcomes
import Proactor.Proofs.OwnSlot
import Proactor.Proofs.PollingPort
import Proactor.Proofs.PortRuns
import Proactor.Proofs.Posters
import Proactor.Proofs.Posting
import Proactor.Proofs.Readings
import Proactor.Proofs.Registrations
import Proactor.Proofs.Reoccupied
import Proactor.Proofs.Replay
import Proactor.Proofs.Retrieval
import Proactor.Proofs.RingLedger
import Proactor.Proofs.RingPort
import Proactor.Proofs.RoundTrip
import Proactor.Proofs.SenderNames
import Proactor.Proofs.SeparateHalves
import Proactor.Proofs.Settings
import Proactor.Proofs.Slab
import Proactor.Proofs.Stability
import Proactor.Proofs.Staleness
import Proactor.Proofs.Standing
import Proactor.Proofs.Submission
import Proactor.Proofs.TimedWaits
import Proactor.Proofs.Tokens
import Proactor.Proofs.Validation
import Proactor.Proofs.Wakeups
import Proactor.Proofs.Waking
import Proactor.Session.EngineSession
import Proactor.Session.PortSession
