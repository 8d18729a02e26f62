import Coordination.Main
import Coordination.RateLimit.Codec
import Coordination.Remote.Playback
import Coordination.Rehearsal.Mask
import Coordination.Rehearsal.Run
import Coordination.Settings.Codec
import Coordination.Proofs.Pool.Path
import Coordination.Proofs.Pool.Run
import Coordination.Proofs.Store.Cell
import Coordination.Proofs.Pool.History
import Coordination.Proofs.Lock.Exclusion
import Coordination.Proofs.Idempotency.Course
import Coordination.Proofs.Idempotency.Winner
import Coordination.Proofs.Http.Course
import Coordination.Proofs.Json.Records
import Coordination.Proofs.Idempotency.Record
import Coordination.Proofs.Http.Holder
import Coordination.Proofs.Http.Execution
import Coordination.Proofs.Http.Replay
import Coordination.Proofs.Store.Ideal
import Coordination.Proofs.Turn.Play
import Coordination.Proofs.Idempotency.Machine
import Coordination.Proofs.RateLimit.Course
import Coordination.Proofs.RateLimit.Cap
import Coordination.Proofs.RateLimit.Threshold
import Coordination.Proofs.Turn.World
import Coordination.Proofs.Http.Admission
import Coordination.Proofs.SignIn.Course
import Coordination.Proofs.SignIn.Streak
import Coordination.Proofs.SignIn.Race
import Coordination.Proofs.Pool.Requests
import Coordination.Proofs.SignIn.Lockout
import Coordination.Proofs.Services.Closed
import Coordination.Proofs.Services.Transience
import Coordination.Proofs.Services.Isolation
import Coordination.Proofs.Remote.Agreement
import Coordination.Proofs.SignIn.Backing
import Coordination.Proofs.RateLimit.Decision
import Coordination.Proofs.RateLimit.Block
import Coordination.Proofs.Http.Fidelity
import Coordination.Proofs.SignIn.Delay
import Coordination.Proofs.SignIn.Census
import Coordination.Proofs.Http.Settlement
import Coordination.Proofs.Rehearsal.Sparing
import Coordination.Proofs.Lock.Scope
import Coordination.Proofs.Store.Failing
import Coordination.Proofs.RateLimit.Hint
import Coordination.Proofs.Settings.Accepted
import Coordination.Proofs.Services.Lifetimes
import Coordination.Proofs.Services.Clock
import Coordination.Proofs.Store.Sweep
import Coordination.Proofs.Remote.RoundTrip
import Coordination.Proofs.Console.Delay
import Coordination.Proofs.Console.Wait
import Coordination.Proofs.Settings.Order
import Coordination.Proofs.Idempotency.Sentinel
