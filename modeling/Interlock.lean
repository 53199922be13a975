import Interlock.Script.Answer
import Interlock.Proofs.Condition.Attribution
import Interlock.Proofs.Condition.Delivery
import Interlock.Proofs.Condition.Sharing
import Interlock.Proofs.Condition.Rest
import Interlock.Proofs.Exclusion
import Interlock.Proofs.Unwinding
import Interlock.Proofs.WakeEvents
import Interlock.Proofs.Semaphore
import Interlock.Proofs.Once.Passage
import Interlock.Proofs.Thread.Lifecycle
import Interlock.Proofs.Thread.Name
import Interlock.Proofs.Contracts
import Interlock.Proofs.Scoping
import Interlock.Proofs.Agreement.Refinement
import Interlock.Proofs.Monitor.Family
