import SmartDialer.Lib.Collection
import SmartDialer.Lib.Program
import SmartDialer.Lib.Interleaving
import SmartDialer.Lib.HostFloat
import SmartDialer.Lib.Passage
import SmartDialer.Lib.Conduct
import SmartDialer.Lib.Sequencing
import SmartDialer.Lib.History
import SmartDialer.Lib.Ownership
import SmartDialer.Model.Documents
import SmartDialer.StateMachines.AgentSm
import SmartDialer.StateMachines.CallSm
import SmartDialer.Repositories.AgentRepo
import SmartDialer.Repositories.BorrowerRepo
import SmartDialer.Repositories.CallRepo
import SmartDialer.Repositories.EventRepo
import SmartDialer.Model.Operations
import SmartDialer.System.Effects
import SmartDialer.Services.ReservationService
import SmartDialer.Services.CallAllocator
import SmartDialer.Services.EventProcessor
import SmartDialer.Workers.RecoveryWorker
import SmartDialer.Services.AgentActions
import SmartDialer.System.Conduct
import SmartDialer.System.Conformance
import SmartDialer.Calls.Creator
import SmartDialer.Calls.Evolution
import SmartDialer.Calls.Lifecycle
import SmartDialer.Calls.Origination
import SmartDialer.Calls.InFlight
import SmartDialer.Calls.Readiness
import SmartDialer.Calls.Ringing
import SmartDialer.Ownership.Leases
import SmartDialer.Ownership.Holding
import SmartDialer.Ownership.Step
import SmartDialer.Ownership.Invariant
import SmartDialer.Ownership.Exclusive
import SmartDialer.Recovery.Scope
import SmartDialer.Recovery.Sweeps
import SmartDialer.Recovery.Coverage
import SmartDialer.Recovery.Drain
import SmartDialer.Recovery.LiveCalls
import SmartDialer.Recovery.Orphans
import SmartDialer.Ownership.Unbound
import SmartDialer.Events.Solo
import SmartDialer.Events.Answered
import SmartDialer.Events.Confluence
import SmartDialer.Events.Ledger
import SmartDialer.Events.Redelivery
import SmartDialer.Metrics.Utilization
import SmartDialer.Metrics.Conservation
import SmartDialer.Safety.SafetyController
import SmartDialer.Safety.ClosedForm
import SmartDialer.Safety.Isolation
import SmartDialer.Safety.Explanation
import SmartDialer.Calls.Budget
import SmartDialer.Borrowers.RetryAutomaton
import SmartDialer.Agents.Lifecycle
import SmartDialer.Recovery.Completeness
import SmartDialer.Ownership.Compensation
import SmartDialer.Events.Following
import SmartDialer.Recovery.Agreement
import SmartDialer.Recovery.Pace
import SmartDialer.Recovery.Setup
import SmartDialer.Recovery.Protection
import SmartDialer.Calls.Failures
import SmartDialer.Calls.Endings
import SmartDialer.Calls.Handled
import SmartDialer.Metrics.Ratio
import SmartDialer.Providers.Window
import SmartDialer.Providers.Degradation
import SmartDialer.Pacing.Engine
import SmartDialer.Pacing.Bounds
import SmartDialer.Pacing.Progressive
import SmartDialer.Dialers.Base
import SmartDialer.Dialers.Spending
import SmartDialer.Dialers.Concurrency
import SmartDialer.Ownership.Campaigns
import SmartDialer.Platform.Operations
import SmartDialer.Workers.DialerWorker
import SmartDialer.Simulation.Simulators
import SmartDialer.Simulation.InvariantChecker
import SmartDialer.Platform.System
import SmartDialer.Platform.Refinement
import SmartDialer.Platform.Watching
import SmartDialer.Dialers.Creations
import SmartDialer.Platform.Audit
import SmartDialer.Platform.WrapUp
import SmartDialer.Platform.Bursts
import SmartDialer.Providers.MockProvider
import SmartDialer.Providers.MockScript
import SmartDialer.Providers.Reports
import SmartDialer.Simulation.Engine
import SmartDialer.Platform.Rounds
import SmartDialer.Simulation.Runner
