import SmartDialer.Lib.History
import SmartDialer.Simulation.InvariantChecker
import SmartDialer.Simulation.Simulators
import SmartDialer.System.Conduct

/-!
# The platform as a machine of interleaved processes

A job is the whole life of a process or task: a dialer worker with all its rounds over all running
campaigns, a recovery worker with all its sweeps, the delivery of a call's events, a burst of the
fault injector, a request to the API. Any number of them run side by side over one store.

One request is left out: `seed_demo_data` of `routes_campaigns.py`, which inserts agents and borrowers
into a campaign while the workers may be running. No operation of the dialer adds to these
collections, so the agents and borrowers of a run are those that it starts with.

The operations of the dialer and those of the platform are the two sides of a sum, and a thread's
stage is its whole history, so that a conduct may speak of anything a process has done so far.
`platformUnder` and `asks` prepare the refinement: which runs of the platform the rules of the
dialer let pass, and what a process asks of the dialer beside running its jobs.
-/

namespace SmartDialer

open Concurrent HostFloat

variable {F : Type}

/-! ## Requests (`app/api/routes_campaigns.py`) -/

/-- Which status a request sets. -/
inductive CampaignAction where
  | START | PAUSE | STOP
  deriving DecidableEq

/-- `STATUS_ACTIONS`. -/
def CampaignAction.status : CampaignAction → CampaignStatus
  | .START => .RUNNING
  | .PAUSE => .PAUSED
  | .STOP => .STOPPED

namespace CampaignRoutes

/-- `require_campaign`. -/
def requireCampaign (campaignId : DocId) : PlatformPy F (CampaignDocument F) := do
  let campaign ← ask (.findCampaignById campaignId)
  match campaign with
  | none => .raise (.notFound "campaign" campaignId.val)
  | some campaign => pure campaign

/-- `to_summary(updated)`, which raises on `None`. -/
def toSummary : Option (CampaignDocument F) → PlatformPy F (CampaignDocument F)
  | none => .raise (.other "AttributeError")
  | some campaign => pure campaign

/-- `create_campaign`. -/
def createCampaign (campaign : CampaignDocument F) : PlatformPy F (CampaignDocument F) := do
  ask (.insertCampaign campaign)
  pure campaign

/-- `change_status`. -/
def changeStatus (campaignId : DocId) (action : CampaignAction) :
    PlatformPy F (CampaignDocument F) := do
  let campaign ← requireCampaign campaignId
  let updated ← ask (.setStatus campaign.id action.status)
  toSummary updated

/-- `set_mode`. -/
def setMode (campaignId : DocId) (mode : DialingMode) : PlatformPy F (CampaignDocument F) := do
  let campaign ← requireCampaign campaignId
  let updated ← ask (.setDialingMode campaign.id mode)
  toSummary updated

end CampaignRoutes

/-! ## Jobs

A worker's loop ends after a number of rounds that its job fixes; in the source it ends when its
task is cancelled, which a thread may be at any operation. So every prefix of an endless worker is a
run of some job here. -/

/-- A process or task of the platform, with all that its life will be told to do. -/
inductive PlatformJob (F : Type) where
  | dialerWorker (workerId : WorkerId) (rounds : Nat)
  | recoveryWorker (rounds : Nat)
  | deliverEvents (events : List ProviderEvent)
  | duplicateEventBurst (providerCallId : Option String)
  | outOfOrderBurst (providerCallId : Option String)
  | agentAction (agentId : DocId) (action : String)
  | logEveryoneIn (campaignId : DocId)
  | takeAgentsOffline (campaignId : DocId) (count : Int)
  | heartbeats (campaignId : DocId) (rounds : Nat)
  | createCampaign (campaign : CampaignDocument F)
  | changeStatus (campaignId : DocId) (action : CampaignAction)
  | setMode (campaignId : DocId) (mode : DialingMode)
  | check (campaignId : DocId) (final : Bool)

/-- What a job ends with, where its caller sees it. -/
inductive PlatformOutcome (F : Type) where
  | ended
  | replayed (results : List EventProcessingResult)
  | agent (agent : Option Agent)
  | affected (count : Nat)
  | campaign (campaign : CampaignDocument F)
  | violations (violations : List InvariantViolation)

/-- The jobs of recovery. -/
def PlatformJob.recovers : PlatformJob F → Bool
  | .recoveryWorker _ => true
  | _ => false

/-- What each job does. -/
def PlatformJob.program [FloatArith F] (pc : PlatformConfig F) :
    PlatformJob F → PlatformPy F (PlatformOutcome F)
  | .dialerWorker workerId rounds => do
    DialerWorker.run pc workerId rounds
    pure .ended
  | .recoveryWorker rounds => do
    RecoveryWorker.run pc rounds
    pure .ended
  | .deliverEvents events => do
    MockProvider.deliverEvents pc.cfg events
    pure .ended
  | .duplicateEventBurst providerCallId => do
    let results ← FaultInjector.duplicateEventBurst pc.cfg providerCallId
    pure (.replayed results)
  | .outOfOrderBurst providerCallId => do
    let results ← FaultInjector.outOfOrderBurst pc.cfg providerCallId
    pure (.replayed results)
  | .agentAction agentId action => do
    let agent ← dialer F (AgentActions.agentAction agentId action)
    pure (.agent agent)
  | .logEveryoneIn campaignId => do
    let count ← AgentSimulator.logEveryoneIn campaignId
    pure (.affected count)
  | .takeAgentsOffline campaignId count => do
    let count ← AgentSimulator.takeAgentsOffline campaignId count
    pure (.affected count)
  | .heartbeats campaignId rounds => do
    AgentSimulator.heartbeats campaignId rounds
    pure .ended
  | .createCampaign campaign => do
    let campaign ← CampaignRoutes.createCampaign campaign
    pure (.campaign campaign)
  | .changeStatus campaignId action => do
    let campaign ← CampaignRoutes.changeStatus campaignId action
    pure (.campaign campaign)
  | .setMode campaignId mode => do
    let campaign ← CampaignRoutes.setMode campaignId mode
    pure (.campaign campaign)
  | .check campaignId final => do
    let violations ← InvariantChecker.check pc.cfg.settings campaignId final
    pure (.violations violations)

/-! ## The machine

`platform` records the history of each thread. Nothing is forbidden here: the conducts of the
modules that follow are proved of it, not put into it. -/

/-- What a process has done so far. -/
abbrev PlatformHistory (F : Type) :=
  History (Op ⊕ PlatformOp F) (EitherRes Res (PlatformRes F)) Exn

/-- The platform, with every thread's history as its stage. -/
def platform [FloatArith F] (pc : PlatformConfig F) :
    Machine (PlatformJob F) (Op ⊕ PlatformOp F) (EitherRes Res (PlatformRes F)) Exn
      (PlatformStore F) (PlatformEnv F) (PlatformOutcome F) (PlatformHistory F) :=
  Machine.recording platformExec (PlatformJob.program pc)

abbrev PlatformWorld (F : Type) :=
  World (PlatformJob F) (Op ⊕ PlatformOp F) (EitherRes Res (PlatformRes F)) Exn (PlatformStore F)
    (PlatformEnv F) (PlatformOutcome F) (PlatformHistory F)

abbrev PlatformRegime (F : Type) :=
  Regime (PlatformJob F) (Op ⊕ PlatformOp F) (PlatformStore F) (PlatformEnv F) (PlatformHistory F)

/-- The platform under the rules `R` of the dialer: every process may run, recovery where `R` has
it, and an operation of the dialer may be performed when `R` lets everybody perform it. -/
def platformUnder (R : SystemRegime) : PlatformRegime F where
  admits := fun job => job.recovers = true → R.admits .runSweeps
  guard := fun σ _ _ o ε =>
    match o with
    | .inl o => ∀ st q, R.guard σ.base st q o ε.base
    | .inr _ => True

/-- What the platform asks of the dialer: its jobs run to their end, the queries of snapshots, of
the safety controller and of the checker, and what simulated agents do. -/
def asks (R : SystemRegime) : Repertoire Job Op where
  jobs := R.admits
  reads := fun o =>
    SafetyController.reads o = true ∨ ∃ olderThan limit, o = .findStaleCalls olderThan limit
  deeds := fun o =>
    (∃ a s t v, o = .transitionAgent a s t .AGENT v
      ∧ (s = .OFFLINE ∧ t = .AVAILABLE ∨ s = .AVAILABLE ∧ t = .OFFLINE))
    ∨ ∃ a, o = .heartbeat a
  told := fun o =>
    match o with
    | .transitionAgent _ _ _ .AGENT _ | .heartbeat _ | .findStaleCalls .. | .findAgentById _ => false
    | o => !SafetyController.reads o

end SmartDialer
