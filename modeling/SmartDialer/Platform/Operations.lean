import SmartDialer.Dialers.Base
import SmartDialer.Lib.Sequencing
import SmartDialer.Pacing.Engine

/-!
# The operations around the dialer

What the worker loops, the simulators and the endpoints ask for beside the operations of the dialer:
campaigns and their status (`app/repositories/campaign_repo.py`), the queries behind a pacing
snapshot, the decision log, the replay queries of the ledger. The store of the dialer is a part of
the store of the platform that none of these operations writes.
-/

namespace SmartDialer

open Concurrent DocStore HostFloat

/-! ## Campaigns

A campaign is written by requests only. Its status and its mode are set without asking what they
were. -/

/-- The status of a campaign. Only `RUNNING` campaigns are listed by workers. -/
inductive CampaignStatus where
  | DRAFT | RUNNING | PAUSED | STOPPED
  deriving DecidableEq, Repr

/-- `app/models/campaign.py`. -/
structure CampaignDocument (F : Type) extends PacedCampaign F where
  name : String
  status : CampaignStatus := .DRAFT
  createdAt : Time := 0
  updatedAt : Time := 0

instance (F : Type) : Keyed (CampaignDocument F) DocId := ⟨fun d => d.id⟩

abbrev Campaigns (F : Type) := Collection (CampaignDocument F)

namespace CampaignRepo

variable {F : Type}

def findById (campaignId : DocId) (campaigns : Campaigns F) : Option (CampaignDocument F) :=
  campaigns.get? campaignId

def findRunning (limit : Int) (campaigns : Campaigns F) : List (CampaignDocument F) :=
  limited limit (campaigns.find fun d => d.status = .RUNNING)

def setStatus (now : Time) (campaignId : DocId) (status : CampaignStatus)
    (campaigns : Campaigns F) : Option (CampaignDocument F) × Campaigns F :=
  campaigns.findOneAndUpdate campaignId (fun _ => True)
    (fun d => { d with status, updatedAt := now }) (fun _ => rfl)

def setDialingMode (now : Time) (campaignId : DocId) (mode : DialingMode)
    (campaigns : Campaigns F) : Option (CampaignDocument F) × Campaigns F :=
  campaigns.findOneAndUpdate campaignId (fun _ => True)
    (fun d => { d with dialingMode := mode, updatedAt := now }) (fun _ => rfl)

end CampaignRepo

/-! ## Queries outside the dialer

These read collections that the dialer writes, and write none of them. -/

/-- `find_active`: the unfinished calls of a campaign that have left the queue. -/
def CallRepo.findActive (campaignId : DocId) (limit : Int) (calls : Calls) : List Call :=
  (limited limit (calls.coll.find fun d =>
    d.campaignId = campaignId ∧ d.terminal = false ∧ d.state ≠ .QUEUED)).map Call.fromMongo

/-- `find_for_campaign`. -/
def AgentRepo.findForCampaign (campaignId : DocId) (limit : Int) (agents : Agents) : List Agent :=
  limited limit (agents.find fun d => d.campaignId = campaignId)

namespace EventRepo

/-- `_to_provider_event`: the payload is not stored. -/
def toProviderEvent (document : ProviderEventDocument) : ProviderEvent where
  providerName := document.providerName
  providerEventId := document.providerEventId
  providerCallId := document.providerCallId
  eventType := document.eventType
  providerTimestamp := document.providerTimestamp.getD document.receivedAt

def findProviderEventsForCall (providerCallId : String) (events : ProviderEvents) :
    List ProviderEvent :=
  ((events.find fun d => d.providerCallId = providerCallId).insertionSort
    (fun d e => d.receivedAt ≤ e.receivedAt)).map toProviderEvent

def findLatest (limit : Int) (events : ProviderEvents) : List ProviderEvent :=
  ((limited limit (events.docs.insertionSort fun d e => e.receivedAt ≤ d.receivedAt)).reverse).map
    toProviderEvent

end EventRepo

/-! ## Operations

The answer of an operation that raises, and of one that keeps its answer in the memory of a process,
is where the platform differs from its store: a fault may strike the first and never the second. -/

/-- What is asked for beside the operations of the dialer. -/
inductive PlatformOp (F : Type) where
  -- campaigns
  | findRunning (limit : Int)
  | findCampaignById (campaignId : DocId)
  | insertCampaign (campaign : CampaignDocument F)
  | setStatus (campaignId : DocId) (status : CampaignStatus)
  | setDialingMode (campaignId : DocId) (mode : DialingMode)
  -- pacing
  | averageTalkTimeSeconds (campaignId : DocId)
  | averageSetupTimeMs (campaignId : DocId)
  | countConnectedLongerThan (campaignId : DocId) (olderThan : Time)
  /-- The two lines that read and write `_previous_available` of a worker process. -/
  | exchangeAvailable (workerId : WorkerId) (campaignId : DocId) (availableAgents : Int)
  | healthFactor (providerName : String)
  | availabilityTracker (workerId : WorkerId)
  | recordPacingRequest (campaignId : DocId) (request : PacingRequest F)
  -- provider events
  | recordEventReceived (providerName : String)
  | findProviderEventsForCall (providerCallId : String)
  | findLatest (limit : Int)
  -- onlookers
  | findForCampaign (campaignId : DocId) (limit : Int)
  | findActive (campaignId : DocId) (limit : Int)

abbrev PlatformRes (F : Type) : PlatformOp F → Type
  | .findRunning .. => List (CampaignDocument F)
  | .findCampaignById .. => Option (CampaignDocument F)
  | .insertCampaign .. => Unit
  | .setStatus .. => Option (CampaignDocument F)
  | .setDialingMode .. => Option (CampaignDocument F)
  | .averageTalkTimeSeconds .. => F
  | .averageSetupTimeMs .. => F
  | .countConnectedLongerThan .. => Nat
  | .exchangeAvailable .. => Int
  | .healthFactor .. => F
  | .availabilityTracker .. => AgentAvailabilityTracker
  | .recordPacingRequest .. => DocId
  | .recordEventReceived .. => Unit
  | .findProviderEventsForCall .. => List ProviderEvent
  | .findLatest .. => List ProviderEvent
  | .findForCampaign .. => List Agent
  | .findActive .. => List Call

/-- `app/models/decisions.py`, a row of the pacing log. -/
structure PacingDecision (F : Type) where
  id : DocId
  campaignId : DocId
  dialingMode : DialingMode
  requested : Int
  inputs : List (String × InputValue F)
  explanation : String

/-- The store of the dialer, the campaigns, the log of pacing decisions, and what worker processes
remember of the agents that were available at their last snapshot. -/
structure PlatformStore (F : Type) where
  base : Store
  campaigns : Campaigns F
  pacingDecisions : List (PacingDecision F) := []
  /-- `_previous_available` of the snapshot builder of each worker process. -/
  previousAvailable : WorkerId → DocId → Option Int := fun _ _ => none

/-- What the health manager and the availability tracker of a process answer is the environment's,
like the answers of the outside world: other tasks of the process write them at any time. -/
structure PlatformEnv (F : Type) where
  base : Env := {}
  healthFactor : F
  tracker : AgentAvailabilityTracker := fun _ => none

/-- What is kept in the memory of the process does not fail. -/
def PlatformOp.raises {F : Type} : PlatformOp F → Exn → Bool
  | .exchangeAvailable .., _ | .healthFactor .., _ | .availabilityTracker .., _
  | .recordEventReceived .., _ => false
  | _, e =>
    match e with
    | .database | .cancelled | .other _ => true
    | _ => false

section Effects

variable {F : Type} [FloatArith F]

/-- Answer and effect of an operation that goes through. -/
def PlatformOp.apply (ε : PlatformEnv F) (o : PlatformOp F) (σ : PlatformStore F) :
    Except Exn (PlatformRes F o) × PlatformStore F :=
  match o with
  | .findRunning limit => (.ok (CampaignRepo.findRunning limit σ.campaigns), σ)
  | .findCampaignById c => (.ok (CampaignRepo.findById c σ.campaigns), σ)
  | .insertCampaign campaign =>
    match σ.campaigns.insertOne campaign with
    | some campaigns => (.ok (), { σ with campaigns })
    | none => (.error .duplicateKey, σ)
  | .setStatus c status =>
    let r := CampaignRepo.setStatus ε.base.now c status σ.campaigns
    (.ok r.1, { σ with campaigns := r.2 })
  | .setDialingMode c mode =>
    let r := CampaignRepo.setDialingMode ε.base.now c mode σ.campaigns
    (.ok r.1, { σ with campaigns := r.2 })
  | .averageTalkTimeSeconds c =>
    ((MetricsSnapshotBuilder.averageTalkTimeSeconds c σ.base.calls).mapError .other, σ)
  | .averageSetupTimeMs c => (.ok (MetricsSnapshotBuilder.averageSetupTimeMs c σ.base.calls), σ)
  | .countConnectedLongerThan c olderThan =>
    (.ok (MetricsSnapshotBuilder.countConnectedLongerThan c olderThan σ.base.agents), σ)
  | .exchangeAvailable w c available =>
    (.ok ((σ.previousAvailable w c).getD available),
      { σ with
        previousAvailable := Function.update σ.previousAvailable w
          (Function.update (σ.previousAvailable w) c (some available)) })
  | .healthFactor _ => (.ok ε.healthFactor, σ)
  | .availabilityTracker _ => (.ok ε.tracker, σ)
  | .recordPacingRequest c request =>
    -- `PacingDecision` has `requested: int = Field(ge=0)`
    if request.requested < 0 then (.error .validationError, σ)
    else (.ok ε.base.newId, { σ with
      pacingDecisions := σ.pacingDecisions ++ [{
        id := ε.base.newId, campaignId := c, dialingMode := request.mode
        requested := request.requested, inputs := request.inputs
        explanation := request.explanation }] })
  | .recordEventReceived _ => (.ok (), σ)
  | .findProviderEventsForCall p => (.ok (EventRepo.findProviderEventsForCall p σ.base.events), σ)
  | .findLatest limit => (.ok (EventRepo.findLatest limit σ.base.events), σ)
  | .findForCampaign c limit => (.ok (AgentRepo.findForCampaign c limit σ.base.agents), σ)
  | .findActive c limit => (.ok (CallRepo.findActive c limit σ.base.calls), σ)

/-- An operation of the dialer or of the platform, failures included. -/
def platformExec (ε : PlatformEnv F) :
    (o : Op ⊕ PlatformOp F) → PlatformStore F →
      Except Exn (EitherRes Res (PlatformRes F) o) × PlatformStore F
  | .inl o, σ => ((exec ε.base o σ.base).1, { σ with base := (exec ε.base o σ.base).2 })
  | .inr o, σ =>
    match ε.base.fault.filter fun f => o.raises f.exn with
    | none => o.apply ε σ
    | some f => (.error f.exn, if f.applied then (o.apply ε σ).2 else σ)

theorem PlatformOp.apply_base (ε : PlatformEnv F) (o : PlatformOp F) (σ : PlatformStore F) :
    (o.apply ε σ).2.base = σ.base := by
  cases o with
  | insertCampaign campaign =>
    unfold PlatformOp.apply
    dsimp only
    split <;> rfl
  | recordPacingRequest c request =>
    unfold PlatformOp.apply
    dsimp only
    split <;> rfl
  | _ => rfl

/-- **The documents of the dialer** are out of reach of the platform's own operations. -/
theorem platformExec_base (ε : PlatformEnv F) (o : PlatformOp F) (σ : PlatformStore F) :
    (platformExec ε (.inr o) σ).2.base = σ.base := by
  unfold platformExec
  dsimp only
  split
  · exact o.apply_base ε σ
  · split
    · exact o.apply_base ε σ
    · rfl

/-- An operation that answers has gone through. -/
theorem platformExec_of_ok {ε : PlatformEnv F} {o : PlatformOp F} {σ : PlatformStore F}
    {a : PlatformRes F o} (h : (platformExec ε (.inr o) σ).1 = .ok a) :
    platformExec ε (.inr o) σ = o.apply ε σ := by
  unfold platformExec at h ⊢
  dsimp only at h ⊢
  split at h
  · rfl
  · cases h

end Effects

variable {F : Type}

/-- Programs over both kinds of operations. -/
abbrev PlatformPy (F α : Type) :=
  Prog (Op ⊕ PlatformOp F) (EitherRes Res (PlatformRes F)) Exn α

/-- Perform one operation of the platform. -/
def ask (o : PlatformOp F) : PlatformPy F (PlatformRes F o) := Prog.perform (Sum.inr o)

/-- Run a program of the dialer. -/
def dialer (F : Type) {α : Type} (x : Py α) : PlatformPy F α := x.lift

end SmartDialer
