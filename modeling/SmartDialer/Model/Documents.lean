import Mathlib
import SmartDialer.Lib.Collection

/-!
# Enumerations, documents and settings

The shapes of `app/models/` and the settings the modelled components read. Document ids are
`str(uuid4())` (`app/models/base.py`), so they carry the one fact the idempotency key relies
on: no colon. Instants are milliseconds, the resolution MongoDB stores; settings are in
seconds.
-/

namespace SmartDialer

/-! ## Enumerations (`app/models/enums.py`)

Each with the texts or tables that some modelled function reads. -/

inductive AgentState where
  | OFFLINE | AVAILABLE | RESERVED | DIALING | CONNECTED | WRAP_UP | PAUSED
  deriving DecidableEq, Repr

inductive CallState where
  | QUEUED | RESERVED | INITIATED | RINGING | ANSWERED | CONNECTED | COMPLETED | FAILED | CANCELLED
  deriving DecidableEq, Repr

inductive BorrowerStatus where
  | PENDING | RESERVED | IN_CALL | CONTACTED | FAILED | EXHAUSTED | DNC
  deriving DecidableEq, Repr

inductive DialingMode where
  | PROGRESSIVE | PREDICTIVE
  deriving DecidableEq, Repr

inductive ProviderHealthStatus where
  | HEALTHY | DEGRADED | UNHEALTHY
  deriving DecidableEq, Repr

def ProviderHealthStatus.value : ProviderHealthStatus → String
  | .HEALTHY => "HEALTHY"
  | .DEGRADED => "DEGRADED"
  | .UNHEALTHY => "UNHEALTHY"

inductive SafetyVerdict where
  | APPROVED | REDUCED | REJECTED | FALLBACK_PROGRESSIVE
  deriving DecidableEq, Repr

inductive EventProcessingStatus where
  | PROCESSED | DUPLICATE_IGNORED | STALE_IGNORED | INVALID_IGNORED
  deriving DecidableEq, Repr

/-- `list(AgentState)`. -/
def AgentState.all : List AgentState :=
  [.OFFLINE, .AVAILABLE, .RESERVED, .DIALING, .CONNECTED, .WRAP_UP, .PAUSED]

theorem AgentState.mem_all (s : AgentState) : s ∈ AgentState.all := by
  cases s <;> decide

def AgentState.value : AgentState → String
  | .OFFLINE => "OFFLINE"
  | .AVAILABLE => "AVAILABLE"
  | .RESERVED => "RESERVED"
  | .DIALING => "DIALING"
  | .CONNECTED => "CONNECTED"
  | .WRAP_UP => "WRAP_UP"
  | .PAUSED => "PAUSED"

def CallState.value : CallState → String
  | .QUEUED => "QUEUED"
  | .RESERVED => "RESERVED"
  | .INITIATED => "INITIATED"
  | .RINGING => "RINGING"
  | .ANSWERED => "ANSWERED"
  | .CONNECTED => "CONNECTED"
  | .COMPLETED => "COMPLETED"
  | .FAILED => "FAILED"
  | .CANCELLED => "CANCELLED"

/-- `CALL_STATE_RANK`. -/
def callStateRank : CallState → Nat
  | .QUEUED => 0
  | .RESERVED => 1
  | .INITIATED => 2
  | .RINGING => 3
  | .ANSWERED => 4
  | .CONNECTED => 5
  | .COMPLETED => 6
  | .FAILED => 6
  | .CANCELLED => 6

/-- `TERMINAL_CALL_STATES`. -/
def terminalCallStates : List CallState := [.COMPLETED, .FAILED, .CANCELLED]

/-! ## Ids and instants

An id can only be built together with the proof that it has no colon. -/

/-- A document id, `new_id() = str(uuid4())`: hexadecimal digits and dashes, never a colon. -/
structure DocId where
  val : String
  noColon : ':' ∉ val.toList
  deriving DecidableEq

/-- An id that no document need have. -/
def DocId.blank : DocId := ⟨"", by decide⟩

/-- The id with the given text, which must have no colon. -/
def DocId.ofString (val : String) : DocId :=
  if h : ':' ∉ val.toList then ⟨val, h⟩ else .blank

abbrev WorkerId := String

/-- Milliseconds since the epoch. -/
abbrev Time := Int

/-- `timedelta(seconds=n)`. -/
def seconds (n : Int) : Int := n * 1000

/-! ## Settings (`app/config.py`)

The defaults are those of the source. Numbers of seconds are integers here, negative ones included;
the only check the source makes is on the stale timeout. -/

structure Settings where
  RESERVATION_TTL_SECONDS : Int := 30
  AGENT_HEARTBEAT_TIMEOUT_SECONDS : Int := 30
  CALL_STALE_TIMEOUT_SECONDS : Int := 120
  WRAP_UP_SECONDS : Int := 10
  MAX_CALL_ATTEMPTS : Int := 3
  RETRY_BACKOFF_BASE_SECONDS : Int := 60
  PROVIDER_TIMEOUT_SECONDS : ℚ := 5
  RECOVERY_SWEEP_LIMIT : Int := 500

/-! ## Leases (`app/repositories/base.py`)

A lease names the worker that holds a document and the instant after which it may be taken away. -/

/-- The three lease fields an agent and a borrower carry. -/
structure LeaseFields where
  reservedBy : Option WorkerId := none
  reservedAt : Option Time := none
  leaseExpiresAt : Option Time := none
  deriving DecidableEq

def buildLeaseFields (workerId : WorkerId) (ttlSeconds : Int) (now : Time) : LeaseFields where
  reservedBy := some workerId
  reservedAt := some now
  leaseExpiresAt := some (now + seconds ttlSeconds)

def clearedLeaseFields : LeaseFields where
  reservedBy := none
  reservedAt := none
  leaseExpiresAt := none

def candidateWindowMultiplier : Nat := 3

/-- `candidate_window`: a few candidates more than are needed, for those that others claim first. -/
def candidateWindow (needed : Int) : Nat := needed.toNat * candidateWindowMultiplier

/-- `cursor.limit(n)`: no limit at all for 0, and the absolute value of a negative one. -/
def limited {D : Type} (limit : Int) (l : List D) : List D :=
  if limit = 0 then l else l.take limit.natAbs

theorem limited_subset {D : Type} {limit : Int} {l : List D} {d : D} (h : d ∈ limited limit l) :
    d ∈ l := by
  unfold limited at h
  split at h
  · exact h
  · exact List.mem_of_mem_take h

/-- A limit that no cursor exceeds drops nothing. -/
theorem limited_eq_self {D : Type} {limit : Int} {l : List D} (h : (l.length : Int) ≤ limit) :
    limited limit l = l := by
  unfold limited
  split
  · rfl
  · exact List.take_of_length_le (by omega)

/-! ## Documents

Fields that no modelled function reads are left out. A default that reads the clock is 0 here, and
the functions that create documents set the instant. -/

/-- `app/models/campaign.py`: the fields the allocator and the safety controller read. -/
structure Campaign where
  id : DocId
  providerName : String
  maxConcurrentCalls : Int := 50
  deriving DecidableEq

/-- `app/models/agent.py`. -/
structure Agent extends LeaseFields where
  id : DocId
  campaignId : DocId
  state : AgentState := .OFFLINE
  stateVersion : Nat := 0
  currentCallId : Option DocId := none
  lastHeartbeatAt : Option Time := none
  stateChangedAt : Time := 0
  busyTimeMs : Int := 0
  availableTimeMs : Int := 0
  connectedTimeMs : Int := 0
  wrapUpTimeMs : Int := 0
  deriving DecidableEq

/-- `app/models/borrower.py`. -/
structure Borrower extends LeaseFields where
  id : DocId
  campaignId : DocId
  phoneNumber : String
  status : BorrowerStatus := .PENDING
  stateVersion : Nat := 0
  attemptCount : Nat := 0
  lastAttemptAt : Option Time := none
  nextEligibleAt : Time := 0
  deriving DecidableEq

/-- `app/models/call.py`. -/
structure Call where
  id : DocId
  campaignId : DocId
  agentId : DocId
  borrowerId : DocId
  state : CallState := .QUEUED
  stateRank : Nat := callStateRank .QUEUED
  terminal : Bool := false
  providerName : String
  providerCallId : Option String := none
  idempotencyKey : String
  createdByWorker : WorkerId
  attempt : Nat := 1
  failureReason : Option String := none
  createdAt : Time := 0
  initiatedAt : Option Time := none
  ringingAt : Option Time := none
  answeredAt : Option Time := none
  connectedAt : Option Time := none
  endedAt : Option Time := none
  updatedAt : Time := 0
  deriving DecidableEq

/-- `build_idempotency_key`. -/
def buildIdempotencyKey (campaignId agentId borrowerId : DocId) (attempt : Nat) : String :=
  s!"{campaignId.val}:{agentId.val}:{borrowerId.val}:{attempt}"

/-- `app/models/provider_event.py`, the stored event. -/
structure ProviderEventDocument where
  providerName : String
  providerEventId : String
  providerCallId : String
  eventType : String
  providerTimestamp : Option Time := none
  receivedAt : Time := 0
  processingStatus : Option EventProcessingStatus := none
  appliedTransition : Option String := none
  deriving DecidableEq

/-- `app/providers/base.py`, the event as delivered; of the payload only the `reason` is read. -/
structure ProviderEvent where
  providerName : String
  providerEventId : String
  providerCallId : String
  eventType : String
  providerTimestamp : Time := 0
  payloadReason : Option String := none
  deriving DecidableEq

inductive ProviderCallStatus where
  | ACTIVE | COMPLETED | FAILED | UNKNOWN
  deriving DecidableEq, Repr

structure OriginateRequest where
  callId : DocId
  campaignId : DocId
  phoneNumber : String
  timeoutSeconds : ℚ
  deriving DecidableEq

structure OriginateResult where
  accepted : Bool
  latencyMs : Int
  providerCallId : Option String := none
  errorCode : Option String := none
  deriving DecidableEq

/-! ## The idempotency key

The key is a text, and its parts are joined by colons. That different parts give different keys is
what makes the unique index on it mean anything. -/

theorem toList_buildIdempotencyKey (campaignId agentId borrowerId : DocId) (attempt : Nat) :
    (buildIdempotencyKey campaignId agentId borrowerId attempt).toList
      = campaignId.val.toList ++ ':' :: (agentId.val.toList
        ++ ':' :: (borrowerId.val.toList ++ ':' :: Nat.toDigits 10 attempt)) := by
  unfold buildIdempotencyKey
  simp [toString]

/-- Two texts with the same first colon agree before and after it. -/
theorem append_colon_inj {x y s t : List Char} (hx : ':' ∉ x) (hy : ':' ∉ y)
    (h : x ++ ':' :: s = y ++ ':' :: t) : x = y ∧ s = t := by
  induction x generalizing y with
  | nil =>
    cases y with
    | nil => exact ⟨rfl, (List.cons.inj h).2⟩
    | cons d y => exact absurd ((List.cons.inj h).1 ▸ List.mem_cons_self) hy
  | cons c x ih =>
    cases y with
    | nil => exact absurd ((List.cons.inj h).1 ▸ List.mem_cons_self) hx
    | cons d y =>
      obtain ⟨hcd, hrest⟩ := List.cons.inj h
      obtain ⟨hxy, hst⟩ := ih (fun hc => hx (List.mem_cons_of_mem _ hc))
        (fun hc => hy (List.mem_cons_of_mem _ hc)) hrest
      exact ⟨by rw [hcd, hxy], hst⟩

theorem DocId.eq_of_toList {a b : DocId} (h : a.val.toList = b.val.toList) : a = b := by
  cases a
  cases b
  have hval := String.toList_inj.mp h
  cases hval
  rfl

theorem toDigits_injective {m n : Nat} (h : Nat.toDigits 10 m = Nat.toDigits 10 n) : m = n := by
  have hm := Nat.ofDigitChars_toDigits (b := 10) (n := m) (by decide) (by decide)
  rw [h, Nat.ofDigitChars_toDigits (by decide) (by decide)] at hm
  exact hm.symm

/-- **The idempotency key determines its four parts**, because ids carry no colon. -/
theorem buildIdempotencyKey_injective {c c' a a' b b' : DocId} {n n' : Nat}
    (h : buildIdempotencyKey c a b n = buildIdempotencyKey c' a' b' n') :
    c = c' ∧ a = a' ∧ b = b' ∧ n = n' := by
  have hlist := congrArg String.toList h
  rw [toList_buildIdempotencyKey, toList_buildIdempotencyKey] at hlist
  obtain ⟨hc, hlist⟩ := append_colon_inj c.noColon c'.noColon hlist
  obtain ⟨ha, hlist⟩ := append_colon_inj a.noColon a'.noColon hlist
  obtain ⟨hb, hlist⟩ := append_colon_inj b.noColon b'.noColon hlist
  exact ⟨DocId.eq_of_toList hc, DocId.eq_of_toList ha, DocId.eq_of_toList hb,
    toDigits_injective hlist⟩

/-! ## Keys

The fields that the collections look their documents up by. -/

instance : DocStore.Keyed Agent DocId := ⟨Agent.id⟩
instance : DocStore.Keyed Borrower DocId := ⟨Borrower.id⟩
instance : DocStore.Keyed Call DocId := ⟨Call.id⟩

/-- Events are found through the unique index on `(provider_name, provider_event_id)`. -/
instance : DocStore.Keyed ProviderEventDocument (String × String) :=
  ⟨fun d => (d.providerName, d.providerEventId)⟩

@[simp] theorem Agent.key_eq (d : Agent) : DocStore.key d = d.id := rfl
@[simp] theorem Borrower.key_eq (d : Borrower) : DocStore.key d = d.id := rfl
@[simp] theorem Call.key_eq (d : Call) : DocStore.key d = d.id := rfl
@[simp] theorem ProviderEventDocument.key_eq (d : ProviderEventDocument) :
    DocStore.key d = (d.providerName, d.providerEventId) := rfl

end SmartDialer
