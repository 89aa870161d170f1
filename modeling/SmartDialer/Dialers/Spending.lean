import SmartDialer.Calls.Budget
import SmartDialer.Calls.Readiness
import SmartDialer.Dialers.Base
import SmartDialer.Safety.Isolation

/-!
# What a tick may still reserve

The controller turns the count of active calls into a number it approves, and the allocator spends
that number one attempt at a time. The conduct of this module keeps the account of a tick: what the
count has left room for, then what has been approved, then one less for every attempt; and of the
attempt in hand, whether its call has been reserved.

The account is a conduct: `Spending.Emits` says which operation may come at which stage, and
`spending_conforms` that every program keeps to it. Three of its rules carry the bound:

* `decide`: what is approved is no more than the room the count has left;
* `claim`: an attempt begins with the search for an agent, and takes one of the room;
* `reserve` and `initiate`: a call is reserved by the attempt in hand, and initiated after that.
-/

namespace SmartDialer

open Concurrent HostFloat Machine

/-- The calls of a campaign in `ACTIVE_CALL_STATES`. -/
def activeCalls (campaignId : DocId) (calls : Calls) : Nat :=
  (activeCallStates.map (CallRepo.countByState campaignId calls)).sum

/-- The attempt a tick has in hand. -/
inductive Spending.Attempt where
  /-- None, or one that reserves nothing any more. -/
  | over
  | underway
  | reserved (callId : DocId)
  deriving DecidableEq

/-- The stage of a thread in the account: outside of it, or in a tick. -/
inductive Spending where
  | outside
  /-- `room` attempts may still follow the one in hand. -/
  | ticking (campaign : Campaign) (room : Nat) (attempt : Spending.Attempt)

namespace Spending

/-- What an operation and its answer make of the account. -/
def next : Spending → (o : Op) → Except Exn (Res o) → Spending
  | .ticking campaign _ attempt, .countCallsByState _, .ok counts =>
    .ticking campaign
      (campaign.maxConcurrentCalls - ((activeCallStates.map counts).sum : Nat)).toNat attempt
  | .ticking campaign _ attempt, .recordSafetyDecision _ _ approved, _ =>
    .ticking campaign approved.toNat attempt
  | .ticking campaign room _, .findClaimableAgents .., _ => .ticking campaign (room - 1) .underway
  | .ticking campaign room _, .releaseAgent .., _ => .ticking campaign room .over
  | .ticking campaign room _, .transitionCall callId .RESERVED _, .ok _ =>
    .ticking campaign room (.reserved callId)
  | .ticking campaign room _, .transitionCall _ .RESERVED _, .error _ =>
    .ticking campaign room .over
  | .ticking campaign room _, .transitionCall _ .INITIATED _, _ => .ticking campaign room .over
  | s, _, _ => s

/-- The operations that come at their stage only. -/
def staged : Op → Bool
  | .countCallsByState .. | .recordSafetyDecision .. | .findClaimableAgents ..
  | .transitionCall _ .RESERVED _ | .transitionCall _ .INITIATED _ => true
  | _ => false

/-- The operations that leave every stage as it is. -/
def steady : Op → Bool
  | .releaseAgent .. => false
  | o => !staged o

/-- Which operation may come at which stage of the account. -/
inductive Emits : Spending → Op → Prop where
  -- what is not staged may come at any time
  | plain (s : Spending) {o : Op} (ho : staged o = false) : Emits s o
  | count (campaign : Campaign) (room : Nat) :
      Emits (.ticking campaign room .over) (.countCallsByState campaign.id)
  -- the decision is made by a tick that has no attempt in hand
  | decide {campaign : Campaign} {room : Nat} {requested approved : Int}
      (hroom : approved.toNat ≤ room) :
      Emits (.ticking campaign room .over) (.recordSafetyDecision campaign.id requested approved)
  -- the attempt before this one is over, or never reserved
  | claim (campaign : Campaign) (room : Nat) (attempt : Attempt) (window : Nat) :
      Emits (.ticking campaign (room + 1) attempt) (.findClaimableAgents campaign.id window)
  | reserve (campaign : Campaign) (room : Nat) (callId : DocId) :
      Emits (.ticking campaign room .underway) (.transitionCall callId .RESERVED none)
  | initiate (campaign : Campaign) (room : Nat) (callId : DocId) :
      Emits (.ticking campaign room (.reserved callId)) (.transitionCall callId .INITIATED none)

def start {F : Type} : TickJob F → Spending
  | .tick _ campaign _ _ _ => .ticking campaign 0 .over
  | .other (.allocate campaign approved _) => .ticking campaign approved.toNat .over
  | .other _ => .outside

/-- The account of a tick begins without room, until it has counted. -/
def conduct (F : Type) : Conduct (TickJob F) Op Res Exn Spending where
  idle := .outside
  start := start
  Emits := Emits
  next := next

theorem staged_of_steady {o : Op} (ho : steady o = true) : staged o = false := by
  unfold steady at ho
  split at ho
  · rfl
  · simpa using ho

theorem next_outside (o : Op) (r : Except Exn (Res o)) : outside.next o r = outside := by
  cases o <;> rfl

theorem next_of_steady {o : Op} (ho : steady o = true) (s : Spending) (r : Except Exn (Res o)) :
    s.next o r = s := by
  unfold next
  split
  all_goals first
    | rfl
    | cases ho

theorem next_of_plain {o : Op} (ho : staged o = false) (campaign : Campaign) (room : Nat)
    (attempt : Attempt) (r : Except Exn (Res o)) :
    ∃ attempt', (ticking campaign room attempt).next o r = .ticking campaign room attempt'
      ∧ (attempt' = attempt ∨ attempt' = .over) := by
  cases o with
  | countCallsByState | recordSafetyDecision | findClaimableAgents => cases ho
  | releaseAgent => exact ⟨.over, rfl, Or.inr rfl⟩
  | transitionCall callId targetState reason =>
    cases targetState with
    | RESERVED | INITIATED => cases ho
    | _ => exact ⟨attempt, rfl, Or.inl rfl⟩
  | _ => exact ⟨attempt, rfl, Or.inl rfl⟩

end Spending

section Follows

variable {F : Type} [FloatOps F] {settings : SafetySettings F} {cfg : Config} {campaign : Campaign}
  {room : Nat} {attempt : Spending.Attempt}

abbrev spending (settings : SafetySettings F) (cfg : Config) :=
  (ticking settings cfg).under (Spending.conduct F)

theorem spending_steady {α : Type} {s : Spending} {x : Py α}
    (h : x.Performs fun o => Spending.steady o = true) :
    (spending settings cfg).Follows s x fun s' _ => s' = s :=
  follows_at_of_performs (fun _ ho => ⟨Spending.Emits.plain s (Spending.staged_of_steady ho),
    fun r => Spending.next_of_steady ho s r⟩) h

/-- A stage of the tick at which `room` attempts may still follow. -/
def AtRoom {α : Type} (campaign : Campaign) (room : Nat) : Spending → Except Exn α → Prop :=
  fun s _ => ∃ attempt, s = .ticking campaign room attempt

theorem spending_plain {α : Type} {x : Py α} (h : x.Performs fun o => Spending.staged o = false) :
    (spending settings cfg).Follows (.ticking campaign room attempt) x (AtRoom campaign room) := by
  refine follows_within_of_performs (M := spending settings cfg)
    (J := fun s => ∃ attempt, s = .ticking campaign room attempt)
    (fun s o hs ho => ⟨Spending.Emits.plain s ho, fun r => ?_⟩) ⟨attempt, rfl⟩ h
  obtain ⟨attempt, rfl⟩ := hs
  obtain ⟨attempt', hnext, -⟩ := Spending.next_of_plain ho campaign room attempt r
  exact ⟨attempt', hnext⟩

theorem spending_call {s : Spending} {o : Op} {Q : Spending → Except Exn (Res o) → Prop} :
    (spending settings cfg).Follows s (call o) Q ↔ Spending.Emits s o ∧ ∀ r, Q (s.next o r) r :=
  follows_perform s o Q

/-! ## Attempts

One attempt is `reserve_pair` and, if there is a pair, the dial. It starts with one more of the room
than it leaves, and where it raises the account is still that of the tick (`AtRoom`), because the
loop may go on to its next attempt. -/

theorem steady_claimAgentFrom {campaignId : DocId} {workerId : WorkerId} (candidates : List Agent) :
    (ReservationService.claimAgentFrom cfg campaignId workerId candidates).Performs
      fun o => Spending.steady o = true := by
  induction candidates with
  | nil => trivial
  | cons candidate candidates ih =>
    unfold ReservationService.claimAgentFrom
    refine .bind (Prog.performs_perform.mpr rfl) fun agent => ?_
    cases agent with
    | none => exact ih
    | some agent => trivial

/-- An attempt begins with the search for an agent. -/
theorem spending_claimAgent {workerId : WorkerId} :
    (spending settings cfg).Follows (.ticking campaign (room + 1) attempt)
      (ReservationService.claimAgent cfg campaign.id workerId)
      fun s _ => s = .ticking campaign room .underway := by
  unfold ReservationService.claimAgent findClaimableAgents
  rw [if_neg (by decide), Prog.bind_def, follows_bind]
  refine spending_call.mpr ⟨.claim campaign room attempt _, fun r => ?_⟩
  cases r with
  | error e => rfl
  | ok candidates => exact spending_steady (steady_claimAgentFrom candidates)

theorem plain_releaseLoneAgent {agentId : DocId} {workerId : WorkerId} :
    (ReservationService.releaseAgent agentId workerId).Performs
      fun o => Spending.staged o = false := by
  unfold ReservationService.releaseAgent releaseAgent
  rw [if_neg (by decide)]
  exact .bind (Prog.performs_perform.mpr rfl) fun _ => Prog.performs_ret _

/-- Where `reservePair` ends: the attempt goes on only with a pair. -/
def PairUnderway (campaign : Campaign) (room : Nat) :
    Spending → Except Exn (Option ReservationPair) → Prop
  | s, .ok (some _) => s = .ticking campaign room .underway
  | s, _ => ∃ attempt, s = .ticking campaign room attempt

/-- An attempt to reserve takes one of the room, with a pair or without one. The attempt begins with
the query for claimable agents, and there the room shrinks by one. -/
theorem spending_reservePair {workerId : WorkerId} :
    (spending settings cfg).Follows (.ticking campaign (room + 1) attempt)
      (CallAllocator.reservePair cfg campaign.id workerId) (PairUnderway campaign room) := by
  unfold CallAllocator.reservePair ReservationService.reservePair
  rw [follows_catching, Prog.bind_def, follows_bind]
  refine spending_claimAgent.mono fun s r hs => ?_
  subst hs
  rcases r with e | (_ | agent)
  · dsimp only
    split <;> exact ⟨_, rfl⟩
  -- no agent: the attempt is over
  · exact ⟨_, rfl⟩
  · dsimp only
    rw [Prog.bind_def, follows_bind, follows_catching]
    refine (spending_steady ?_).mono fun s' r hs => ?_
    · exact CallAllocator.performs_claimBorrower campaign.id (fun _ _ => rfl) fun _ _ => rfl
    subst hs
    rcases r with e | (_ | borrower)
    · -- the search for a borrower has raised
      dsimp only
      split
      · rw [Prog.bind_def, follows_bind]
        refine (spending_plain plain_releaseLoneAgent).mono fun s r hs => ?_
        cases r with
        | error e' =>
          dsimp only
          split <;> exact hs
        | ok _ =>
          show (spending settings cfg).Follows s (if _ then _ else _) _
          split <;> exact hs
      · rw [follows_raise]
        dsimp only
        split <;> exact ⟨_, rfl⟩
    -- no borrower: the agent is given back, and the attempt is over
    · dsimp only
      rw [Prog.bind_def, follows_bind]
      refine (spending_plain plain_releaseLoneAgent).mono fun s r hs => ?_
      cases r with
      | error e =>
        dsimp only
        split <;> exact hs
      | ok _ => exact hs
    -- a pair: the attempt is underway
    · rfl

variable {pair : ReservationPair} {callId : DocId}

theorem plain_giveBack (outcome : BorrowerReleaseOutcome) :
    ((CallAllocator.release cfg pair outcome).bind fun _ => Prog.ret false).Performs
      fun o => Spending.staged o = false :=
  .bind (CallAllocator.performs_release rfl fun _ _ => rfl) fun _ => Prog.performs_ret false

theorem plain_originate : (CallAllocator.originate cfg campaign pair callId).Performs
    fun o => Spending.staged o = false := by
  unfold CallAllocator.originate providerRegistryGet
  refine .bind ?_ fun _ => .bind (Prog.performs_perform.mpr rfl) fun _ =>
    .bind (.catching (.bind (Prog.performs_perform.mpr rfl) fun _ => Prog.performs_ret _)
      fun _ => Prog.performs_ret _) fun outcome => ?_
  · split <;> trivial
  · split
    all_goals first
      | exact .bind (Prog.performs_perform.mpr rfl) fun _ => Prog.performs_ret _
      | exact trivial

theorem plain_dialInitiated : (CallAllocator.dialInitiated cfg campaign pair callId).Performs
    fun o => Spending.staged o = false := by
  unfold CallAllocator.dialInitiated
  refine .bind (CallAllocator.performs_transitionAgent rfl) fun _ =>
    .bind (Prog.performs_perform.mpr rfl) fun _ => .bind plain_originate fun result => ?_
  cases result with
  | none => exact CallAllocator.performs_fail rfl rfl fun _ _ => rfl
  | some result =>
    dsimp only
    split
    · exact CallAllocator.performs_dialAccepted rfl rfl (fun _ => rfl) rfl fun _ _ => rfl
    · exact CallAllocator.performs_fail rfl rfl fun _ _ => rfl

/-- A dial reserves the call of its attempt, and no other. The transition to `RESERVED` is what
makes the call count as active. -/
theorem spending_dialOpen :
    (spending settings cfg).Follows (.ticking campaign room .underway)
      (CallAllocator.dialOpen cfg campaign pair) (AtRoom campaign room) := by
  unfold CallAllocator.dialOpen
  rw [Prog.bind_def, follows_bind]
  refine (spending_steady (CallAllocator.performs_createCall rfl rfl)).mono fun s r hs => ?_
  subst hs
  cases r with
  | error e => exact ⟨_, rfl⟩
  | ok created =>
    dsimp only
    split
    -- the duplicate of a call that is past `QUEUED`: the pair is given back
    · exact spending_plain (plain_giveBack _)
    · rw [Prog.bind_def, follows_bind]
      -- the call of this attempt is reserved, and from here on it is the one in hand
      refine spending_call.mpr ⟨.reserve campaign room created.id, fun r => ?_⟩
      cases r with
      | error e => exact ⟨_, rfl⟩
      | ok _ =>
        dsimp only
        rw [Prog.bind_def, follows_bind]
        refine spending_call.mpr ⟨.initiate campaign room created.id, fun r => ?_⟩
        rcases r with e | (_ | initiated)
        · exact ⟨_, rfl⟩
        -- the call has been ended by somebody else since
        · exact spending_plain (plain_giveBack _)
        · exact spending_plain plain_dialInitiated

/-- A dial for a retry asks first, and gives the pair back if the answer is no. -/
theorem spending_dial :
    (spending settings cfg).Follows (.ticking campaign room .underway)
      (CallAllocator.dial cfg campaign pair) (AtRoom campaign room) := by
  unfold CallAllocator.dial
  split
  · rw [Prog.bind_def, follows_bind]
    refine (spending_steady (CallAllocator.performs_shouldRetry rfl rfl)).mono fun s r hs => ?_
    subst hs
    cases r with
    | error e => exact ⟨_, rfl⟩
    | ok retry =>
      dsimp only
      split
      · exact spending_plain (plain_giveBack _)
      · exact spending_dialOpen
  · exact spending_dialOpen

/-- A dial that is cancelled gives the pair back, within the account. -/
theorem spending_dialCompensated :
    (spending settings cfg).Follows (.ticking campaign room .underway)
      (CallAllocator.dialCompensated cfg campaign pair) (AtRoom campaign room) := by
  unfold CallAllocator.dialCompensated
  rw [follows_catching]
  refine spending_dial.mono fun s r hs => ?_
  cases r with
  | ok dialled => exact hs
  | error e =>
    obtain ⟨attempt, rfl⟩ := hs
    dsimp only
    split
    · rw [Prog.bind_def, follows_bind]
      refine (spending_plain ?_).mono fun s r hs => ?_
      · unfold CallAllocator.compensateCancelledDial
        refine .catching (CallAllocator.performs_release rfl fun _ _ => rfl) fun e => ?_
        split <;> trivial
      · cases r <;> exact hs
    · exact ⟨_, rfl⟩

/-- **The loop of `allocate` makes no more attempts than there is room for.** By induction on the
attempts that are left; the room at the start is what has been approved, or more. -/
theorem spending_allocateLoop {workerId : WorkerId} (n : Nat) (counts : AllocationResult)
    (consecutiveContentions : Nat) (hroom : n ≤ room) :
    (spending settings cfg).Follows (.ticking campaign room attempt)
      (CallAllocator.allocateLoop cfg campaign workerId n counts consecutiveContentions)
      fun _ _ => True := by
  -- on the attempts left: each takes one of the room, whether it dials or not
  induction n generalizing room attempt counts consecutiveContentions with
  | zero => trivial
  | succ n ih =>
    obtain ⟨left, rfl⟩ : ∃ left, room = left + 1 := ⟨room - 1, by omega⟩
    have hleft : n ≤ left := by omega
    unfold CallAllocator.allocateLoop
    rw [Prog.bind_def, follows_bind]
    refine spending_reservePair.mono fun s r hs => ?_
    rcases r with e | (_ | pair)
    · trivial
    · obtain ⟨attempt, rfl⟩ := hs
      dsimp only
      split
      · trivial
      · exact ih _ _ hleft
    · obtain rfl : s = .ticking campaign left .underway := hs
      dsimp only
      rw [Prog.bind_def, follows_bind]
      refine spending_dialCompensated.mono fun s r hs => ?_
      cases r with
      | error e => trivial
      | ok dialled =>
        obtain ⟨attempt, rfl⟩ := hs
        dsimp only
        split
        · exact ih _ _ hleft
        · exact ih _ _ hleft

/-! ## The decision

The evaluation reads the active calls once. From there to the decision the room is what that count
has left, and `approved_le_room` says that the second constraint of the controller is that very
number. -/

namespace SafetyController

/-- What is approved is within what the count has left of the limit. -/
theorem approved_le_room (request : PacingRequest F) (pacingDecisionId : Option DocId)
    (reading : CapacityReading F) (age ceiling : Int) (drop : Option (AvailabilityDrop F))
    (createdAt : Time) :
    (conclude settings campaign request pacingDecisionId reading age ceiling drop
        createdAt).approved.toNat
      ≤ (campaign.maxConcurrentCalls - reading.activeCalls).toNat := by
  have hle : approvedCount request.requested (buildConstraints settings campaign request reading
      reading.availableAgents ceiling (snapshotIsStale settings reading age)
      ((drop.map fun item => item.dropRatio).getD (FloatOps.ofInt 0)))
      ≤ max 0 (campaign.maxConcurrentCalls - reading.activeCalls) := by
    refine max_le (le_max_left _ _) ?_
    -- the second constraint is the campaign's concurrency
    exact (foldl_min_le _ _).2 _ (List.mem_cons_of_mem _ List.mem_cons_self)
  cases drop with
  | none =>
    have hle : (conclude settings campaign request pacingDecisionId reading age ceiling none
      createdAt).approved ≤ max 0 (campaign.maxConcurrentCalls - reading.activeCalls) := hle
    omega
  | some drop =>
    have hle : (conclude settings campaign request pacingDecisionId reading age ceiling (some drop)
      createdAt).approved ≤ max 0 (campaign.maxConcurrentCalls - reading.activeCalls) := hle
    omega

end SafetyController

/-- The tick has room for what the result approves, if it approves anything. -/
def RoomFor {α : Type} (campaign : Campaign) (approved : α → Option Int) :
    Spending → Except Exn α → Prop :=
  fun s r => ∃ room, s = .ticking campaign room .over
    ∧ ∀ a, r = .ok a → ∀ n ∈ approved a, n.toNat ≤ room

theorem roomFor_error {α : Type} {approved : α → Option Int} {e : Exn} :
    RoomFor campaign approved (.ticking campaign room .over) (.error e) :=
  ⟨room, rfl, fun _ h => by cases h⟩

/-- A steady operation, and what follows it. -/
theorem spending_steady_bind {α β : Type} {s : Spending} {x : Py α} {f : α → Py β}
    {Q : Spending → Except Exn β → Prop} (hx : x.Performs fun o => Spending.steady o = true)
    (herror : ∀ e, Q s (.error e)) (hf : ∀ a, (spending settings cfg).Follows s (f a) Q) :
    (spending settings cfg).Follows s (x.bind f) Q := by
  rw [follows_bind]
  refine (spending_steady hx).mono fun s' r hs => ?_
  rw [hs]
  cases r with
  | error e => exact herror e
  | ok a => exact hf a

/-- **The count is read once, and sets the room.** -/
theorem spending_readCapacity :
    (spending settings cfg).Follows (.ticking campaign room .over)
      (SafetyController.readCapacity settings campaign)
      (RoomFor campaign fun reading =>
        some (campaign.maxConcurrentCalls - reading.activeCalls)) := by
  unfold SafetyController.readCapacity
  refine spending_steady_bind (Prog.performs_perform.mpr rfl) (fun _ => roomFor_error) fun now => ?_
  refine spending_steady_bind (Prog.performs_perform.mpr rfl) (fun _ => roomFor_error)
    fun agentCounts => ?_
  rw [Prog.bind_def, follows_bind]
  refine spending_call.mpr ⟨.count campaign room, fun r => ?_⟩
  cases r with
  | error e => exact roomFor_error
  | ok callCounts =>
    refine spending_steady_bind (Prog.performs_perform.mpr rfl) (fun _ => roomFor_error)
      fun expiredLeases => ?_
    split
    · exact roomFor_error
    · refine spending_steady_bind (Prog.performs_perform.mpr rfl) (fun _ => roomFor_error)
        fun outcomes => ?_
      refine spending_steady_bind (Prog.performs_perform.mpr rfl) (fun _ => roomFor_error)
        fun health => ?_
      refine ⟨_, rfl, fun reading hreading n hn => ?_⟩
      cases hreading
      cases hn
      exact le_refl _

/-- The snapshot's age is computed after the count, and moves nothing. -/
theorem spending_observe (request : PacingRequest F) :
    (spending settings cfg).Follows (.ticking campaign room .over)
      (SafetyController.observe settings campaign request)
      (RoomFor campaign fun observed =>
        some (campaign.maxConcurrentCalls - observed.1.activeCalls)) := by
  unfold SafetyController.observe
  rw [Prog.bind_def, follows_bind]
  refine spending_readCapacity.mono fun s r hs => ?_
  obtain ⟨room, rfl, hroom⟩ := hs
  cases r with
  | error e => exact roomFor_error
  | ok reading =>
    refine spending_steady_bind (Prog.performs_perform.mpr rfl) (fun _ => roomFor_error)
      fun now => ?_
    split
    · exact roomFor_error
    · refine ⟨room, rfl, fun observed hobserved n hn => ?_⟩
      cases hobserved
      exact hroom reading rfl n hn

/-- A decision about the campaign that the tick has room for. -/
def Decided (campaign : Campaign) (s : Spending)
    (r : Except Exn (SafetyDecision F × AgentAvailabilityTracker)) : Prop :=
  RoomFor campaign (fun answer => some answer.1.approved) s r
    ∧ ∀ answer, r = .ok answer → answer.1.campaignId = campaign.id

omit [FloatOps F] in
theorem decided_error {e : Exn} :
    Decided (F := F) campaign (.ticking campaign room .over) (.error e) :=
  ⟨roomFor_error, fun _ h => by cases h⟩

theorem spending_evaluationError (tracker : AgentAvailabilityTracker) (request : PacingRequest F)
    (pacingDecisionId : Option DocId) :
    (spending settings cfg).Follows (.ticking campaign room .over)
      ((call .utcNow).bind fun createdAt => .ret
        (SafetyController.evaluationError campaign request pacingDecisionId createdAt, tracker))
      (Decided campaign) := by
  refine spending_steady_bind (Prog.performs_perform.mpr rfl) (fun _ => decided_error)
    fun createdAt => ⟨⟨room, rfl, fun answer hanswer n hn => ?_⟩, fun answer hanswer => ?_⟩
  · cases hanswer
    cases hn
    exact Nat.zero_le _
  · cases hanswer
    rfl

/-- The evaluation decides on what the count has left. If a read raises nothing is approved, and
nothing more will be reserved. -/
theorem spending_evaluateGuarded (tracker : AgentAvailabilityTracker) (request : PacingRequest F)
    (pacingDecisionId : Option DocId) :
    (spending settings cfg).Follows (.ticking campaign room .over)
      (SafetyController.evaluateGuarded settings tracker campaign request pacingDecisionId)
      (Decided campaign) := by
  unfold SafetyController.evaluateGuarded SafetyController.evaluateUnguarded
  rw [Prog.bind_def, follows_bind, follows_catching, Prog.bind_def, follows_bind]
  refine (spending_observe request).mono fun s r hs => ?_
  obtain ⟨room, rfl, hroom⟩ := hs
  cases r with
  -- one of the reads has raised, perhaps after the count
  | error e =>
    dsimp only
    split
    · exact spending_evaluationError tracker request pacingDecisionId
    · exact decided_error
  | ok observed =>
    obtain ⟨reading, age⟩ := observed
    dsimp only
    split
    -- the ringing ceiling cannot be computed
    · exact spending_evaluationError _ request pacingDecisionId
    · refine spending_steady_bind (Prog.performs_perform.mpr rfl) (fun e => ?_) fun createdAt => ?_
      · dsimp only
        split
        · exact spending_evaluationError tracker request pacingDecisionId
        · exact decided_error
      · refine ⟨⟨room, rfl, fun answer hanswer n hn => ?_⟩, fun answer hanswer => ?_⟩
        · cases hanswer
          cases hn
          exact (SafetyController.approved_le_room request pacingDecisionId reading age _ _
            createdAt).trans (hroom (reading, age) rfl _ rfl)
        · cases hanswer
          rfl

/-- **What an evaluation approves, the tick has room for.** Writing the decision down sets the room
to what has been approved, which the count has left room for. -/
theorem spending_evaluate (tracker : AgentAvailabilityTracker) (request : PacingRequest F)
    (pacingDecisionId : Option DocId) (persist : Bool) :
    (spending settings cfg).Follows (.ticking campaign room .over)
      (SafetyController.evaluate settings tracker campaign request pacingDecisionId persist)
      (RoomFor campaign fun answer => some answer.1.approved) := by
  unfold SafetyController.evaluate
  rw [Prog.bind_def, follows_bind]
  refine (spending_evaluateGuarded tracker request pacingDecisionId).mono fun s r hs => ?_
  obtain ⟨⟨room, rfl, hroom⟩, hcampaign⟩ := hs
  cases r with
  | error e => exact roomFor_error
  | ok answer =>
    obtain ⟨decision, tracker'⟩ := answer
    have hroom : decision.approved.toNat ≤ room := hroom _ rfl _ rfl
    have hcampaign : decision.campaignId = campaign.id := hcampaign _ rfl
    dsimp only
    cases persist with
    | false =>
      refine ⟨room, rfl, fun answer hanswer n hn => ?_⟩
      cases hanswer
      cases hn
      exact hroom
    | true =>
      rw [Prog.bind_def, follows_bind]
      show (spending settings cfg).Follows _ (Prog.catching _ _) _
      rw [follows_catching, hcampaign]
      -- recording the decision narrows the room to what was approved
      refine spending_call.mpr ⟨.decide hroom, fun r => ?_⟩
      have hleft : RoomFor campaign (fun answer => some answer.1.approved)
          (.ticking campaign decision.approved.toNat .over) (.ok (decision, tracker')) := by
        refine ⟨_, rfl, fun answer hanswer n hn => ?_⟩
        cases hanswer
        cases hn
        exact le_refl _
      cases r with
      | ok _ => exact hleft
      | error e =>
        dsimp only
        split
        · exact hleft
        · exact roomFor_error

/-! ## The programs

A tick is in the account from its start, an `allocate` from what it has been told to dial, and every
other job stays outside. -/

theorem plain_of_emits {s : Stage} (hs : s.allocates = false) {o : Op} (h : Emits s o) :
    Spending.staged o = false := by
  cases h with
  | applyEvent reason happlies =>
    -- no event is about call setup
    obtain ⟨htarget, -⟩ := happlies
    unfold EventProcessor.eventTypeToCallState at htarget
    split at htarget <;> cases htarget <;> rfl
  | endCall reason hends => rcases hends with rfl | rfl | ⟨rfl, -⟩ <;> rfl
  | _ => first | rfl | cases hs

theorem spending_outside {α : Type} {x : Py α} (h : x.Performs fun o => Spending.staged o = false) :
    (spending settings cfg).Follows .outside x fun _ _ => True :=
  (follows_at_of_performs (M := spending settings cfg)
    (fun o ho => ⟨Spending.Emits.plain .outside ho, Spending.next_outside o⟩) h).mono
    fun _ _ _ => trivial

/-- **The programs keep to the account.** A tick starts with an empty account, an `allocate` by
itself with what it has been given, and the other jobs have none. -/
theorem spending_conforms : (spending settings cfg).Conforms fun _ _ _ => True := by
  -- every other job stays outside: it neither counts nor reserves for a tick
  have hother : ∀ job : Job, job.start.allocates = false →
      (spending settings cfg).Follows .outside ((Job.program cfg job).bind fun outcome =>
        Prog.ret (TickOutcome.other (F := F) outcome)) fun _ _ => True := by
    intro job hjob
    have hfollows : (system cfg).Follows job.start (job.program cfg) (Finished job) :=
      system_conforms job
    refine spending_outside (.bind (hfollows.performs (J := fun s => s.allocates = false)
      (fun s o hs h => ?_) hjob) fun _ => Prog.performs_ret _)
    exact ⟨plain_of_emits hs h, Stage.allocates_next hs o⟩
  intro job
  cases job with
  | tick tracker campaign request pacingDecisionId workerId =>
    show (spending settings cfg).Follows (.ticking campaign 0 .over) ((DialerBase.tick settings cfg
      tracker campaign request pacingDecisionId workerId).bind fun result =>
        Prog.ret (TickOutcome.tick result)) _
    unfold DialerBase.tick
    simp only [Prog.bind_def, Prog.bind_assoc, follows_bind]
    refine (spending_evaluate tracker request pacingDecisionId _).mono fun s r hs => ?_
    obtain ⟨room, rfl, hroom⟩ := hs
    cases r with
    | error e => trivial
    | ok answer =>
      refine (spending_allocateLoop _ _ _ (hroom answer rfl _ rfl)).mono fun s r _ => ?_
      cases r <;> trivial
  | other job =>
    cases job with
    | allocate campaign approved workerId =>
      show (spending settings cfg).Follows (.ticking campaign approved.toNat .over)
        (((CallAllocator.allocate cfg campaign approved workerId).bind fun result =>
          Prog.ret (Outcome.allocation result)).bind fun outcome =>
            Prog.ret (TickOutcome.other (F := F) outcome)) _
      simp only [Prog.bind_assoc, follows_bind]
      refine (spending_allocateLoop _ _ _ (le_refl _)).mono fun s r _ => ?_
      cases r <;> trivial
    | processEvent event => exact hother (.processEvent event) rfl
    | runSweeps => exact hother .runSweeps rfl
    | agentAction agentId action => exact hother (.agentAction agentId action) rfl
    | releaseFinishedWrapUps campaign => exact hother (.releaseFinishedWrapUps campaign) rfl

/-- The system with dialers, and the account of every tick. -/
abbrev accounted (settings : SafetySettings F) (cfg : Config) :=
  (ticking settings cfg).both (Spending.conduct F)

theorem accounted_conforms : (accounted settings cfg).Conforms fun _ _ _ => True ∧ True :=
  ticking_conforms.both spending_conforms

end Follows

end SmartDialer
