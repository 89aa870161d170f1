import SmartDialer.Calls.Endings
import SmartDialer.Dialers.Spending
import SmartDialer.Lib.Sequencing

/-!
# How many calls a tick creates

A dial inserts one call at most, the loop of `allocate` makes no more dials than the safety
controller has approved, and the controller approves no more than the pacing engine has requested.

The account of this module is one number, how many calls may still be inserted. Each program starts
with enough of them and says what it leaves: a dial takes one at most, whether it raises or not, and
everything else takes none.
-/

namespace SmartDialer

open Concurrent HostFloat Machine CallAllocator

variable {F : Type}

/-! ## The conduct

`creations` keeps the number, and `creating` is the system with it. A program that inserts nothing
keeps the number (`creating_none`), so only `create_call` has to be looked at. -/

/-- No more than so many calls, all for one campaign. -/
def creations (campaignId : DocId) : Conduct Job Op Res Exn Nat where
  idle := 0
  start := fun _ => 0
  Emits := fun n o => ∀ draft, o = .insertCall draft → draft.campaignId = campaignId ∧ 0 < n
  next := fun n o _ => if inserts o then n - 1 else n

abbrev creating (campaignId : DocId) :=
  (system {}).under (creations campaignId)

variable {campaignId : DocId} {cfg : Config} {campaign : Campaign} {workerId : WorkerId} {n : Nat}

theorem creations_steady {o : Op} (ho : inserts o = false) (n : Nat) :
    (creating campaignId).Emits n o ∧ ∀ r, (creating campaignId).next n o r = n := by
  refine ⟨fun draft heq => ?_, fun r => ?_⟩
  · rw [heq] at ho
    cases ho
  · show (if inserts o then n - 1 else n) = n
    rw [ho]
    rfl

theorem creating_none {α : Type} {x : Py α} (hx : x.Performs fun o => inserts o = false) :
    (creating campaignId).Follows n x fun s _ => s = n :=
  follows_at_of_performs (fun _ ho => creations_steady ho n) hx

/-- What an operation of the account leaves is enough for what follows. -/
theorem creating_bind {α β : Type} {x : Py α} {f : α → Py β}
    (hx : (creating campaignId).Follows (n + 1) x fun s _ => n ≤ s)
    (hf : ∀ a, (f a).Performs fun o => inserts o = false) :
    (creating campaignId).Follows (n + 1) (x.bind f) fun s _ => n ≤ s := by
  rw [follows_bind]
  refine hx.mono fun s r hs => ?_
  cases r with
  | error e => exact hs
  | ok a => exact (creating_none (hf a)).mono fun s' _ hs' => hs'.symm ▸ hs

/-- `create_call` takes one: the duplicate it may find after that is read, not inserted. -/
theorem creating_createCall {pair : ReservationPair} :
    (creating campaign.id).Follows (n + 1) (CallRepo.createCall (callDraft campaign pair))
      fun s _ => n ≤ s := by
  unfold CallRepo.createCall
  rw [follows_catching]
  refine (follows_perform ..).mpr ⟨fun draft hdraft => ?_, fun r => ?_⟩
  · cases hdraft
    exact ⟨rfl, Nat.succ_pos n⟩
  · have hspent : (creating campaign.id).next (n + 1) (.insertCall (callDraft campaign pair)) r = n :=
      rfl
    rw [hspent]
    cases r with
    | ok created => exact le_refl n
    | error e =>
      refine (creating_none ?_).mono fun s _ hs => hs.ge
      -- a duplicate key makes it read the call that is there
      split
      · refine .bind (Prog.performs_perform.mpr rfl) fun existing => ?_
        cases existing <;> trivial
      · trivial

/-- **A dial creates one call at most**, and for its campaign. Of all operations of a dial only the
insertion creates a call, and it is performed once. The number is of calls that may still be
created. -/
theorem creating_dialCompensated {pair : ReservationPair} :
    (creating campaign.id).Follows (n + 1) (dialCompensated cfg campaign pair)
      fun s _ => n ≤ s := by
  -- from `create_call` on: one is taken, and nothing that follows inserts
  have hopen : (creating campaign.id).Follows (n + 1) (dialOpen cfg campaign pair)
      fun s _ => n ≤ s :=
    creating_bind creating_createCall fun created => performs_taken
  have hback : ((release cfg pair .RELEASED).bind fun _ => Prog.ret false).Performs
      fun o => inserts o = false :=
    .bind (performs_release rfl fun _ _ => rfl) fun _ => Prog.performs_ret false
  -- a retry asks first whether the borrower may be called again
  have hdial : (creating campaign.id).Follows (n + 1) (dial cfg campaign pair)
      fun s _ => n ≤ s := by
    unfold dial
    split
    · rw [Prog.bind_def, follows_bind]
      refine (creating_none (performs_shouldRetry rfl rfl)).mono fun s r hs => ?_
      subst hs
      cases r with
      | error e => exact Nat.le_succ n
      | ok retry =>
        dsimp only
        split
        · exact (creating_none hback).mono fun s _ hs => hs ▸ Nat.le_succ n
        · exact hopen
    · exact hopen
  unfold dialCompensated
  rw [follows_catching]
  refine hdial.mono fun s r hs => ?_
  cases r with
  | ok dialled => exact hs
  | error e =>
    -- the handler of a cancellation gives the pair back, and inserts nothing
    refine (creating_none ?_).mono fun s' _ hs' => hs'.symm ▸ hs
    split
    · refine .bind (.catching (performs_release rfl fun _ _ => rfl) fun e => ?_) fun _ => trivial
      split <;> trivial
    · trivial

/-- **The loop creates no more calls than it makes attempts.** By induction on the attempts that are
left: each takes one off what may still be created. -/
theorem creating_allocateLoop (m : Nat) (hm : m ≤ n) (counts : AllocationResult) (k : Nat) :
    (creating campaign.id).Follows n (allocateLoop cfg campaign workerId m counts k)
      fun _ _ => True := by
  -- on the attempts left: each may take one of the number
  induction m generalizing n counts k with
  | zero => trivial
  | succ m ih =>
    obtain ⟨n, rfl⟩ : ∃ left, n = left + 1 := ⟨n - 1, by omega⟩
    have hm : m ≤ n := by omega
    unfold allocateLoop
    rw [Prog.bind_def, follows_bind]
    refine (creating_none (performs_reservePair campaign.id (fun _ _ => rfl) (fun _ _ => rfl)
      (fun _ _ => rfl) (fun _ _ => rfl) fun _ => rfl)).mono fun s r hs => ?_
    subst hs
    rcases r with e | (_ | pair)
    · trivial
    -- contention: the attempt has inserted nothing
    · dsimp only
      split
      · trivial
      · exact ih (by omega) _ _
    -- a pair: the dial leaves at least what the attempts after it need
    · dsimp only
      rw [Prog.bind_def, follows_bind]
      refine creating_dialCompensated.mono fun s r hs => ?_
      cases r with
      | error e => trivial
      | ok dialled =>
        dsimp only
        split
        · exact ih (hm.trans hs) _ _
        · exact ih (hm.trans hs) _ _

/-! ## The decision of the safety controller

The evaluation inserts no call, so all that matters is what it answers: every way out of it approves
no more than was requested, `evaluation_error` because it approves nothing. -/

variable [FloatOps F] {settings : SafetySettings F}

theorem approved_conclude_le (request : PacingRequest F) (pacingDecisionId : Option DocId)
    (reading : CapacityReading F) (age ceiling : Int) (drop : Option (AvailabilityDrop F))
    (createdAt : Time) :
    (SafetyController.conclude settings campaign request pacingDecisionId reading age ceiling drop
        createdAt).approved.toNat ≤ request.requested.toNat := by
  have hle : (SafetyController.conclude settings campaign request pacingDecisionId reading age
      ceiling drop createdAt).approved ≤ max 0 request.requested := by
    unfold SafetyController.conclude SafetyController.approvedCount
    exact max_le_max (le_refl 0) (SafetyController.foldl_min_le _ _).1
  omega

/-- No more than what was requested is approved. -/
def Granted (request : PacingRequest F) (n : Nat) (s : Nat)
    (r : Except Exn (SafetyDecision F × AgentAvailabilityTracker)) : Prop :=
  s = n ∧ ∀ answer, r = .ok answer → answer.1.approved.toNat ≤ request.requested.toNat

/-- Steps that read, and what follows them. -/
theorem creating_read {α β : Type} {x : Py α} {f : α → Py β} {Q : Nat → Except Exn β → Prop}
    (hx : x.Performs fun o => inserts o = false) (herror : ∀ e, Q n (.error e))
    (hf : ∀ a, (creating campaignId).Follows n (f a) Q) :
    (creating campaignId).Follows n (x.bind f) Q := by
  rw [follows_bind]
  refine (creating_none hx).mono fun s r hs => ?_
  rw [hs]
  cases r with
  | error e => exact herror e
  | ok a => exact hf a

omit [FloatOps F] in
theorem granted_error {request : PacingRequest F} {e : Exn} : Granted request n n (.error e) :=
  ⟨rfl, fun _ h => by cases h⟩

omit [FloatOps F] in
theorem creating_evaluationError (tracker : AgentAvailabilityTracker) (request : PacingRequest F)
    (pacingDecisionId : Option DocId) :
    (creating campaignId).Follows n
      ((call .utcNow).bind fun createdAt => .ret
        (SafetyController.evaluationError campaign request pacingDecisionId createdAt, tracker))
      (Granted request n) := by
  refine creating_read (Prog.performs_perform.mpr rfl) (fun _ => granted_error) fun createdAt =>
    ⟨rfl, fun answer hanswer => ?_⟩
  cases hanswer
  exact Nat.zero_le _

theorem inserts_of_reads {o : Op} (ho : SafetyController.reads o = true) : inserts o = false := by
  cases o with
  | insertCall draft => cases ho
  | _ => rfl

theorem performs_observe (request : PacingRequest F) :
    (SafetyController.observe settings campaign request).Performs fun o => inserts o = false := by
  unfold SafetyController.observe
  refine .bind ((SafetyController.performs_readCapacity campaign).mono fun _ => inserts_of_reads)
    fun _ => .bind (Prog.performs_perform.mpr rfl) fun _ => ?_
  split <;> trivial

/-- The evaluation, whichever of its reads raises. An evaluation creates nothing, and what it
approves does not exceed what was requested. -/
theorem creating_evaluateGuarded (tracker : AgentAvailabilityTracker) (request : PacingRequest F)
    (pacingDecisionId : Option DocId) :
    (creating campaignId).Follows n
      (SafetyController.evaluateGuarded settings tracker campaign request pacingDecisionId)
      (Granted request n) := by
  unfold SafetyController.evaluateGuarded SafetyController.evaluateUnguarded
  rw [Prog.bind_def, follows_bind, follows_catching, Prog.bind_def, follows_bind]
  refine (creating_none (performs_observe request)).mono fun s r hs => ?_
  subst hs
  cases r with
  -- one of the reads has raised
  | error e =>
    dsimp only
    split
    · exact creating_evaluationError tracker request pacingDecisionId
    · exact granted_error
  | ok observed =>
    obtain ⟨reading, age⟩ := observed
    dsimp only
    split
    -- the ringing ceiling cannot be computed
    · exact creating_evaluationError _ request pacingDecisionId
    · refine creating_read (Prog.performs_perform.mpr rfl) (fun e => ?_) fun createdAt => ?_
      · dsimp only
        split
        · exact creating_evaluationError tracker request pacingDecisionId
        · exact granted_error
      · refine ⟨rfl, fun answer hanswer => ?_⟩
        cases hanswer
        exact approved_conclude_le request pacingDecisionId reading age _ _ createdAt

/-- Writing the decision down changes nothing of what is granted. -/
theorem creating_evaluate (tracker : AgentAvailabilityTracker) (request : PacingRequest F)
    (pacingDecisionId : Option DocId) (persist : Bool) :
    (creating campaignId).Follows n
      (SafetyController.evaluate settings tracker campaign request pacingDecisionId persist)
      (Granted request n) := by
  unfold SafetyController.evaluate
  rw [Prog.bind_def, follows_bind]
  refine (creating_evaluateGuarded tracker request pacingDecisionId).mono fun s r hs => ?_
  obtain ⟨rfl, happroved⟩ := hs
  cases r with
  | error e => exact granted_error
  | ok answer =>
    obtain ⟨decision, tracker'⟩ := answer
    refine creating_read ?_ (fun _ => granted_error) fun _ => ⟨rfl, fun answer hanswer => ?_⟩
    · split
      · refine .catching (Prog.performs_perform.mpr rfl) fun e => ?_
        split <;> trivial
      · trivial
    · cases hanswer
      exact happroved _ rfl

/-- **A tick creates no more calls than were requested.** -/
theorem creating_tick (tracker : AgentAvailabilityTracker) (request : PacingRequest F)
    (pacingDecisionId : Option DocId) (hn : request.requested.toNat ≤ n) :
    (creating campaign.id).Follows n
      (DialerBase.tick settings cfg tracker campaign request pacingDecisionId workerId)
      fun _ _ => True := by
  unfold DialerBase.tick
  rw [Prog.bind_def, follows_bind]
  refine (creating_evaluate tracker request pacingDecisionId _).mono fun s r hs => ?_
  obtain ⟨rfl, happroved⟩ := hs
  cases r with
  | error e => trivial
  | ok answer =>
    dsimp only
    rw [Prog.bind_def, follows_bind]
    refine (creating_allocateLoop _ ((happroved _ rfl).trans hn) _ _).mono fun s r _ => ?_
    cases r <;> trivial

end SmartDialer
