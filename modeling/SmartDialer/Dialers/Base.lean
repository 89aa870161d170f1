import SmartDialer.Lib.Conduct
import SmartDialer.Calls.Evolution
import SmartDialer.Safety.SafetyController

/-!
# The dialer's tick (`app/dialers/base.py`)

A tick asks the safety controller and then allocates what it has approved. What the pacing engine
has requested and what the availability tracker of the process remembers, a tick is given.
`ticking` is the system in which every allocation is part of a tick.

The conduct of a tick is that of an allocation, with the controller's reads allowed before the first
pair is looked for. Three facts make the bigger system inherit what is known of the smaller:

* `ticking_of_system`: what keeps to the conduct of the system keeps to that of the ticks;
* `ticking_conforms`: a whole tick does, since the evaluation only reads and the rest is the loop of
  `allocate`;
* `CallFacts.tick`: the facts about calls survive a read as they survive every other operation.
-/

namespace SmartDialer

open Concurrent HostFloat Machine

/-- What a tick returns: what was requested, the controller's decision on it and what became of
the allocation. -/
structure TickResult (F : Type) where
  requested : Int
  decision : SafetyDecision F
  allocation : AllocationResult

/-- A job of the system with dialers: a tick, or one of the other jobs. -/
inductive TickJob (F : Type) where
  | tick (tracker : AgentAvailabilityTracker) (campaign : Campaign) (request : PacingRequest F)
      (pacingDecisionId : Option DocId) (workerId : WorkerId)
  | other (job : Job)

inductive TickOutcome (F : Type) where
  | tick (result : TickResult F)
  | other (outcome : Outcome)

variable {F : Type} [FloatOps F]

/-- `tick`, from the pacing request on. -/
def DialerBase.tick (settings : SafetySettings F) (cfg : Config)
    (tracker : AgentAvailabilityTracker) (campaign : Campaign) (request : PacingRequest F)
    (pacingDecisionId : Option DocId) (workerId : WorkerId) : Py (TickResult F) := do
  let idle := decide (request.requested = 0)
  let (decision, _) ← SafetyController.evaluate settings tracker campaign request pacingDecisionId
    (!idle)
  let allocation ← CallAllocator.allocate cfg campaign decision.approved workerId
  pure { requested := request.requested, decision, allocation }

/-- What the safety controller performs: it reads the store and writes down its decision. -/
def SafetyController.reads : Op → Bool
  | .utcNow | .countAgentsByState .. | .countCallsByState .. | .countExpiredLeases ..
  | .outcomeCountsBetween .. | .getHealth .. | .recordSafetyDecision .. => true
  | _ => false

/-- The operations of a thread at a stage; a tick reads before it looks for its first pair. -/
inductive TickEmits : Stage → Op → Prop where
  | own {s : Stage} {o : Op} (h : Emits s o) : TickEmits s o
  | read {campaign : Campaign} {workerId : WorkerId} {o : Op}
      (ho : SafetyController.reads o = true) : TickEmits (.allocating campaign workerId) o

/-- The system with dialers: the jobs of the system, and ticks. A tick starts at the stage of an
allocation, because nothing it does before that stage leaves a trace in the store. -/
def ticking (settings : SafetySettings F) (cfg : Config) :
    Machine (TickJob F) Op Res Exn Store Env (TickOutcome F) Stage where
  exec := exec
  program
    | .tick tracker campaign request pacingDecisionId workerId => do
      let result ← DialerBase.tick settings cfg tracker campaign request pacingDecisionId workerId
      pure (.tick result)
    | .other job => do
      let outcome ← Job.program cfg job
      pure (.other outcome)
  idle := .idle
  start
    | .tick _ campaign _ _ workerId => .allocating campaign workerId
    | .other job => job.start
  Emits := TickEmits
  next := Stage.next

section Conformance

variable {settings : SafetySettings F} {cfg : Config}

theorem ticking_of_system {α : Type} {s : Stage} {x : Py α} {Q : Stage → Except Exn α → Prop}
    (h : (system cfg).Follows s x Q) : (ticking settings cfg).Follows s x Q := by
  refine h.transfer ?_ ?_
  · exact fun _ _ hemits => TickEmits.own hemits
  · exact fun _ _ _ => rfl

namespace SafetyController

theorem performs_readCapacity (campaign : Campaign) :
    (readCapacity settings campaign).Performs fun o => reads o = true := by
  unfold readCapacity
  refine .bind (Prog.performs_perform.mpr rfl) fun _ => .bind (Prog.performs_perform.mpr rfl)
    fun _ => .bind (Prog.performs_perform.mpr rfl) fun _ => .bind (Prog.performs_perform.mpr rfl)
    fun _ => ?_
  split
  · exact trivial
  · exact .bind (Prog.performs_perform.mpr rfl) fun _ => .bind (Prog.performs_perform.mpr rfl)
      fun _ => Prog.performs_ret _

theorem performs_evaluateUnguarded (tracker : AgentAvailabilityTracker) (campaign : Campaign)
    (request : PacingRequest F) (pacingDecisionId : Option DocId) :
    (evaluateUnguarded settings tracker campaign request pacingDecisionId).Performs
      fun o => reads o = true := by
  unfold evaluateUnguarded observe
  refine .bind (.bind (performs_readCapacity campaign) fun _ =>
    .bind (Prog.performs_perform.mpr rfl) fun _ => ?_) fun _ => ?_
  · split <;> trivial
  · dsimp only
    split
    · exact trivial
    · exact .bind (Prog.performs_perform.mpr rfl) fun _ => Prog.performs_ret _

theorem performs_evaluate (tracker : AgentAvailabilityTracker) (campaign : Campaign)
    (request : PacingRequest F) (pacingDecisionId : Option DocId) (persist : Bool) :
    (evaluate settings tracker campaign request pacingDecisionId persist).Performs
      fun o => reads o = true := by
  unfold evaluate evaluateGuarded
  refine .bind (.bind (.catching (performs_evaluateUnguarded _ _ _ _) fun e => ?_) fun answer => ?_)
    fun answer => .bind ?_ fun _ => Prog.performs_ret _
  -- what the guard catches becomes a decision to reject, the rest goes on
  · split <;> trivial
  · obtain ⟨decision, tracker'⟩ := answer
    cases decision with
    | ok decision => exact Prog.performs_ret _
    | error e => exact .bind (Prog.performs_perform.mpr rfl) fun _ => Prog.performs_ret _
  · split
    -- the decision is recorded unless the tick is idle, and a failing record is only logged
    · refine .catching (Prog.performs_perform.mpr rfl) fun e => ?_
      split <;> trivial
    · exact Prog.performs_ret _

end SafetyController

/-- **The programs of the ticking system keep to its conduct.** A tick evaluates and then allocates
what has been approved; all other jobs are those of the system without ticks. -/
theorem ticking_conforms : (ticking settings cfg).Conforms fun _ _ _ => True := by
  intro job
  cases job with
  | tick tracker campaign request pacingDecisionId workerId =>
    -- the evaluation stays at the stage of the allocation, and leaves it there
    have hreads : (ticking settings cfg).Follows (.allocating campaign workerId)
        (SafetyController.evaluate settings tracker campaign request pacingDecisionId
          (!decide (request.requested = 0))) fun s _ => s = .allocating campaign workerId := by
      refine follows_at_of_performs (S := fun o => SafetyController.reads o = true)
        (fun o ho => ⟨TickEmits.read ho, fun r => ?_⟩) (SafetyController.performs_evaluate _ _ _ _ _)
      cases o <;> first | rfl | exact absurd ho Bool.false_ne_true
    show (ticking settings cfg).Follows _ ((DialerBase.tick settings cfg tracker campaign request
      pacingDecisionId workerId).bind fun result => Prog.ret (TickOutcome.tick result)) _
    unfold DialerBase.tick
    simp only [Prog.bind_def, Prog.bind_assoc, follows_bind]
    refine hreads.mono fun s r hs => ?_
    cases r with
    | error e => trivial
    | ok answer =>
      rw [hs]
      -- what follows is the loop of `allocate`, from the stage at which it starts
      refine (ticking_of_system (follows_allocateLoop workerId _ _ _)).mono fun s' r' _ => ?_
      cases r' <;> trivial
  | other job =>
    show (ticking settings cfg).Follows _ ((Job.program cfg job).bind fun outcome =>
      Prog.ret (TickOutcome.other outcome)) _
    rw [follows_bind]
    refine (ticking_of_system (system_conforms job)).mono fun s r _ => ?_
    cases r <;> trivial

/-! ## What stays true

A read changes neither the store nor the stage, so an invariant of the system holds in the ticking
system as soon as its two halves are taken apart: an operation of the system, or a read. -/

/-- Reading leaves the store as it is, and the stage. -/
theorem SafetyController.exec_of_reads {o : Op} (ho : SafetyController.reads o = true) (env : Env)
    (σ : Store) : (exec env o σ).2 = σ := by
  have happly : (apply env o σ).2 = σ := by
    cases o <;> first | rfl | exact absurd ho Bool.false_ne_true
  rcases exec_store env o σ with hstore | hstore
  · exact hstore
  · rw [hstore, happly]

theorem SafetyController.next_of_reads {o : Op} (ho : SafetyController.reads o = true)
    (campaign : Campaign) (workerId : WorkerId) (r : Except Exn (Res o)) :
    (Stage.allocating campaign workerId).next o r = .allocating campaign workerId := by
  cases o <;> first | rfl | exact absurd ho Bool.false_ne_true

/-- The call facts, in the ticking system. -/
theorem CallFacts.tick {σ : Store} {st : Nat → Stage} (h : CallFacts σ st) (p : Nat) {o : Op}
    (env : Env) (hemits : TickEmits (st p) o) :
    CallFacts (exec env o σ).2 (Function.update st p ((st p).next o (exec env o σ).1)) := by
  generalize hs : st p = s at hemits
  cases hemits with
  | own hown =>
    rw [← hs] at hown ⊢
    exact h.op p env hown
  | read ho =>
    rw [SafetyController.exec_of_reads ho, SafetyController.next_of_reads ho, ← hs,
      Function.update_eq_self]
    exact h

end Conformance

end SmartDialer
