import SmartDialer.Calls.Budget
import SmartDialer.Calls.Readiness

/-!
# What a dial has made and what a sweep has read

The conduct of this module follows the two parties that meet over a call: an allocator, from the
call it has inserted to the hang-up it may have to do, and a pass of the sweeps, with its instant,
the calls its last query has led to and whether it has found a silent agent. It also fixes how long
a reservation is taken for.

The stages of the dialer do not tell two sweeps apart, nor two calls of one allocator. What recovery
needs is finer: that a sweep ends only calls which it has read, at the instant it has asked for
first, and that a dial which is struck by an exception knows its call. `Pace` records just this,
beside the stages.

* `Pace.conduct`: what is remembered of a job, and which operations may come next.
* `performs_dialCompensated`: a dial reserves nothing, whatever it is answered.
* `keeping_cancelBoundCall`: a sweep cancels only the call that it has read last.
* `pace_conforms`: every job of the dialer keeps to the conduct.
-/

namespace SmartDialer

open Concurrent Machine

/-! ## The conduct

A conduct is a second automaton that runs along with a job. It does not restrict the job, it
remembers what the job has been answered: `Pace.next` reads the answers, `Pace.Emits` says which
operations may follow, and the rest of the module shows that the programs perform no others. -/

/-- One pass of the sweeps, by what its queries have answered so far. A new query forgets what the
query before it has led to. -/
structure Pass where
  now : Option Time := none
  /-- The calls that the agents of the last query are bound to. -/
  bound : List DocId := []
  /-- The calls that may be ended: stale ones, or one that an agent is bound to. -/
  ending : List DocId := []
  /-- The query for silent agents has found one. -/
  silent : Bool := false
  deriving DecidableEq

/-- Where a job stands. Whoever neither allocates nor sweeps is not followed. -/
inductive Pace where
  | other
  /-- `made` is the call that the current dial has inserted. -/
  | allocating (made : Option DocId) (hungUp : Bool)
  | sweeping (pass : Pass)
  deriving DecidableEq

namespace Pace

def boundCalls (agents : List Agent) : List DocId := agents.filterMap Agent.currentCallId

/-- A dial begins with the reservation of its agent, so that is where the call of the dial before it
is forgotten. `hungUp` marks a call that had ended before its provider id could be attached: the
source hangs it up then. -/
def nextAllocating (made : Option DocId) (hungUp : Bool) : (o : Op) → Except Exn (Res o) → Pace
  | .tryReserveAgent .., _ => .allocating none false
  | .insertCall _, .ok created => .allocating (some created.id) hungUp
  | .attachProviderCallId .., .ok none => .allocating made true
  | _, _ => .allocating made hungUp

/-- The answer of the clock is the instant of the whole pass. A query for agents replaces the bound
calls; a call may be ended when it has been read through one of these, or was in the answer of the
query for stale calls. -/
def nextSweeping (pass : Pass) : (o : Op) → Except Exn (Res o) → Pace
  | .utcNow, .ok now => .sweeping { pass with now := some now }
  | .findExpiredAgentLeases .., .ok agents =>
    .sweeping { pass with bound := boundCalls agents, ending := [] }
  | .findHeartbeatExpired .., .ok agents =>
    .sweeping { pass with bound := boundCalls agents, ending := [], silent := !agents.isEmpty }
  | .findStaleCalls .., .ok orphans => .sweeping { pass with bound := [], ending := orphans.map Call.id }
  | .findCallById _, .ok (some found) => .sweeping { pass with ending := [found.id] }
  | _, _ => .sweeping pass

def next : Pace → (o : Op) → Except Exn (Res o) → Pace
  | .other => fun _ _ => .other
  | .allocating made hungUp => nextAllocating made hungUp
  | .sweeping pass => nextSweeping pass

/-- What a pass may perform next. Queries and conditional updates carry the instant of the pass, a
call is read only if an agent of the last query is bound to it, and only the fourth sweep logs
agents out. -/
def EmitsSweeping (settings : Settings) (pass : Pass) : Op → Prop
  | .findExpiredAgentLeases now _ | .findExpiredBorrowerLeases now _
  | .releaseExpiredAgentLease _ now | .reclaimBorrowerLease _ now => pass.now = some now
  | .findStaleCalls olderThan _ =>
    ∃ now, pass.now = some now ∧ olderThan = now - seconds settings.CALL_STALE_TIMEOUT_SECONDS
  | .findCallById callId => callId ∈ pass.bound
  | .transitionCall callId _ _ => callId ∈ pass.ending
  | .transitionAgent _ _ .OFFLINE _ _ => pass.silent = true
  | .tryReserveAgent .. | .tryReserveBorrower .. => False
  | _ => True

/-- The reservations, with the time they are taken for. -/
def claimsFor : Op → Option Int
  | .tryReserveAgent _ _ _ ttl | .tryReserveBorrower _ _ _ ttl => some ttl
  | _ => none

def Emits (settings : Settings) : Pace → Op → Prop
  | .other => fun o => claimsFor o = none
  | .allocating _ _ => fun o => ∀ ttl ∈ claimsFor o, ttl = settings.RESERVATION_TTL_SECONDS
  | .sweeping pass => EmitsSweeping settings pass

def start : Job → Pace
  | .allocate .. => .allocating none false
  | .runSweeps => .sweeping {}
  | _ => .other

/-- Allocations start without a call and passes without an instant. -/
def conduct (settings : Settings) : Conduct Job Op Res Exn Pace where
  idle := .other
  start := start
  Emits := Emits settings
  next := next

end Pace

/-- The dialer with its dials and its sweeps watched: each thread has its stage and, beside it, its
pace. -/
abbrev pacing (cfg : Config) := (system cfg).both (Pace.conduct cfg.settings)

/-! ## Every program keeps to it

By induction on the programs, function by function as the source has them. Allocators and the jobs
that are not followed perform nothing that their pace forbids, so it is enough to list their
operations. The sweeps need the pace itself, since what they may end depends on what they were
answered. -/

section Follows

variable {cfg : Config}

/-- The dialer whose threads are followed by their pace alone. -/
abbrev pace (cfg : Config) := (system cfg).under (Pace.conduct cfg.settings)

theorem pace_call {s : Pace} {o : Op} {Q : Pace → Except Exn (Res o) → Prop} :
    (pace cfg).Follows s (call o) Q ↔ Pace.Emits cfg.settings s o ∧ ∀ r, Q (s.next o r) r :=
  follows_perform s o Q

/-! ### Jobs that neither allocate nor sweep -/

theorem Emits.claimsFor {s : Stage} {o : Op} (h : Emits s o) (hs : s.allocates = false) :
    Pace.claimsFor o = none := by
  cases h <;> first | rfl | cases hs

/-- A job that does not allocate never leaves the pace `other`. Its stages say so already, and the
pace has only to be told that nothing is reserved. -/
theorem pace_other (job : Job) (hjob : job.start.allocates = false) :
    (pace cfg).Follows .other (job.program cfg) fun _ _ => True := by
  have hfollows : (system cfg).Follows job.start (job.program cfg) (Finished job) :=
    system_conforms job
  have hplain : ∀ (s : Stage) (o : Op), s.allocates = false → Emits s o →
      Pace.claimsFor o = none ∧ ∀ r, (s.next o r).allocates = false :=
    fun s o hs h => ⟨h.claimsFor hs, Stage.allocates_next hs o⟩
  exact (follows_at_of_performs (M := pace cfg) (s := Pace.other) (fun o ho => ⟨ho, fun r => rfl⟩)
    (hfollows.performs hplain hjob)).mono fun _ _ _ => trivial

/-! ### Allocators -/

/-- Some point of an allocation; which one does not matter for what it may perform. -/
def Allocating : Pace → Prop
  | .allocating _ _ => True
  | _ => False

theorem Pace.allocating_next {s : Pace} (hs : Allocating s) (o : Op) (r : Except Exn (Res o)) :
    Allocating (s.next o r) := by
  cases s with
  | other | sweeping => exact hs.elim
  | allocating made hungUp =>
    show Allocating (Pace.nextAllocating made hungUp o r)
    unfold Pace.nextAllocating
    split <;> trivial

/-- The operations of an allocation: whatever is no reservation, and a reservation for the time that
the settings give. -/
def plain (settings : Settings) (o : Op) : Prop :=
  ∀ ttl ∈ Pace.claimsFor o, ttl = settings.RESERVATION_TTL_SECONDS

theorem plain_of_none {settings : Settings} {o : Op} (ho : Pace.claimsFor o = none) :
    plain settings o := by
  intro ttl httl
  rw [ho] at httl
  cases httl

theorem pace_allocating {α : Type} {x : Py α} (h : x.Performs (plain cfg.settings)) {s : Pace}
    (hs : Allocating s) : (pace cfg).Follows s x fun s' _ => Allocating s' := by
  refine follows_within_of_performs (M := pace cfg) (J := Allocating) (fun s o hs ho => ?_) hs h
  cases s with
  | other | sweeping => exact hs.elim
  | allocating made hungUp => exact ⟨ho, Pace.allocating_next hs o⟩

section Performs

variable {campaign : Campaign} {workerId : WorkerId} {pair : ReservationPair} {callId : DocId}

/-- `_originate` reserves nothing: the registry, the request to the provider and the samples of its
health are all it performs. The lemma is stated for any set that holds what is no reservation, so
that `_dial` can use it for its own. -/
theorem performs_originate {S : Op → Prop} (hS : ∀ o, Pace.claimsFor o = none → S o) :
    (CallAllocator.originate cfg campaign pair callId).Performs S := by
  unfold CallAllocator.originate providerRegistryGet
  refine .bind ?_ fun _ => .bind (Prog.performs_perform.mpr (hS _ rfl)) fun _ =>
    .bind (.catching (.bind (Prog.performs_perform.mpr (hS _ rfl)) fun _ => trivial)
      fun _ => trivial) fun outcome => ?_
  · split <;> exact trivial
  · split
    all_goals first
      | exact .bind (Prog.performs_perform.mpr (hS _ rfl)) fun _ => trivial
      | exact trivial

/-- From `create_call` on: the call is inserted or read back, moved on, and either handed to the
provider or given back with its agent and its borrower. -/
theorem performs_dialOpen {S : Op → Prop} (hS : ∀ o, Pace.claimsFor o = none → S o) :
    (CallAllocator.dialOpen cfg campaign pair).Performs S := by
  have hback : ∀ outcome, (CallAllocator.release cfg pair outcome).Performs S := fun outcome =>
    CallAllocator.performs_release (hS _ rfl) fun _ _ => hS _ rfl
  unfold CallAllocator.dialOpen
  refine .bind (CallAllocator.performs_createCall (hS _ rfl) (hS _ rfl)) fun created => ?_
  split
  · exact .bind (hback _) fun _ => trivial
  · refine .bind (Prog.performs_perform.mpr (hS _ rfl)) fun _ =>
      .bind (Prog.performs_perform.mpr (hS _ rfl)) fun initiated => ?_
    cases initiated with
    -- somebody else has moved the call: the pair is released and the dial is over
    | none => exact .bind (hback _) fun _ => trivial
    | some _ =>
      unfold CallAllocator.dialInitiated
      refine .bind (CallAllocator.performs_transitionAgent (hS _ rfl)) fun _ =>
        .bind (Prog.performs_perform.mpr (hS _ rfl)) fun _ =>
          .bind (performs_originate hS) fun result => ?_
      cases result with
      | none => exact CallAllocator.performs_fail (hS _ rfl) (hS _ rfl) fun _ _ => hS _ rfl
      | some result =>
        dsimp only
        split
        · exact CallAllocator.performs_dialAccepted (hS _ rfl) (hS _ rfl) (fun _ => hS _ rfl)
            (hS _ rfl) fun _ _ => hS _ rfl
        · exact CallAllocator.performs_fail (hS _ rfl) (hS _ rfl) fun _ _ => hS _ rfl

/-- A dial reserves nothing, and neither does its compensation, which releases the pair after a
cancellation and lets every other exception through. -/
theorem performs_dialCompensated {S : Op → Prop} (hS : ∀ o, Pace.claimsFor o = none → S o) :
    (CallAllocator.dialCompensated cfg campaign pair).Performs S := by
  have hback : ∀ outcome, (CallAllocator.release cfg pair outcome).Performs S := fun outcome =>
    CallAllocator.performs_release (hS _ rfl) fun _ _ => hS _ rfl
  refine .catching ?_ fun e => ?_
  · unfold CallAllocator.dial
    split
    · refine .bind (CallAllocator.performs_shouldRetry (hS _ rfl) (hS _ rfl)) fun retry => ?_
      split
      · exact .bind (hback _) fun _ => trivial
      · exact performs_dialOpen hS
    · exact performs_dialOpen hS
  · split
    · refine .bind (.catching (hback _) fun e => ?_) fun _ => trivial
      split <;> exact trivial
    · exact trivial

/-- The loop of `allocate`. The two reservations of `reserve_pair` are the only ones in it, and both
are taken for `RESERVATION_TTL_SECONDS`. -/
theorem performs_allocateLoop (n k : Nat) (counts : AllocationResult) :
    (CallAllocator.allocateLoop cfg campaign workerId n counts k).Performs
      (plain cfg.settings) := by
  -- on the attempts that are left
  induction n generalizing counts k with
  | zero => exact trivial
  | succ n ih =>
    have hclaim : ∀ o, Pace.claimsFor o = some cfg.settings.RESERVATION_TTL_SECONDS →
        plain cfg.settings o := by
      intro o ho ttl httl
      exact Option.some.inj (httl.symm.trans ho)
    unfold CallAllocator.allocateLoop
    refine .bind (CallAllocator.performs_reservePair campaign.id
      (fun _ _ => plain_of_none rfl) (fun _ _ => hclaim _ rfl) (fun _ _ => plain_of_none rfl)
      (fun _ _ => hclaim _ rfl) fun _ => plain_of_none rfl) fun pair => ?_
    cases pair with
    | none =>
      dsimp only
      split
      · exact trivial
      · exact ih _ _
    | some pair =>
      refine .bind (performs_dialCompensated fun o ho => plain_of_none ho) fun dialled => ?_
      split <;> exact ih _ _

end Performs

/-! ### The sweeps -/

section Sweeps

variable {pass : Pass} {now : Time}

/-- The pass is where it was, except for the calls it may end. This is what a sweep keeps from one
candidate to the next: reading the call of a candidate changes `ending` and nothing else. -/
def Keeping {α : Type} (pass : Pass) : Pace → Except Exn α → Prop :=
  fun s _ => ∃ ending, s = .sweeping { pass with ending }

/-- One step of a sweep after another. An exception leaves the sweep with the pass still in
place. -/
theorem keeping_bind {α β : Type} {s : Pace} {x : Py α} {f : α → Py β}
    (hx : (pace cfg).Follows s x (Keeping pass))
    (hf : ∀ a ending, (pace cfg).Follows (.sweeping { pass with ending }) (f a) (Keeping pass)) :
    (pace cfg).Follows s (x.bind f) (Keeping pass) := by
  rw [follows_bind]
  refine hx.mono fun s r hr => ?_
  obtain ⟨ending, rfl⟩ := hr
  cases r with
  | error e => exact ⟨ending, rfl⟩
  | ok a => exact hf a ending

theorem keeping_ret {α : Type} (a : α) (ending : List DocId) :
    (pace cfg).Follows (.sweeping { pass with ending }) (.ret a) (Keeping pass) :=
  ⟨ending, rfl⟩

/-- An operation that leaves the pass as it is. -/
theorem keeping_call {o : Op} {ending : List DocId}
    (hemits : Pace.EmitsSweeping cfg.settings { pass with ending } o)
    (hnext : ∀ r, Pace.nextSweeping { pass with ending } o r = .sweeping { pass with ending }) :
    (pace cfg).Follows (.sweeping { pass with ending }) (call o) (Keeping pass) :=
  pace_call.mpr ⟨hemits, fun r => ⟨ending, hnext r⟩⟩

def Pace.releases : Op → Bool
  | .releaseAgent .. | .releaseBorrower .. => true
  | _ => false

/-- Giving back agents and borrowers leaves a pass as it is. -/
theorem pace_releases {α : Type} {x : Py α} (h : x.Performs fun o => Pace.releases o = true) :
    (pace cfg).Follows (.sweeping pass) x fun s _ => s = .sweeping pass := by
  refine follows_at_of_performs (M := pace cfg) (fun o ho => ?_) h
  cases o with
  | releaseAgent | releaseBorrower => exact ⟨trivial, fun r => by cases r <;> rfl⟩
  | _ => cases ho

theorem performs_recoverBorrower (ended : Call) :
    (RecoveryWorker.releaseBorrower cfg ended).Performs fun o => Pace.releases o = true :=
  .bind (Prog.performs_perform.mpr rfl) fun _ => trivial

theorem performs_releaseParties (ended : Call) :
    (RecoveryWorker.releaseParties cfg ended).Performs fun o => Pace.releases o = true := by
  unfold RecoveryWorker.releaseParties SmartDialer.releaseAgent
  refine .bind ?_ fun _ => performs_recoverBorrower ended
  rw [if_neg (by decide)]
  exact Prog.performs_perform.mpr rfl

/-- **The call that is cancelled is the one that has been read last.** `_cancel_bound_call` reads
the call by the id its agent carries, so the id is among the bound calls of the query; what it
cancels is the document it was answered. -/
theorem keeping_cancelBoundCall {agent : Agent} (reason : String) (ending : List DocId)
    (hbound : ∀ c ∈ agent.currentCallId, c ∈ pass.bound) :
    (pace cfg).Follows (.sweeping { pass with ending })
      (RecoveryWorker.cancelBoundCall cfg agent reason) (Keeping pass) := by
  unfold RecoveryWorker.cancelBoundCall
  split
  · exact keeping_ret () ending
  · next callId hcall =>
    rw [Prog.bind_def, follows_bind]
    refine pace_call.mpr ⟨hbound callId hcall, fun r => ?_⟩
    rcases r with e | (_ | found)
    · exact ⟨ending, rfl⟩
    · exact keeping_ret () ending
    · show (pace cfg).Follows (.sweeping { pass with ending := [found.id] }) _ (Keeping pass)
      dsimp only
      split
      -- the call has ended already, and is left alone
      · exact ⟨_, rfl⟩
      · refine keeping_bind (keeping_call (List.mem_singleton_self found.id)
          fun r => by cases r <;> rfl) fun cancelled ending => ?_
        split
        · exact ⟨ending, rfl⟩
        · exact (pace_releases (performs_recoverBorrower _)).mono fun s r hs => ⟨ending, hs⟩

/-- `transition_agent` as recovery uses it. The check of the transition tables performs nothing; the
update may log an agent out only in a pass that has found one silent. -/
theorem keeping_transitionAgent {agentId : DocId} {s t : AgentState} {version : Nat}
    (ending : List DocId) (hsilent : t = .OFFLINE → pass.silent = true) :
    (pace cfg).Follows (.sweeping { pass with ending })
      (transitionAgent agentId s t .RECOVERY version) (Keeping pass) := by
  unfold transitionAgent validateTransition
  refine keeping_bind ?_ fun _ ending => ?_
  · split
    · exact ⟨ending, rfl⟩
    · split <;> exact ⟨ending, rfl⟩
  · refine keeping_call ?_ fun r => by cases r <;> rfl
    cases t with
    | OFFLINE => exact hsilent rfl
    | _ => trivial

/-- Some pass at this instant. -/
def AtInstant {α : Type} (now : Time) : Pace → Except Exn α → Prop :=
  fun s _ => ∃ pass : Pass, s = .sweeping pass ∧ pass.now = some now

theorem Keeping.atInstant {α : Type} {s : Pace} {r : Except Exn α} (h : Keeping pass s r)
    (hnow : pass.now = some now) : AtInstant now s r := by
  obtain ⟨ending, rfl⟩ := h
  exact ⟨_, rfl, hnow⟩

/-- A sweep that starts with a query and goes through what it answers. Where the query fails the
sweep is over before it has begun, and the pass is as it was. -/
theorem atInstant_query {β : Type} {o : Op} {f : Res o → Py β} (hit : Res o → Pass)
    (hemits : Pace.EmitsSweeping cfg.settings pass o)
    (herror : ∀ e, Pace.nextSweeping pass o (.error e) = .sweeping pass)
    (hok : ∀ a, Pace.nextSweeping pass o (.ok a) = .sweeping (hit a))
    (hnow : pass.now = some now) (hhit : ∀ a, (hit a).now = some now)
    (hf : ∀ a, (pace cfg).Follows (.sweeping (hit a)) (f a) (Keeping (hit a))) :
    (pace cfg).Follows (.sweeping pass) ((call o).bind f) (AtInstant now) := by
  rw [follows_bind]
  refine pace_call.mpr ⟨hemits, fun r => ?_⟩
  cases r with
  | error e => exact ⟨pass, herror e, hnow⟩
  | ok a =>
    have hthis : Pace.next (.sweeping pass) o (.ok a) = .sweeping (hit a) := hok a
    rw [hthis]
    exact (hf a).mono fun s r hr => hr.atInstant (hhit a)

theorem mem_boundCalls {agents : List Agent} {agent : Agent} (h : agent ∈ agents) :
    ∀ c ∈ agent.currentCallId, c ∈ Pace.boundCalls agents :=
  fun _ hc => List.mem_filterMap.mpr ⟨agent, h, hc⟩

/-- The first sweep. Each candidate's call is read and cancelled, and his lease is released at the
instant of the pass. -/
theorem pace_sweepExpiredAgentLeases (hnow : pass.now = some now) (limit : Int) :
    (pace cfg).Follows (.sweeping pass) (RecoveryWorker.sweepExpiredAgentLeases cfg now limit)
      (AtInstant now) := by
  have hloop : ∀ (agents : List Agent) (n : Nat) (pass : Pass) (ending : List DocId),
      pass.now = some now → (∀ agent ∈ agents, ∀ c ∈ agent.currentCallId, c ∈ pass.bound) →
      (pace cfg).Follows (.sweeping { pass with ending })
        (RecoveryWorker.sweepExpiredAgentLeasesLoop cfg now agents n) (Keeping pass) := by
    -- on the candidates: whatever the cancellation of one has read, the bound calls of the rest are
    -- still those of the query
    intro agents
    induction agents with
    | nil => exact fun n pass ending _ _ => keeping_ret n ending
    | cons agent agents ih =>
      intro n pass ending hnow hbound
      refine keeping_bind (keeping_cancelBoundCall _ ending (hbound agent List.mem_cons_self))
        fun _ ending => ?_
      refine keeping_bind (keeping_call hnow fun r => by cases r <;> rfl) fun released ending => ?_
      exact ih _ pass ending hnow fun a ha => hbound a (List.mem_cons_of_mem _ ha)
  unfold RecoveryWorker.sweepExpiredAgentLeases
  exact atInstant_query (fun agents => { pass with bound := Pace.boundCalls agents, ending := [] })
    hnow (fun _ => rfl) (fun _ => rfl) hnow (fun _ => hnow)
    fun agents => hloop agents 0 { pass with bound := Pace.boundCalls agents } [] hnow
      fun agent hagent => mem_boundCalls hagent

/-- The second sweep reads no calls. -/
theorem pace_sweepExpiredBorrowerLeases (hnow : pass.now = some now) (limit : Int) :
    (pace cfg).Follows (.sweeping pass) (RecoveryWorker.sweepExpiredBorrowerLeases now limit)
      (AtInstant now) := by
  have hloop : ∀ (borrowers : List Borrower) (n : Nat) (ending : List DocId),
      (pace cfg).Follows (.sweeping { pass with ending })
        (RecoveryWorker.reclaimLoop now borrowers n) (Keeping pass) := by
    intro borrowers
    induction borrowers with
    | nil => exact fun n ending => keeping_ret n ending
    | cons borrower borrowers ih =>
      intro n ending
      exact keeping_bind (keeping_call hnow fun r => by cases r <;> rfl)
        fun document ending => ih _ ending
  unfold RecoveryWorker.sweepExpiredBorrowerLeases
  exact atInstant_query (fun _ => pass) hnow (fun _ => rfl) (fun _ => rfl) hnow (fun _ => hnow)
    fun borrowers => hloop borrowers 0 _

theorem pace_reconcileWithProvider (orphan : Call) :
    (pace cfg).Follows (.sweeping pass) (RecoveryWorker.reconcileWithProvider cfg orphan)
      fun s _ => s = .sweeping pass := by
  have hperforms : (RecoveryWorker.reconcileWithProvider cfg orphan).Performs fun o =>
      ∃ name id, o = .getCallStatus name id := by
    unfold RecoveryWorker.reconcileWithProvider providerRegistryGet
    split
    · exact trivial
    · refine .catching (.bind ?_ fun _ => .bind (Prog.performs_perform.mpr ⟨_, _, rfl⟩)
        fun _ => trivial) fun e => ?_
      · split <;> exact trivial
      · split <;> exact trivial
  refine follows_at_of_performs (M := pace cfg) (s := Pace.sweeping pass) (fun o ho => ?_) hperforms
  obtain ⟨name, id, rfl⟩ := ho
  exact ⟨trivial, fun r => by cases r <;> rfl⟩

/-- The third sweep. What it may end are the answers of its query, all of them at once, and so they
stay to the end of the sweep. -/
theorem pace_sweepOrphanedCalls (hnow : pass.now = some now) (limit : Int) :
    (pace cfg).Follows (.sweeping pass) (RecoveryWorker.sweepOrphanedCalls cfg now limit)
      (AtInstant now) := by
  have hloop : ∀ (orphans : List Call) (n : Nat) (pass : Pass),
      (∀ orphan ∈ orphans, orphan.id ∈ pass.ending) →
      (pace cfg).Follows (.sweeping pass) (RecoveryWorker.sweepOrphanedCallsLoop cfg orphans n)
        fun s _ => s = .sweeping pass := by
    intro orphans
    induction orphans with
    | nil => exact fun n pass _ => rfl
    | cons orphan orphans ih =>
      intro n pass hending
      have hrest := fun n => ih n pass fun o ho => hending o (List.mem_cons_of_mem _ ho)
      unfold RecoveryWorker.sweepOrphanedCallsLoop
      rw [Prog.bind_def, follows_bind]
      refine (pace_reconcileWithProvider orphan).mono fun s r hs => ?_
      subst hs
      cases r with
      | error e => rfl
      | ok targetState =>
        dsimp only
        rw [Prog.bind_def, follows_bind]
        refine pace_call.mpr ⟨hending orphan List.mem_cons_self, fun r => ?_⟩
        -- a call that has moved since the query is passed over
        rcases r with e | (_ | finished)
        · rfl
        · exact hrest n
        · show (pace cfg).Follows (.sweeping pass) _ _
          dsimp only
          rw [Prog.bind_def, follows_bind]
          refine (pace_releases (performs_releaseParties finished)).mono fun s r hs => ?_
          subst hs
          cases r with
          | error e => rfl
          | ok _ => exact hrest (n + 1)
  unfold RecoveryWorker.sweepOrphanedCalls
  refine atInstant_query (fun orphans => { pass with bound := [], ending := orphans.map Call.id })
    ⟨now, hnow, rfl⟩ (fun _ => rfl) (fun _ => rfl) hnow (fun _ => hnow) fun orphans => ?_
  exact (hloop orphans 0 _ fun orphan h => List.mem_map_of_mem h).mono fun s r hs => ⟨_, hs⟩

/-- The fourth sweep, the only one that logs agents out. Whoever goes through a candidate of it has
found one, so the pass knows of a silent agent. -/
theorem pace_sweepHeartbeatTimeouts (hnow : pass.now = some now) (limit : Int) :
    (pace cfg).Follows (.sweeping pass) (RecoveryWorker.sweepHeartbeatTimeouts cfg now limit)
      (AtInstant now) := by
  have hloop : ∀ (agents : List Agent) (n : Nat) (pass : Pass) (ending : List DocId),
      (∀ agent ∈ agents, pass.silent = true ∧ ∀ c ∈ agent.currentCallId, c ∈ pass.bound) →
      (pace cfg).Follows (.sweeping { pass with ending })
        (RecoveryWorker.sweepHeartbeatTimeoutsLoop cfg agents n) (Keeping pass) := by
    intro agents
    induction agents with
    | nil => exact fun n pass ending _ => keeping_ret n ending
    | cons agent agents ih =>
      intro n pass ending hfound
      obtain ⟨hsilent, hbound⟩ := hfound agent List.mem_cons_self
      refine keeping_bind (keeping_cancelBoundCall _ ending hbound) fun _ ending => ?_
      refine keeping_bind (keeping_transitionAgent ending fun _ => hsilent)
        fun updated ending => ?_
      exact ih _ pass ending fun a ha => hfound a (List.mem_cons_of_mem _ ha)
  unfold RecoveryWorker.sweepHeartbeatTimeouts
  refine atInstant_query (fun agents => { pass with
      bound := Pace.boundCalls agents, ending := [], silent := !agents.isEmpty })
    trivial (fun _ => rfl) (fun _ => rfl) hnow (fun _ => hnow) fun agents => ?_
  refine hloop agents 0 { pass with bound := Pace.boundCalls agents, silent := !agents.isEmpty } []
    fun agent hagent => ⟨?_, mem_boundCalls hagent⟩
  cases agents with
  | nil => cases hagent
  | cons => rfl

theorem pace_sweepStuckWrapUps (hnow : pass.now = some now) (limit : Int) :
    (pace cfg).Follows (.sweeping pass) (RecoveryWorker.sweepStuckWrapUps cfg now limit)
      (AtInstant now) := by
  have hloop : ∀ (agents : List Agent) (n : Nat) (ending : List DocId),
      (pace cfg).Follows (.sweeping { pass with ending })
        (RecoveryWorker.sweepStuckWrapUpsLoop agents n) (Keeping pass) := by
    intro agents
    induction agents with
    | nil => exact fun n ending => keeping_ret n ending
    | cons agent agents ih =>
      intro n ending
      exact keeping_bind (keeping_transitionAgent ending nofun) fun updated ending => ih _ ending
  unfold RecoveryWorker.sweepStuckWrapUps
  exact atInstant_query (fun _ => pass) trivial (fun _ => rfl) (fun _ => rfl) hnow
    (fun _ => hnow) fun agents => hloop agents 0 _

/-- The loop over the sweeps. An exception of one sweep is logged and the next sweep starts from
wherever the pass was left; only what is no `Exception` ends the pass. -/
theorem pace_runSweepsLoop (sweeps : List (SweepName × Py Nat))
    (hsweeps : ∀ entry ∈ sweeps, ∀ pass : Pass, pass.now = some now →
      (pace cfg).Follows (.sweeping pass) entry.2 (AtInstant now))
    (pass : Pass) (hnow : pass.now = some now) (counts : RecoverySweepCounts) :
    (pace cfg).Follows (.sweeping pass) (RecoveryWorker.runSweepsLoop sweeps counts)
      (AtInstant now) := by
  -- on the sweeps that are left, for any pass at this instant
  induction sweeps generalizing pass counts with
  | nil => exact ⟨pass, rfl, hnow⟩
  | cons entry rest ih =>
    have hrest : ∀ {pass : Pass}, pass.now = some now → ∀ counts,
        (pace cfg).Follows (.sweeping pass) (RecoveryWorker.runSweepsLoop rest counts)
          (AtInstant now) := fun hnow counts =>
      ih (fun entry h => hsweeps entry (List.mem_cons_of_mem _ h)) _ hnow counts
    unfold RecoveryWorker.runSweepsLoop
    rw [Prog.bind_def, follows_bind, follows_catching, Prog.bind_def, follows_bind]
    refine (hsweeps entry List.mem_cons_self pass hnow).mono fun s r hr => ?_
    obtain ⟨pass', rfl, hnow'⟩ := hr
    cases r with
    | ok n => exact hrest hnow' _
    | error e =>
      dsimp only
      split
      · exact hrest hnow' _
      · exact ⟨pass', rfl, hnow'⟩

/-- A whole pass: the clock first, then the five sweeps at the instant that it answers. -/
theorem pace_runSweeps :
    (pace cfg).Follows (.sweeping pass) (RecoveryWorker.runSweeps cfg) fun _ _ => True := by
  unfold RecoveryWorker.runSweeps RecoveryWorker.sweeps
  rw [Prog.bind_def, follows_bind]
  refine pace_call.mpr ⟨trivial, fun r => ?_⟩
  cases r with
  | error e => trivial
  | ok now =>
    have hsweeps : ∀ entry ∈ RecoveryWorker.sweeps cfg now cfg.settings.RECOVERY_SWEEP_LIMIT,
        ∀ pass : Pass, pass.now = some now →
        (pace cfg).Follows (.sweeping pass) entry.2 (AtInstant now) := by
      intro entry hentry pass hnow
      unfold RecoveryWorker.sweeps at hentry
      simp only [List.mem_cons, List.not_mem_nil, or_false] at hentry
      rcases hentry with rfl | rfl | rfl | rfl | rfl
      · exact pace_sweepExpiredAgentLeases hnow _
      · exact pace_sweepExpiredBorrowerLeases hnow _
      · exact pace_sweepOrphanedCalls hnow _
      · exact pace_sweepHeartbeatTimeouts hnow _
      · exact pace_sweepStuckWrapUps hnow _
    exact (pace_runSweepsLoop _ hsweeps { pass with now := some now } rfl _).mono
      fun _ _ _ => trivial

end Sweeps

/-- **Every job keeps to its pace.** Allocators by the operations they perform, a pass by following
its sweeps, and the others since they reserve nothing. -/
theorem pace_conforms (cfg : Config) : (pace cfg).Conforms fun _ _ _ => True := by
  intro job
  cases job with
  | allocate campaign approved workerId =>
    show (pace cfg).Follows (.allocating none false)
      ((CallAllocator.allocate cfg campaign approved workerId).bind fun result =>
        Prog.ret (Outcome.allocation result)) fun _ _ => True
    rw [follows_bind]
    refine (pace_allocating (s := .allocating none false) (performs_allocateLoop _ _ _) trivial).mono
      fun s r _ => ?_
    cases r <;> trivial
  | runSweeps =>
    show (pace cfg).Follows (.sweeping {}) ((RecoveryWorker.runSweeps cfg).bind fun counts =>
      Prog.ret (Outcome.sweeps counts)) fun _ _ => True
    rw [follows_bind]
    refine pace_runSweeps.mono fun s r _ => ?_
    cases r <;> trivial
  | processEvent event => exact pace_other (.processEvent event) rfl
  | agentAction agentId action => exact pace_other (.agentAction agentId action) rfl
  | releaseFinishedWrapUps campaign => exact pace_other (.releaseFinishedWrapUps campaign) rfl

theorem pacing_conforms (cfg : Config) :
    (pacing cfg).Conforms fun job t r => Finished job t.1 r ∧ True :=
  system_conforms.both (pace_conforms cfg)

end Follows

end SmartDialer
