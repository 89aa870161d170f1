import SmartDialer.Calls.Ringing

/-!
# Whose call is dialled

A finished call gives back the agent and the borrower that its `created_by_worker` holds. But
`create_call` answers the call that has its key, whoever created it, and `_dial` takes on whatever
is still queued. As long as a queued call that is answered in this way is the worker's own, the
call a worker hands to the provider carries his name and is released by its own events.

The invariant is `Stage.InName`: what a thread has in hand was reserved by itself for its worker,
and the call it is about to dial carries this worker's name. Calls never change their creator, so
nobody else can break it, and the thread itself could do so at one place only, where it takes on a
call that was there before.

* `Stage.InName.next`: one operation of the thread keeps it, if the regime does.
* `dialled_call_releasable`: the call that is handed to the provider is the worker's, and can be
  released by its name for ever after.
* `inherited_call_unreleased`: without the condition on queued calls it need not be.
-/

namespace SmartDialer

open DocStore Concurrent

/-! ## What the claim talks about

"About to be dialled" is read off the program of a thread: its next operation is `originate_call`.
That the thread has reserved somebody is read off the trace, by the answers it has been given. -/

/-- The call that thread `p` is about to hand to the provider. -/
def invokedCall (w : SystemWorld) (p : Nat) : Option DocId :=
  match w.threads p with
  | some t =>
    match t.prog with
    | .op (.originateCall _ request) _ => some request.callId
    | _ => none
  | none => none

/-- The worker an allocation is started for. -/
def Job.worker : Job → Option WorkerId
  | .allocate _ _ workerId => some workerId
  | _ => none

/-- The worker for whom thread `p` was started, if it was started to allocate. -/
def workerOf (w : SystemWorld) (p : Nat) : Option WorkerId :=
  (w.threads p).bind fun t => t.job.worker

/-- Thread `p` has reserved agent `a` for the worker. -/
def ReservesAgent (p : Nat) (workerId : WorkerId) (a : DocId) (e : Entry Op Res Exn Env) : Prop :=
  e.pid = p ∧ ∃ campaignId ttl agent, (⟨e.op, e.resp⟩ : Σ o, Except Exn (Res o))
    = ⟨.tryReserveAgent campaignId a workerId ttl, .ok (some agent)⟩

/-- Thread `p` has reserved borrower `b` for the worker. -/
def ReservesBorrower (p : Nat) (workerId : WorkerId) (b : DocId) (e : Entry Op Res Exn Env) :
    Prop :=
  e.pid = p ∧ ∃ campaignId ttl borrower, (⟨e.op, e.resp⟩ : Σ o, Except Exn (Res o))
    = ⟨.tryReserveBorrower campaignId b workerId ttl, .ok (some borrower)⟩

/-- The call is there, and names the worker as its creator. -/
def Call.CreatedBy (calls : Calls) (c : DocId) (workerId : WorkerId) : Prop :=
  ∃ d, calls.get? c = some d ∧ d.createdByWorker = workerId

/-- The two releases that the event processor makes on behalf of the call find the agent and the
borrower, if the worker holds them. -/
structure Call.Releasable (σ : Store) (d : Call) (workerId : WorkerId) : Prop where
  agent : ∀ g, σ.agents.get? d.agentId = some g → g.reservedBy = some workerId →
    ∀ now t, g.state ∈ AgentSm.allowedSources t .EVENT_PROCESSOR →
      (AgentRepo.releaseAgent now d.agentId d.createdByWorker t .EVENT_PROCESSOR σ.agents).1 ≠ none
  borrower : ∀ g, σ.borrowers.get? d.borrowerId = some g → g.reservedBy = some workerId →
    g.status ∈ BorrowerRepo.releasableStatuses → ∀ now outcome maxAttempts backoffBaseSeconds,
      (BorrowerRepo.releaseBorrower now d.borrowerId d.createdByWorker outcome maxAttempts
        backoffBaseSeconds σ.borrowers).1 ≠ none

/-- The filters of both releases go by the creator of the call, so whoever is held for him is
found. -/
theorem Call.Releasable.of_created {σ : Store} {d : Call} {workerId : WorkerId}
    (h : d.createdByWorker = workerId) : d.Releasable σ workerId := by
  -- the creator is the worker from here on, and each update finds its document or there is none to
  -- find
  subst h
  constructor
  · intro g hg hworker now t hstate hnone
    rcases Collection.findOneAndUpdate_cases σ.agents d.agentId
        (fun g => g.reservedBy = some d.createdByWorker
          ∧ g.state ∈ AgentSm.allowedSources t .EVENT_PROCESSOR)
        (AgentRepo.releaseUpdate now t .EVENT_PROCESSOR)
        (fun g => AgentRepo.conditionalAccounting_id _ now g)
      with ⟨g', -, -, hans, -⟩ | ⟨hmiss, -⟩
    · cases hnone.symm.trans hans
    · exact hmiss g hg ⟨hworker, hstate⟩
  · intro g hg hworker hstatus now outcome maxAttempts backoffBaseSeconds hnone
    rcases Collection.findOneAndUpdate_cases σ.borrowers d.borrowerId
        (fun g => g.reservedBy = some d.createdByWorker
          ∧ g.status ∈ BorrowerRepo.releasableStatuses)
        (BorrowerRepo.releaseUpdate now outcome maxAttempts backoffBaseSeconds)
        (fun _ => by cases outcome <;> rfl)
      with ⟨g', -, -, hans, -⟩ | ⟨hmiss, -⟩
    · cases hnone.symm.trans hans
    · exact hmiss g hg ⟨hworker, hstatus⟩

/-- Where `create_call` reads back the call that has its key, that call is the worker's own if it
is still queued. -/
def ownQueued : SystemRegime where
  admits := fun _ => True
  guard := fun σ live p o _ => ∀ campaign pair key, live p = .pairClaimed campaign pair →
    o = .findCallByIdempotencyKey key → ∀ c d, σ.calls.get? c = some d → d.idempotencyKey = key →
      d.state = .QUEUED → d.createdByWorker = pair.workerId

/-- The worker for whom a thread dials is the one the job was started for. -/
theorem job_worker_of_dialer {cfg : Config} {R : SystemRegime} {σ₀ : Store} {w : SystemWorld}
    (h : Reachable (system cfg) R (World.fresh σ₀) w) {p : Nat}
    {t : Thread Job Op Res Exn Outcome Stage} (ht : w.threads p = some t) {workerId : WorkerId}
    (hworker : workerId ∈ t.stage.dialer) : t.job.worker = some workerId := by
  refine h.threads (P := fun job s => ∀ workerId ∈ s.dialer, job.worker = some workerId)
    ?_ ?_ ?_ p t ht _ hworker
  · intro job workerId hjob
    cases job with
    | allocate campaign approved workerId' => exact hjob
    | processEvent | runSweeps | agentAction | releaseFinishedWrapUps => cases hjob
  · exact fun job s o r hjob workerId hnext => hjob workerId (dialer_next s o r workerId hnext).symm
  · exact fun p t ht => by cases ht

/-! ## What a thread has in hand is in its worker's name

One case for each stage of an allocation. Up to the pair only the reservations count; from
`create_call` to the originate also the call does. Stages of other jobs have nothing in hand. -/

/-- Thread `p` has reserved both of the pair for its worker. -/
structure Took (tr : Trace) (p : Nat) (pair : ReservationPair) : Prop where
  agent : ∃ e ∈ tr, ReservesAgent p pair.workerId pair.agent.id e
  borrower : ∃ e ∈ tr, ReservesBorrower p pair.workerId pair.borrower.id e

/-- What the stage of thread `p` says is in its worker's name: the agent it has claimed, the pair,
and the call that it has created or taken on. -/
def Stage.InName (σ : Store) (tr : Trace) (p : Nat) : Stage → Prop
  | .agentClaimed _ workerId agent => ∃ e ∈ tr, ReservesAgent p workerId agent.id e
  | .pairClaimed _ pair | .callOriginated _ pair _ => Took tr p pair
  | .callQueued _ pair c | .callInitiated _ pair c =>
    Took tr p pair ∧ Call.CreatedBy σ.calls c pair.workerId
  | _ => True

theorem Took.append {tr : Trace} {p : Nat} {pair : ReservationPair} (h : Took tr p pair)
    (e : Entry Op Res Exn Env) : Took (tr ++ [e]) p pair := by
  obtain ⟨⟨e₁, h₁, hagent⟩, e₂, h₂, hborrower⟩ := h
  exact ⟨⟨e₁, List.mem_append_left _ h₁, hagent⟩, e₂, List.mem_append_left _ h₂, hborrower⟩

theorem Call.CreatedBy.evolves {calls calls' : Calls} {c : DocId} {workerId : WorkerId}
    (h : Call.CreatedBy calls c workerId) (hev : CallsEvolve calls calls') :
    Call.CreatedBy calls' c workerId := by
  obtain ⟨d, hd, hworker⟩ := h
  obtain ⟨d', hd', hdd'⟩ := hev c d hd
  exact ⟨d', hd', hdd'.createdByWorker.trans hworker⟩

section Step

variable {σ : Store} {tr : Trace} {p : Nat} {s : Stage} {o : Op} {env : Env}

/-- What is in a worker's name stays there, whoever does what. -/
theorem Stage.InName.after_exec (h : s.InName σ tr p) (o : Op) (env : Env)
    (e : Entry Op Res Exn Env) : s.InName (exec env o σ).2 (tr ++ [e]) p := by
  cases s with
  | agentClaimed campaign workerId agent =>
    obtain ⟨e', he', hagent⟩ := h
    exact ⟨e', List.mem_append_left _ he', hagent⟩
  | pairClaimed campaign pair => exact Took.append h e
  | callOriginated campaign pair c => exact Took.append h e
  | callQueued campaign pair c | callInitiated campaign pair c =>
    exact ⟨h.1.append e, h.2.evolves (exec_evolves env o σ)⟩
  | _ => trivial

theorem Stage.inName_struck (pair : ReservationPair) (e : Exn) : (pair.struck e).InName σ tr p := by
  cases e <;> trivial

theorem Stage.inName_of_not_allocates (hs : s.allocates = false) : s.InName σ tr p := by
  cases s with
  | allocating | agentClaimed | pairClaimed | callQueued | callInitiated | callOriginated
  | agentReturned | compensating => cases hs
  | _ => trivial

/-- The call that `create_call` answers is taken on in the worker's name. `_dial` goes on with
it only if it is still queued; otherwise the pair is given back and the call is no longer the
thread's. -/
theorem Stage.inName_taken {campaign : Campaign} {pair : ReservationPair} {created : Call}
    (htook : Took tr p pair)
    (hcreated : created.state = .QUEUED → Call.CreatedBy σ.calls created.id pair.workerId) :
    (nextPairClaimed.taken campaign pair created).InName σ tr p := by
  unfold nextPairClaimed.taken
  split
  · next hqueued => exact ⟨htook, hcreated hqueued⟩
  · exact htook

/-- **The one step at which a call comes into a thread's hands.** An inserted call is created in the
worker's name by `callDraft`. A call that is read back by its key may be anybody's, and here the
regime is needed. -/
theorem Stage.inName_pairClaimed {campaign : Campaign} {pair : ReservationPair}
    (h : (Stage.pairClaimed campaign pair).InName σ tr p) (hemits : Emits (.pairClaimed campaign pair) o)
    (hown : ∀ key, o = .findCallByIdempotencyKey key → ∀ c d, σ.calls.get? c = some d →
      d.idempotencyKey = key → d.state = .QUEUED → d.createdByWorker = pair.workerId) :
    (nextPairClaimed campaign pair o (exec env o σ).1).InName (exec env o σ).2
      (tr ++ [⟨p, o, env, (exec env o σ).1⟩]) p := by
  have htook : Took (tr ++ [⟨p, o, env, (exec env o σ).1⟩]) p pair := Took.append h _
  cases hemits with
  -- a duplicate key leads to the read-back below, any other exception out of the dial
  | createCall =>
    rcases hr : (exec env (.insertCall (CallAllocator.callDraft campaign pair)) σ).1 with e | created
    · rw [hr] at htook
      cases e with
      | duplicateKey => exact htook
      | _ => trivial
    · rw [hr] at htook
      refine inName_taken htook fun _ => ?_
      obtain ⟨hdoc, -, hget⟩ := insertCall_ok hr
      exact ⟨created, hget, by rw [hdoc]; rfl⟩
  -- the branch the regime is about: the call with the key was inserted by an earlier dial
  | findExisting =>
    rcases hr : (exec env (.findCallByIdempotencyKey
      (CallAllocator.callDraft campaign pair).idempotencyKey) σ).1 with e | (_ | existing)
    · exact inName_struck pair e
    · rw [hr] at htook
      exact htook
    · rw [hr] at htook
      refine inName_taken htook fun hqueued => ?_
      have hexec := exec_of_ok hr
      rw [hexec] at hr ⊢
      obtain ⟨d, hd, hkey, rfl⟩ := CallRepo.findByIdempotencyKey_eq_some (Except.ok.inj hr)
      exact ⟨d, hd, hown _ rfl d.id d hd hkey hqueued⟩
  -- the retry gate reads the clock and the provider's health, and takes nothing in hand
  | retryClock | retryGate =>
    rcases hr : (exec env _ σ).1 with e | r
    · exact inName_struck pair e
    · rw [hr] at htook
      exact htook
  | returnAgent =>
    rcases (exec env _ σ).1 with e | r
    · exact inName_struck pair e
    · trivial

/-- **One step**: what the stage of a thread says is in its worker's name is. Almost every step
keeps the call in hand or drops it. A call comes into hand by an insertion, which writes the
worker's own name, or by the lookup of the key, which is what the hypothesis is about. -/
theorem Stage.InName.next (h : s.InName σ tr p) (hemits : Emits s o)
    (hown : ∀ campaign pair key, s = .pairClaimed campaign pair →
      o = .findCallByIdempotencyKey key → ∀ c d, σ.calls.get? c = some d → d.idempotencyKey = key →
        d.state = .QUEUED → d.createdByWorker = pair.workerId) :
    (s.next o (exec env o σ).1).InName (exec env o σ).2
      (tr ++ [⟨p, o, env, (exec env o σ).1⟩]) p := by
  have hkept := h.after_exec o env ⟨p, o, env, (exec env o σ).1⟩
  cases s with
  -- an answered reservation is the entry that has just joined the trace
  | allocating campaign workerId =>
    show (nextAllocating campaign workerId o (exec env o σ).1).InName _ _ _
    cases hemits with
    | claimableAgents => trivial
    | reserveAgent a ttl =>
      rcases hr : (exec env (.tryReserveAgent campaign.id a workerId ttl) σ).1 with e | (_ | agent)
      · trivial
      · trivial
      · obtain ⟨hid, -⟩ := reserveAgent_ok hr
        refine ⟨_, List.mem_append_right _ (List.mem_singleton_self _), rfl, campaign.id, ttl, agent, ?_⟩
        rw [hid]
  | agentClaimed campaign workerId agent =>
    show (nextAgentClaimed campaign workerId agent o (exec env o σ).1).InName _ _ _
    cases hemits with
    | claimableBorrowers => exact hkept
    | returnLoneAgent => trivial
    | reserveBorrower b ttl =>
      rcases hr : (exec env (.tryReserveBorrower campaign.id b workerId ttl) σ).1
        with e | (_ | borrower)
      · rw [hr] at hkept
        exact hkept
      · rw [hr] at hkept
        exact hkept
      · rw [hr] at hkept
        obtain ⟨hid, -⟩ := reserveBorrower_ok hr
        refine ⟨hkept, _, List.mem_append_right _ (List.mem_singleton_self _), rfl, campaign.id, ttl,
          borrower, ?_⟩
        rw [hid]
  -- the call comes in
  | pairClaimed campaign pair =>
    exact inName_pairClaimed h hemits fun key => hown campaign pair key rfl
  -- from here on the thread only moves its call or lets go of it
  | callQueued campaign pair c =>
    show (nextCallQueued campaign pair c o (exec env o σ).1).InName _ _ _
    unfold nextCallQueued
    split
    · exact hkept
    · exact hkept.1
    · exact hkept
    · exact inName_struck pair _
  | callInitiated campaign pair c =>
    show (nextCallInitiated campaign pair c o (exec env o σ).1).InName _ _ _
    unfold nextCallInitiated
    split
    · exact hkept.1
    · exact hkept
    · exact inName_struck pair _
  | callOriginated campaign pair c =>
    show (nextCallOriginated campaign pair c o (exec env o σ).1).InName _ _ _
    unfold nextCallOriginated
    split
    · trivial
    · exact hkept
    · trivial
    · exact hkept
    · trivial
    · exact hkept
    · exact hkept
    · exact inName_struck pair _
  | agentReturned campaign pair =>
    show (nextAgentReturned campaign pair o (exec env o σ).1).InName _ _ _
    unfold nextAgentReturned
    split
    · trivial
    · exact inName_struck pair _
  | compensating pair => trivial
  | idle | eventReceived | eventRecorded | eventMatched | eventApplied | eventAgentReturned
  | eventClosing | eventDuplicate | eventFailed | sweeping | acting | wrapping =>
    exact inName_of_not_allocates (allocates_next rfl o _)

end Step

/-- The invariant of a run: facts about calls, and every thread's hand in its worker's name. The
thread that acts uses the regime, the others keep what they have. -/
theorem inName_preserves (cfg : Config) :
    (system cfg).Preserves ownQueued fun σ tr st =>
      CallFacts σ st ∧ ∀ p, (st p).InName σ tr p where
  spawn := by
    intro σ tr st p job h _ _
    refine ⟨h.1.set p (CallFacts.knows_start _ job), fun q => ?_⟩
    by_cases hq : q = p
    · rw [hq, Function.update_self]
      cases job <;> trivial
    · rw [Function.update_of_ne hq]
      exact h.2 q
  op := by
    intro σ tr st live p o env h hemits hlive hguard
    refine ⟨h.1.op p env hemits, fun q => ?_⟩
    -- the thread that acts, and all the others
    by_cases hq : q = p
    · rw [hq, Function.update_self]
      refine (h.2 p).next hemits fun campaign pair key hs => ?_
      exact hguard campaign pair key (hlive.trans hs)
    · rw [Function.update_of_ne hq]
      exact (h.2 q).after_exec o env _

/-! ## Every run

The invariant at a thread whose next operation is `originate_call`, and the monotonicity of calls
from there on. -/

theorem invokedCall_eq_some {w : SystemWorld} {p : Nat} {c : DocId} (h : invokedCall w p = some c) :
    ∃ t name request k, w.threads p = some t ∧ t.prog = .op (.originateCall name request) k
      ∧ request.callId = c := by
  unfold invokedCall at h
  cases ht : w.threads p with
  | none =>
    rw [ht] at h
    cases h
  | some t =>
    simp only [ht] at h
    split at h
    · next name request k hprog => exact ⟨t, name, request, k, rfl, hprog, Option.some.inj h⟩
    · cases h

/-- Calls evolve along any run, however long: only the operations of threads touch them. -/
theorem callsEvolve_of_reachable {cfg : Config} {R : SystemRegime} {w w' : SystemWorld}
    (h : Reachable (system cfg) R w w') : CallsEvolve w.store.calls w'.store.calls := by
  -- on the run; an action that is no operation leaves the store alone
  induction h with
  | refl => exact .refl _
  | @step v a _ _ ih =>
    rcases v.act_cases (M := system cfg) a with heq | ⟨p, job, -, -, heq⟩ | ⟨p, t, -, -, heq⟩
      | ⟨p, env, t, o, k, -, -, -, -, heq⟩
    · rw [heq]
      exact ih
    · rw [heq]
      exact ih
    · rw [heq]
      exact ih
    · rw [heq]
      exact ih.trans (exec_evolves env o v.store)

/-- **A dialled call is released by its own events.** Whenever a worker's thread hands a call to the
provider, the call is his, it is about the agent and the borrower that the thread has reserved for
him, and from then on, whatever happens, the releases that go by `created_by_worker` find what he
holds. -/
theorem dialled_call_releasable {cfg : Config} {σ₀ : Store} {w : SystemWorld}
    (h₀ : CallsSound σ₀.calls) (h : Reachable (system cfg) ownQueued (World.fresh σ₀) w) {p : Nat}
    {c : DocId} (hinvoked : invokedCall w p = some c) :
    ∃ workerId d, workerOf w p = some workerId
      ∧ w.store.calls.get? c = some d ∧ d.createdByWorker = workerId
      ∧ (∃ e ∈ w.trace, ReservesAgent p workerId d.agentId e)
      ∧ (∃ e ∈ w.trace, ReservesBorrower p workerId d.borrowerId e)
      ∧ ∀ w', Reachable (system cfg) SystemRegime.anything w w' →
        ∃ d', w'.store.calls.get? c = some d' ∧ d'.Releasable w'.store workerId := by
  obtain ⟨t, name, request, k, ht, hprog, hc⟩ := invokedCall_eq_some hinvoked
  obtain ⟨hfacts, hname⟩ := h.invariant system_conforms (inName_preserves cfg)
    (World.Obeys.fresh _ σ₀) ⟨⟨h₀, fun _ => trivial⟩, fun _ => trivial⟩
  have hemits : Emits t.stage (.originateCall name request) := by
    have hfollows := (h.obeys system_conforms (World.Obeys.fresh _ σ₀)).follows p t ht
    rw [hprog] at hfollows
    exact hfollows.1
  have hstage : ∃ campaign pair, t.stage = .callInitiated campaign pair c := by
    generalize t.stage = s at hemits
    cases hemits with
    | originate _ _ hid => exact ⟨_, _, by rw [← hc, hid]⟩
  obtain ⟨campaign, pair, hstage⟩ := hstage
  have hlast : w.lastStage (system cfg) p = .callInitiated campaign pair c :=
    (World.lastStage_eq ht).trans hstage
  -- the stage names the worker of the job, the pair it took and the call it created
  have hworker : pair.workerId ∈ t.stage.dialer := by
    rw [hstage]
    rfl
  have hjob : workerOf w p = some pair.workerId := by
    unfold workerOf
    rw [ht]
    exact job_worker_of_dialer h ht hworker
  have hthis := hname p
  rw [hlast] at hthis
  obtain ⟨htook, d, hd, hcreated⟩ := hthis
  have hknows := hfacts.knows p
  rw [hlast] at hknows
  obtain ⟨d', hd', hfor, -⟩ := hknows
  obtain rfl : d = d' := Option.some.inj (hd.symm.trans hd')
  refine ⟨pair.workerId, d, hjob, hd, hcreated, ?_, ?_, fun w' hw' => ?_⟩
  · rw [hfor.agentId]
    exact htook.agent
  · rw [hfor.borrowerId]
    exact htook.borrower
  · obtain ⟨d', hd', hev⟩ := callsEvolve_of_reachable hw' c d hd
    exact ⟨d', hd', .of_created (hev.createdByWorker.trans hcreated)⟩

/-! The theorem at a worker who is restarted and finds the call that he created himself before he
died, and the same dial by another worker. -/

/-- Worker `w` dies right after `create_call`, its leases run out, and a worker reserves the same
pair for the same attempt. -/
def inheritedActions (workerId : WorkerId) : List (Action Job Env) :=
  .spawn 0 (.allocate demoCampaign 1 "w") :: List.replicate 5 (.perform 0 demoEnv)
    ++ [.crash 0, .spawn 1 .runSweeps] ++ List.replicate 8 (.perform 1 { demoEnv with now := 31000 })
    ++ [.spawn 2 (.allocate demoCampaign 1 workerId)]
    ++ List.replicate 10 (.perform 2 { demoEnv with now := 32000 })

def readBack : SystemWorld := (World.fresh demoStore).acts (system {}) (inheritedActions "w")

/-- Who has a pair in hand finds no queued call but his worker's own. -/
def findsOwn (w : SystemWorld) : Action Job Env → Bool
  | .perform p _ => match w.stageOf (system {}) p with
    | .pairClaimed _ pair => w.store.calls.coll.docs.all fun d =>
      d.state ≠ .QUEUED || d.createdByWorker = pair.workerId
    | _ => true
  | _ => true

theorem readBack_reachable :
    Reachable (system {}) ownQueued (World.fresh demoStore) readBack := by
  refine Reachable.of_checked findsOwn (fun w a hok => ?_) .refl (by decide +kernel)
  cases a with
  | spawn p job => trivial
  | crash p => trivial
  | perform p env =>
    intro t o k _ _ _ campaign pair key hlive _ c d hd _ hqueued
    unfold findsOwn at hok
    simp only [hlive, List.all_eq_true] at hok
    have hown := (Bool.or_eq_true _ _).mp (hok d (Collection.mem_of_get? hd))
    exact of_decide_eq_true (hown.resolve_left fun h => of_decide_eq_true h hqueued)

theorem dialled_call_releasable_demo : ∃ d, readBack.store.calls.get? demoEnv.newId = some d
    ∧ d.createdByWorker = "w" := by
  have hworker : workerOf readBack 2 = some "w" := by decide +kernel
  obtain ⟨workerId, d, hthis, hd, hcreated, -⟩ :=
    dialled_call_releasable demoStore_sound readBack_reachable
      (show invokedCall readBack 2 = some demoEnv.newId by decide +kernel)
  cases hworker.symm.trans hthis
  exact ⟨d, hd, hcreated⟩

/-- The call that is dialled is the one that was found by its key. -/
example : readBack.trace.any (fun e => match e.op with
    | .findCallByIdempotencyKey _ => e.pid = 2
    | _ => false) = true
    ∧ readBack.store.calls.coll.docs.length = 1 := by decide +kernel

def inherited : SystemWorld := (World.fresh demoStore).acts (system {}) (inheritedActions "v")

theorem inherited_reachable :
    Reachable (system {}) SystemRegime.anything (World.fresh demoStore) inherited :=
  Reachable.of_acts _ _ (fun _ _ _ => trivial) fun _ _ _ _ => trivial

/-- The second worker is about to dial the call of the first; the releases that go by
`created_by_worker` then find neither the agent nor the borrower, although the second holds both. -/
theorem inherited_call_unreleased : ¬ ∀ (cfg : Config) (σ₀ : Store) (w : SystemWorld),
    CallsSound σ₀.calls → Reachable (system cfg) SystemRegime.anything (World.fresh σ₀) w →
    ∀ p c, invokedCall w p = some c → ∃ workerId d, workerOf w p = some workerId
      ∧ w.store.calls.get? c = some d ∧ d.createdByWorker = workerId ∧ d.Releasable w.store workerId := by
  intro hclaim
  obtain ⟨workerId, d, hworker, hd, hcreated, -⟩ := hclaim {} demoStore inherited demoStore_sound
    inherited_reachable 2 demoEnv.newId (by decide +kernel)
  have hother : workerOf inherited 2 = some "v" := by decide +kernel
  have hcreator : ∀ d ∈ inherited.store.calls.get? demoEnv.newId, d.createdByWorker = "w" := by
    decide +kernel
  cases hother.symm.trans hworker
  exact absurd ((hcreator d hd).symm.trans hcreated) (by decide)

/-- Nor do the releases match. -/
example : (AgentRepo.releaseAgent 33000 demoAgent.id "w" .AVAILABLE .EVENT_PROCESSOR
      inherited.store.agents).1 = none
    ∧ (inherited.store.agents.get? demoAgent.id).map (fun g => (g.state, g.reservedBy))
      = some (.DIALING, some "v") := by decide +kernel

end SmartDialer
