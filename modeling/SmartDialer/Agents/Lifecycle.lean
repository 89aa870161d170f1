import SmartDialer.Calls.InFlight
import SmartDialer.Lib.Conduct
import SmartDialer.System.Conformance
import SmartDialer.System.Effects

/-!
# The lifecycle of an agent

Only `transition_agent` validates its edge. A reservation has the edge in its filter, a release in
the set of sources computed for its target and actor, and a reclaim in the query that found its
candidate, however long ago. `agent_lifecycle` says that all four keep to the table and to the
actors listed in it, and that the version fences whoever acts on an old reading.
-/

namespace SmartDialer

open DocStore Concurrent Machine

/-! ## Actors

A thread acts in one name from its start to its end, because every job is one actor's and no stage
of one actor follows a stage of another. An operation that moves an agent carries its actor, and it
is that of the thread. -/

/-- The actor in whose name an operation moves an agent. -/
def Op.actor : Op → Option TransitionActor
  | .tryReserveAgent .. => some .ALLOCATOR
  | .releaseAgent _ _ _ actor => some actor
  | .transitionAgent _ _ _ actor _ => some actor
  | .releaseExpiredAgentLease .. => some .RECOVERY
  | _ => none

/-- The actor of a job. -/
def Job.actor : Job → TransitionActor
  | .allocate .. => .ALLOCATOR
  | .processEvent _ => .EVENT_PROCESSOR
  | .runSweeps => .RECOVERY
  | .agentAction .. => .AGENT
  | .releaseFinishedWrapUps _ => .WORKER_TIMER

/-- The actor of a thread at a stage. -/
def Stage.actor : Stage → TransitionActor
  | .idle | .allocating .. | .agentClaimed .. | .pairClaimed .. | .callQueued .. | .callInitiated ..
  | .callOriginated .. | .agentReturned .. | .compensating .. => .ALLOCATOR
  | .eventReceived .. | .eventRecorded .. | .eventMatched .. | .eventApplied ..
  | .eventAgentReturned .. | .eventClosing .. | .eventDuplicate .. | .eventFailed .. =>
    .EVENT_PROCESSOR
  | .sweeping .. => .RECOVERY
  | .acting => .AGENT
  | .wrapping => .WORKER_TIMER

theorem ReservationPair.actor_struck (pair : ReservationPair) (e : Exn) :
    (pair.struck e).actor = .ALLOCATOR := by
  cases e <;> rfl

theorem Stage.actor_of_dialing {s : Stage} {pair : ReservationPair} (h : s.dialing = some pair) :
    s.actor = .ALLOCATOR := by
  cases s with
  | pairClaimed | callQueued | callInitiated | callOriginated | agentReturned => rfl
  | _ => cases h

theorem Stage.actor_of_event {s : Stage} {event : ProviderEvent} (h : s.event = some event) :
    s.actor = .EVENT_PROCESSOR := by
  cases s with
  | eventReceived | eventRecorded | eventMatched | eventApplied | eventAgentReturned | eventClosing
  | eventDuplicate | eventFailed => rfl
  | _ => cases h

/-- A thread stays with its actor. -/
theorem Stage.actor_next (s : Stage) (o : Op) (r : Except Exn (Res o)) :
    (s.next o r).actor = s.actor := by
  have h := s.precedes_next o r
  generalize s.next o r = s' at h
  cases h with
  | isStruck e hs => rw [ReservationPair.actor_struck, actor_of_dialing hs]
  | closes hs | fails hs => exact (actor_of_event hs).symm
  | _ => rfl

theorem Job.actor_start (job : Job) : job.start.actor = job.actor := by
  cases job <;> rfl

/-- Nobody acts in the name of another. -/
theorem Emits.actor_eq {s : Stage} {o : Op} (h : Emits s o) {actor : TransitionActor}
    (ho : o.actor = some actor) : actor = s.actor := by
  cases h <;> first | cases ho <;> done | (cases ho; rfl)

/-! ## Candidates of recovery

`release_expired_agent_lease` is filtered by the state its candidate had when the query answered it,
so its edge is that of a reading. What makes the edge valid is the query, which asks for the states
that recovery may release; the five sweeps are gone through for that. -/

/-- A reclaim has a candidate that its query can answer. -/
def Op.ReclaimsLease : Op → Prop
  | .releaseExpiredAgentLease candidate _ =>
    candidate.state ∈ AgentSm.allowedSources .AVAILABLE .RECOVERY
  | .reclaimBorrowerLease candidate _ => candidate.status ∈ BorrowerRepo.releasableStatuses
  | _ => True

namespace RecoveryWorker

variable {cfg : Config}

theorem performs_releaseBorrower (ended : Call) :
    (releaseBorrower cfg ended).Performs Op.ReclaimsLease :=
  .bind (Prog.performs_perform.mpr trivial) fun _ => trivial

theorem performs_cancelBoundCall (agent : Agent) (reason : String) :
    (cancelBoundCall cfg agent reason).Performs Op.ReclaimsLease := by
  unfold cancelBoundCall
  split
  · exact trivial
  · refine .bind (Prog.performs_perform.mpr trivial) fun bound => ?_
    split
    · exact trivial
    · split
      · exact trivial
      · refine .bind (Prog.performs_perform.mpr trivial) fun cancelled => ?_
        split
        · exact trivial
        · exact performs_releaseBorrower _

theorem performs_reconcileWithProvider (orphan : Call) :
    (reconcileWithProvider cfg orphan).Performs Op.ReclaimsLease := by
  unfold reconcileWithProvider providerRegistryGet
  split
  · exact trivial
  · refine .catching (.bind ?_ fun _ => .bind (Prog.performs_perform.mpr trivial) fun _ => trivial)
      fun e => ?_
    · split <;> exact trivial
    · split <;> exact trivial

theorem performs_releaseParties (ended : Call) :
    (releaseParties cfg ended).Performs Op.ReclaimsLease := by
  unfold releaseParties SmartDialer.releaseAgent
  rw [if_neg (by decide)]
  exact .bind (Prog.performs_perform.mpr trivial) fun _ => performs_releaseBorrower ended

theorem performs_sweepOrphanedCalls (now : Time) (limit : Int) :
    (sweepOrphanedCalls cfg now limit).Performs Op.ReclaimsLease := by
  refine .bind (Prog.performs_perform.mpr trivial) fun orphans => ?_
  suffices hloop : ∀ n, (sweepOrphanedCallsLoop cfg orphans n).Performs Op.ReclaimsLease from hloop 0
  induction orphans with
  | nil => exact fun n => trivial
  | cons orphan orphans ih =>
    intro n
    refine .bind (performs_reconcileWithProvider orphan) fun targetState =>
      .bind (Prog.performs_perform.mpr trivial) fun finished => ?_
    cases finished with
    | none => exact ih n
    | some finished => exact .bind (performs_releaseParties finished) fun _ => ih _

theorem performs_sweepHeartbeatTimeouts (now : Time) (limit : Int) :
    (sweepHeartbeatTimeouts cfg now limit).Performs Op.ReclaimsLease := by
  refine .bind (Prog.performs_perform.mpr trivial) fun agents => ?_
  suffices hloop : ∀ n, (sweepHeartbeatTimeoutsLoop cfg agents n).Performs Op.ReclaimsLease from hloop 0
  induction agents with
  | nil => exact fun n => trivial
  | cons agent agents ih =>
    exact fun n => .bind (performs_cancelBoundCall agent _) fun _ =>
      .bind (CallAllocator.performs_transitionAgent trivial) fun _ => ih _

theorem performs_sweepStuckWrapUps (now : Time) (limit : Int) :
    (sweepStuckWrapUps cfg now limit).Performs Op.ReclaimsLease := by
  refine .bind (Prog.performs_perform.mpr trivial) fun agents => ?_
  suffices hloop : ∀ n, (sweepStuckWrapUpsLoop agents n).Performs Op.ReclaimsLease from hloop 0
  induction agents with
  | nil => exact fun n => trivial
  | cons agent agents ih =>
    exact fun n => .bind (CallAllocator.performs_transitionAgent trivial) fun _ => ih _

/-- The query of the first sweep answers agents that recovery may release. -/
theorem abides_sweepExpiredAgentLeases (now : Time) (limit : Int) :
    (sweepExpiredAgentLeases cfg now limit).Abides exec Op.ReclaimsLease fun _ => True := by
  refine .bind (Q := fun agents => ∀ agent ∈ agents,
      agent.state ∈ AgentSm.allowedSources .AVAILABLE .RECOVERY)
    (Prog.abides_perform trivial fun env σ agents hans agent hagent => ?_) fun agents hagents => ?_
  -- what the query has answered is in the states it asked for
  · rw [exec_of_ok hans] at hans
    cases hans
    exact (Collection.mem_find.mp (limited_subset hagent)).2.1
  · suffices hloop : ∀ n, (sweepExpiredAgentLeasesLoop cfg now agents n).Abides exec
        Op.ReclaimsLease fun _ => True from hloop 0
    induction agents with
    | nil => exact fun n => trivial
    | cons agent agents ih =>
      refine fun n => .bind (performs_cancelBoundCall agent _).abides fun _ _ =>
        .bind (Prog.Performs.abides (Prog.performs_perform.mpr ?_)) fun released _ =>
          ih (fun agent h => hagents agent (List.mem_cons_of_mem _ h)) _
      -- the candidate is the reading of the query, unchanged
      exact hagents agent List.mem_cons_self

/-- The query of the second sweep answers borrowers that are held. -/
theorem abides_sweepExpiredBorrowerLeases (now : Time) (limit : Int) :
    (sweepExpiredBorrowerLeases now limit).Abides exec Op.ReclaimsLease fun _ => True := by
  refine .bind (Q := fun borrowers => ∀ borrower ∈ borrowers,
      borrower.status ∈ BorrowerRepo.releasableStatuses)
    (Prog.abides_perform trivial fun env σ borrowers hans borrower hborrower => ?_)
    fun borrowers hborrowers => ?_
  -- what the query has answered is held
  · rw [exec_of_ok hans] at hans
    cases hans
    exact (Collection.mem_find.mp (limited_subset hborrower)).2.1
  · suffices hloop : ∀ n, (reclaimLoop now borrowers n).Abides exec Op.ReclaimsLease
        fun _ => True from hloop 0
    induction borrowers with
    | nil => exact fun n => trivial
    | cons borrower borrowers ih =>
      refine fun n => .bind (Prog.Performs.abides (Prog.performs_perform.mpr ?_)) fun document _ =>
        ih (fun borrower h => hborrowers borrower (List.mem_cons_of_mem _ h)) _
      exact hborrowers borrower List.mem_cons_self

/-- The five sweeps, whichever of them raises. -/
theorem abides_runSweeps : (runSweeps cfg).Abides exec Op.ReclaimsLease fun _ => True := by
  refine .bind (Prog.Performs.abides (Prog.performs_perform.mpr trivial)) fun now _ => ?_
  -- on the sweeps: one that raises is counted as failed, and the next one follows
  have hloop : ∀ (sweeps : List (SweepName × Py Nat)) (counts : RecoverySweepCounts),
      (∀ entry ∈ sweeps, entry.2.Abides exec Op.ReclaimsLease fun _ => True) →
      (runSweepsLoop sweeps counts).Abides exec Op.ReclaimsLease fun _ => True := by
    intro sweeps
    induction sweeps with
    | nil => exact fun counts _ => trivial
    | cons entry rest ih =>
      intro counts hsweeps
      refine .bind (Q := fun _ => True) (.catching (.bind (hsweeps entry List.mem_cons_self)
        fun n _ => trivial) fun e => ?_) fun counts _ =>
          ih counts fun entry h => hsweeps entry (List.mem_cons_of_mem _ h)
      split <;> exact trivial
  refine hloop _ _ fun entry hentry => ?_
  simp only [sweeps, List.mem_cons, List.not_mem_nil, or_false] at hentry
  rcases hentry with rfl | rfl | rfl | rfl | rfl
  · exact abides_sweepExpiredAgentLeases _ _
  · exact abides_sweepExpiredBorrowerLeases _ _
  · exact (performs_sweepOrphanedCalls _ _).abides
  · exact (performs_sweepHeartbeatTimeouts _ _).abides
  · exact (performs_sweepStuckWrapUps _ _).abides

end RecoveryWorker

/-- Every reclaim of the system has a candidate its query can answer. -/
theorem job_abides (cfg : Config) (job : Job) :
    (job.program cfg).Abides exec Op.ReclaimsLease fun _ => True := by
  -- no other job is recovery's, and only recovery reclaims
  have hother : job.actor ≠ .RECOVERY →
      (job.program cfg).Abides exec Op.ReclaimsLease fun _ => True := by
    intro hjob
    have hfollows : (system cfg).Follows job.start (job.program cfg) (Finished job) :=
      system_conforms job
    refine (hfollows.performs (J := fun s => s.actor ≠ .RECOVERY) (fun s o hs h => ?_)
      (by rw [job.actor_start]; exact hjob)).abides
    refine ⟨?_, fun r => ?_⟩
    rotate_left
    · show (s.next o r).actor ≠ .RECOVERY
      rw [s.actor_next]
      exact hs
    cases h <;> trivial
  cases job with
  | runSweeps => exact .bind RecoveryWorker.abides_runSweeps fun counts _ => trivial
  | allocate | processEvent | agentAction | releaseFinishedWrapUps => exact hother (by simp [Job.actor])

/-! ## One write

Whatever an operation is called, what it does to an agent is one of the cases of `AgentWrite`. Each
of them moves the state along an edge of the table for the actor of the operation and counts the
move, or leaves both as they are. -/

theorem AgentSm.ne_of_canTransition {s t : AgentState} (h : canTransition s t = true) : t ≠ s := by
  rintro rfl
  revert h
  cases t <;> decide

theorem Emits.valid {s : Stage} {a : DocId} {x y : AgentState} {actor : TransitionActor}
    {version : Nat} (h : Emits s (.transitionAgent a x y actor version)) :
    AgentSm.Valid x y actor := by
  cases h with
  | agentDials => exact ⟨by decide, by decide⟩
  | advanceAgent hterm hvalid hstate => exact hvalid
  | moveAgent version hvalid hkind => exact hvalid
  | act version hvalid => exact hvalid
  | finishWrapUp => exact ⟨by decide, by decide⟩

/-- The agent moves along one edge for the actor and is counted once, or stays where it is. -/
inductive AgentMoves (o : Op) (g g' : Agent) : Prop where
  | stays (hstate : g'.state = g.state) (hversion : g'.stateVersion = g.stateVersion)
  | moves {actor : TransitionActor} (ho : o.actor = some actor)
      (hvalid : AgentSm.Valid g.state g'.state actor) (hversion : g'.stateVersion = g.stateVersion + 1)

/-- **What one write makes of the state and the version of an agent.** -/
theorem AgentWrite.moves {now : Time} {o : Op} {g g' : Agent} (h : AgentWrite now o g g')
    {s : Stage} (hemits : Emits s o) (hreclaims : o.ReclaimsLease) : AgentMoves o g g' := by
  cases h with
  | unchanged => exact .stays rfl rfl
  -- the edge is in the filter
  | reserve workerId ttl hstate =>
    exact .moves rfl ⟨by rw [hstate]; rfl, by rw [hstate]; rfl⟩ rfl
  -- the edge is in the set of sources computed for target and actor
  | release hworker hstate => exact .moves rfl (AgentSm.mem_allowedSources.mp hstate) rfl
  | transition t actor => exact .moves rfl hemits.valid rfl
  | bind callId hworker => exact .stays rfl rfl
  -- the edge is that of the candidate, whose state the filter asks for again
  | reclaim hid hstate hversion hlease hexpired =>
    refine .moves rfl (AgentSm.mem_allowedSources.mp ?_) rfl
    rw [hstate]
    exact hreclaims
  | beat => exact .stays rfl rfl

theorem AgentMoves.version {o : Op} {g g' : Agent} (h : AgentMoves o g g') :
    g'.stateVersion = g.stateVersion + if g'.state = g.state then 0 else 1 := by
  cases h with
  | stays hstate hversion => rw [hversion, if_pos hstate, Nat.add_zero]
  | moves ho hvalid hversion => rw [hversion, if_neg (AgentSm.ne_of_canTransition hvalid.1)]

/-! ## Runs

`agent_instant` says what one instant makes of an agent, and whose doing it is. The rest is
induction on instants: versions never fall, so a write fenced by a version is the only one that
takes effect with it. -/

section Runs

variable {cfg : Config} {R : SystemRegime} {σ₀ : Store} (run : Run (system cfg) R (World.fresh σ₀))

/-- At instant `n` a thread that runs `job` performs `o`. -/
def PerformedAt (n : Nat) (job : Job) (o : Op) : Prop :=
  ∃ p env t k, run.action n = .perform p env ∧ (run.world n).threads p = some t
    ∧ t.crashed = false ∧ t.prog = .op o k ∧ t.job = job

/-- The agent and the version that `transition_agent` and `release_expired_agent_lease` carry. -/
def Op.fence : Op → Option (DocId × Nat)
  | .transitionAgent a _ _ _ version => some (a, version)
  | .releaseExpiredAgentLease candidate _ => some (candidate.id, candidate.stateVersion)
  | _ => none

/-- At instant `n` one of these two with this agent and version takes effect. -/
def FencedWrite (n : Nat) (a : DocId) (version : Nat) : Prop :=
  ∃ job o, PerformedAt run n job o ∧ o.fence = some (a, version)
    ∧ (run.world (n + 1)).store.agents.get? a ≠ (run.world n).store.agents.get? a

variable {run}

theorem PerformedAt.unique {n : Nat} {job job' : Job} {o o' : Op} (h : PerformedAt run n job o)
    (h' : PerformedAt run n job' o') : job' = job ∧ o' = o := by
  obtain ⟨p, env, t, k, ha, ht, -, hprog, rfl⟩ := h
  obtain ⟨p', env', t', k', ha', ht', -, hprog', rfl⟩ := h'
  cases ha.symm.trans ha'
  cases ht.symm.trans ht'
  cases hprog.symm.trans hprog'
  exact ⟨rfl, rfl⟩

/-- **What one instant of a run makes of an agent.** Between two instants of a run he stays as he
is, or one thread has performed one operation, and the operation says which actor it acts as and
what it writes. -/
theorem agent_instant (n : Nat) {a : DocId} {g : Agent}
    (hg : (run.world n).store.agents.get? a = some g) :
    ∃ g', (run.world (n + 1)).store.agents.get? a = some g' ∧ (g' = g ∨ ∃ job o now,
      PerformedAt run n job o ∧ (∀ actor, o.actor = some actor → actor = job.actor)
        ∧ AgentMoves o g g' ∧ AgentWrite now o g g') := by
  have hreach := run.reachable n
  rcases (run.world n).act_cases (M := system cfg) (run.action n) with heq | ⟨p, job, -, -, heq⟩
    | ⟨p, t, -, -, heq⟩ | ⟨p, env, t, o, k, ha, ht, hc, hprog, heq⟩
  · rw [run.step, heq]
    exact ⟨g, hg, Or.inl rfl⟩
  · rw [run.step, heq]
    exact ⟨g, hg, Or.inl rfl⟩
  · rw [run.step, heq]
    exact ⟨g, hg, Or.inl rfl⟩
  -- only an operation writes: its stage says which, its program what it reclaims
  · have hfollow := (hreach.obeys system_conforms (World.Obeys.fresh _ σ₀)).follows p t ht
    have habides := hreach.abides (S := fun _ => Op.ReclaimsLease) (job_abides cfg) ht
    rw [hprog] at hfollow habides
    have hactor : t.stage.actor = t.job.actor :=
      hreach.threads (P := fun job s => s.actor = job.actor) Job.actor_start
        (fun job s o r hs => (s.actor_next o r).trans hs) (fun q u hu => by cases hu) p t ht
    obtain ⟨g', hg', hwrite⟩ := exec_agent env o hg
    have hemits : Emits t.stage o := hfollow.1
    refine ⟨g', ?_, Or.inr ⟨t.job, o, env.now, ⟨p, env, t, k, ha, ht, hc, hprog, rfl⟩,
      fun actor ho => ?_, hwrite.moves hemits habides.1, hwrite⟩⟩
    · rw [run.step, heq]
      exact hg'
    · rw [← hactor]
      exact hemits.actor_eq ho

/-- The version never falls, and where it has not risen the state is the same. -/
theorem version_mono {m n : Nat} (hmn : m ≤ n) {a : DocId} {g : Agent}
    (hg : (run.world m).store.agents.get? a = some g) :
    ∃ g', (run.world n).store.agents.get? a = some g' ∧ g.stateVersion ≤ g'.stateVersion
      ∧ (g'.stateVersion = g.stateVersion → g'.state = g.state) := by
  -- on the instants: each counts its move, or leaves state and version
  induction n, hmn using Nat.le_induction with
  | base => exact ⟨g, hg, Nat.le_refl _, fun _ => rfl⟩
  | succ n _ ih =>
    obtain ⟨e, he, hle, hsame⟩ := ih
    obtain ⟨g', hg', rfl | ⟨job, o, now, -, -, hmoves, -⟩⟩ := agent_instant n he
    · exact ⟨g', hg', hle, hsame⟩
    · refine ⟨g', hg', ?_, fun heq => ?_⟩
      · have hversion := hmoves.version
        omega
      · cases hmoves with
        | stays hstate hversion => rw [hstate, hsame (by omega)]
        | moves ho hvalid hversion => omega

/-- **A fenced write finds the version it carries and raises it.** So of two fenced writes with one
version only the first can go through: after it the version is another one for ever, as versions
only grow. -/
theorem FencedWrite.version {n : Nat} {a : DocId} {version : Nat} (h : FencedWrite run n a version) :
    ∃ g g', (run.world n).store.agents.get? a = some g ∧ g.stateVersion = version
      ∧ (run.world (n + 1)).store.agents.get? a = some g' ∧ g'.stateVersion = version + 1 := by
  obtain ⟨job, o, hperformed, hfence, hne⟩ := h
  cases hg : (run.world n).store.agents.get? a with
  | none =>
    -- there is no such agent to write to
    obtain ⟨p, env, t, k, ha, ht, hc, hprog, -⟩ := hperformed
    have hrel := exec_agents env o (run.world n).store a
    rw [hg] at hrel hne
    have hact : (run.world (n + 1)).store = (exec env o (run.world n).store).2 := by
      rw [run.step, ha]
      simp [World.act, ht, hc, hprog, system]
    rw [hact] at hne
    cases hafter : (exec env o (run.world n).store).2.agents.get? a with
    | none => exact absurd hafter hne
    | some g' =>
      rw [hafter] at hrel
      cases hrel
  | some g =>
    obtain ⟨g', hg', rfl | ⟨job', o', now, hperformed', -, hmoves, hwrite⟩⟩ := agent_instant n hg
    · exact absurd (hg'.trans hg.symm) hne
    · obtain ⟨-, rfl⟩ := hperformed.unique hperformed'
      have hfinds : g.stateVersion = version ∧ g'.stateVersion = g.stateVersion + 1 := by
        cases hwrite with
        | unchanged => exact absurd (hg'.trans hg.symm) hne
        | reserve | release | bind | beat => cases hfence
        | transition t actor => exact ⟨(Prod.mk.inj (Option.some.inj hfence)).2, rfl⟩
        | reclaim hid hstate hversion hlease hexpired =>
          exact ⟨hversion.trans (Prod.mk.inj (Option.some.inj hfence)).2, rfl⟩
      exact ⟨g, g', rfl, hfinds.1, hg', by rw [hfinds.2, hfinds.1]⟩

variable (run)

/-- **The agent lifecycle**, in every run: a change of state is an edge of the table, performed by
a thread whose actor is listed for it; the version rises by one with each change of state and with
nothing else; of all transitions and reclaims that carry one version of an agent at most one takes
effect, and only if the state has not changed since that version was read. -/
theorem agent_lifecycle :
    (∀ n a g g', (run.world n).store.agents.get? a = some g →
      (run.world (n + 1)).store.agents.get? a = some g' → g'.state ≠ g.state →
      ∃ job o, PerformedAt run n job o ∧ o.actor = some job.actor
        ∧ AgentSm.canTransition g.state g'.state = true
        ∧ AgentSm.isActorAllowed g.state g'.state job.actor = true)
    ∧ (∀ n a g g', (run.world n).store.agents.get? a = some g →
      (run.world (n + 1)).store.agents.get? a = some g' →
      g'.stateVersion = g.stateVersion + if g'.state = g.state then 0 else 1)
    ∧ (∀ m n a version, FencedWrite run m a version → FencedWrite run n a version → m = n)
    ∧ (∀ m n a g, m ≤ n → (run.world m).store.agents.get? a = some g →
      FencedWrite run n a g.stateVersion → ∀ k, m ≤ k → k ≤ n →
      ∃ g', (run.world k).store.agents.get? a = some g' ∧ g'.state = g.state
        ∧ g'.stateVersion = g.stateVersion) := by
  refine ⟨?_, ?_, ?_, ?_⟩
  · intro n a g g' hg hg' hne
    obtain ⟨e, he, hcases⟩ := agent_instant n hg
    cases he.symm.trans hg'
    rcases hcases with rfl | ⟨job, o, now, hperformed, hactor, hmoves, -⟩
    · exact absurd rfl hne
    · cases hmoves with
      | stays hstate hversion => exact absurd hstate hne
      | moves ho hvalid hversion =>
        obtain rfl := hactor _ ho
        exact ⟨job, o, hperformed, ho, hvalid.1, hvalid.2⟩
  · intro n a g g' hg hg'
    obtain ⟨e, he, hcases⟩ := agent_instant n hg
    cases he.symm.trans hg'
    rcases hcases with rfl | ⟨job, o, now, -, -, hmoves, -⟩
    · simp
    · exact hmoves.version
  · -- the later of two would find a version the earlier one has raised
    have hlt : ∀ m n a version, FencedWrite run m a version → FencedWrite run n a version → ¬ m < n := by
      intro m n a version hm hn hmn
      obtain ⟨-, g', -, -, hg', hraised⟩ := hm.version
      obtain ⟨e, -, he, hversion, -⟩ := hn.version
      obtain ⟨e', he', hle, -⟩ := version_mono (Nat.succ_le_of_lt hmn) hg'
      cases he.symm.trans he'
      omega
    intro m n a version hm hn
    exact Nat.le_antisymm (Nat.le_of_not_lt (hlt n m a version hn hm))
      (Nat.le_of_not_lt (hlt m n a version hm hn))
  -- the write at `n` finds the version of `m`, so nothing has raised it in between
  · intro m n a g hmn hg hn k hmk hkn
    obtain ⟨g', hg', hle, hsame⟩ := version_mono hmk hg
    obtain ⟨e, -, he, hversion, -⟩ := hn.version
    obtain ⟨e', he', hle', -⟩ := version_mono hkn hg'
    cases he.symm.trans he'
    have heq : g'.stateVersion = g.stateVersion := by omega
    exact ⟨g', hg', hsame heq, heq⟩

end Runs

end SmartDialer
