import SmartDialer.Agents.Lifecycle
import SmartDialer.Lib.History
import SmartDialer.Platform.Refinement

/-!
# Wrap-ups last

Who has finished a call is left alone for `WRAP_UP_SECONDS`. The timer of a worker and the last sweep
of recovery end the wrap-ups that a query has answered them, which may be long ago by the time they
write. What ties the write to the query is the version it names: the agent is still in the wrap-up
the query has seen.

Two things are known of a wrap-up that is ended. Before it, the thread has read the clock and been
answered the agent by a query with a cutoff (`ShownOver`), which is a conduct of the platform. And
the agent is still as the query has found him, because the write names his version and versions only
rise (`Agent.Ages`). The end of the wrap-up is then later than its start by what the cutoff has
taken off the clock.
-/

namespace SmartDialer

open DocStore Concurrent HostFloat Machine

/-! ## Agents age

Every write either counts a new version or leaves the state and the time of its last change. So from
one version to the same version nothing has happened to the state. -/

/-- Later the agent has a higher version, or is in the same state since the same instant. -/
def Agent.Ages (g g' : Agent) : Prop :=
  g.stateVersion < g'.stateVersion
    ∨ g'.stateVersion = g.stateVersion ∧ g'.state = g.state ∧ g'.stateChangedAt = g.stateChangedAt

theorem Agent.Ages.refl (g : Agent) : g.Ages g := Or.inr ⟨rfl, rfl, rfl⟩

theorem Agent.Ages.trans {g g' g'' : Agent} (h : g.Ages g') (h' : g'.Ages g'') : g.Ages g'' := by
  rcases h with h | ⟨hversion, hstate, hsince⟩ <;> rcases h' with h' | ⟨hversion', hstate', hsince'⟩
  · exact Or.inl (Nat.lt_trans h h')
  · exact Or.inl (hversion' ▸ h)
  · exact Or.inl (hversion ▸ h')
  · exact Or.inr ⟨hversion'.trans hversion, hstate'.trans hstate, hsince'.trans hsince⟩

/-- **Every write ages the agent.** -/
theorem AgentWrite.ages {now : Time} {o : Op} {g g' : Agent} (h : AgentWrite now o g g') :
    g.Ages g' := by
  cases h with
  | unchanged => exact .refl g
  | reserve | release | transition | reclaim => exact Or.inl (Nat.lt_succ_self _)
  | bind | beat => exact Or.inr ⟨rfl, rfl, rfl⟩

/-- All agents have aged. -/
def AgentsAge (σ σ' : Store) : Prop :=
  ∀ a g, σ.agents.get? a = some g → ∃ g', σ'.agents.get? a = some g' ∧ g.Ages g'

theorem AgentsAge.refl (σ : Store) : AgentsAge σ σ := fun _ g hg => ⟨g, hg, .refl g⟩

theorem AgentsAge.exec {σ σ' : Store} (h : AgentsAge σ σ') (env : Env) (o : Op) :
    AgentsAge σ (SmartDialer.exec env o σ').2 := by
  intro a g hg
  obtain ⟨g', hg', hages⟩ := h a g hg
  obtain ⟨g'', hg'', hwrite⟩ := exec_agent env o hg'
  exact ⟨g'', hg'', hages.trans hwrite.ages⟩

/-! ## Who wraps up is held by nobody

A lease of an agent in wrap-up would let the first sweep end the wrap-up, whatever its time. There
is none: only a release leads into a wrap-up, and it takes the lease away. -/

/-- Nobody in a wrap-up is held. -/
def WrapUpsUnheld (σ : Store) : Prop :=
  ∀ a g, σ.agents.get? a = some g → g.state = .WRAP_UP →
    g.reservedBy = none ∧ g.leaseExpiresAt = none

/-- Only a release leads into a wrap-up. -/
theorem not_emits_intoWrapUp {s : Stage} {a : DocId} {x : AgentState} {actor : TransitionActor}
    {version : Nat} : ¬ Emits s (.transitionAgent a x .WRAP_UP actor version) := by
  intro h
  cases h with
  | @advanceAgent _ _ targetState _ _ hterm _ hstate =>
    revert hterm hstate
    cases targetState <;> decide
  | moveAgent _ hvalid _ =>
    revert hvalid
    cases x <;> decide
  | act _ hvalid =>
    revert hvalid
    cases x <;> decide

theorem WrapUpsUnheld.exec {σ : Store} (h : WrapUpsUnheld σ) {s : Stage} {o : Op}
    (hemits : Emits s o) (env : Env) : WrapUpsUnheld (SmartDialer.exec env o σ).2 := by
  intro a g' hg' hstate
  obtain ⟨g, hg, hwrite⟩ := exec_agent_before hg'
  cases hwrite with
  | unchanged => exact h a g' hg hstate
  | bind | beat => exact h a g hg hstate
  | reserve | reclaim => cases hstate
  | release => exact ⟨rfl, rfl⟩
  -- no transition leads into a wrap-up
  | transition t actor =>
    cases (show t = .WRAP_UP from hstate)
    exact absurd hemits not_emits_intoWrapUp

theorem wrapUpsUnheld_of_reachable {cfg : Config} {R : SystemRegime} {σ₀ : Store} {v : SystemWorld}
    (h₀ : WrapUpsUnheld σ₀) (h : Reachable (system cfg) R (World.fresh σ₀) v) :
    WrapUpsUnheld v.store :=
  h.invariant (I := fun σ _ _ => WrapUpsUnheld σ) system_conforms
    ⟨fun _ _ hI _ _ => hI, fun _ _ env hI hemits _ _ => hI.exec hemits env⟩
    (World.Obeys.fresh _ σ₀) h₀

/-- What the query answers is in the store. -/
theorem findExpiredWrapUps_ok {σ : Store} {env : Env} {olderThan : Time} {limit : Int}
    {campaignId : Option DocId} {agents : List Agent}
    (h : (exec env (.findExpiredWrapUps olderThan limit campaignId) σ).1 = .ok agents) {g : Agent}
    (hg : g ∈ agents) : σ.agents.get? g.id = some g ∧ g.stateChangedAt ≤ olderThan := by
  rw [exec_of_ok h] at h
  cases h
  obtain ⟨hdocs, -, hsince, -⟩ :=
    Collection.mem_find.mp ((List.mem_insertionSort _).mp (limited_subset hg))
  exact ⟨hdocs, hsince⟩

/-- Whoever is held by nobody leaves a wrap-up for the next call by a transition at its version. -/
theorem AgentWrite.endsWrapUp {now : Time} {o : Op} {g g' : Agent} (h : AgentWrite now o g g')
    (hstate : g.state = .WRAP_UP) (hstate' : g'.state = .AVAILABLE)
    (hworker : g.reservedBy = none) (hlease : g.leaseExpiresAt = none) :
    ∃ actor, o = .transitionAgent g.id .WRAP_UP .AVAILABLE actor g.stateVersion := by
  cases h with
  | unchanged | bind | beat => cases hstate.symm.trans hstate'
  | reserve => cases hstate'
  | release hheld => cases hworker.symm.trans hheld
  | transition t actor =>
    cases (show t = .AVAILABLE from hstate')
    exact ⟨actor, by rw [hstate]⟩
  | reclaim _ _ _ hleased => cases hlease.symm.trans hleased

/-! ## What is known before a wrap-up is ended

`ShownOver` is the reason a thread has for ending a wrap-up, and `restMachine` the system in which
nobody ends one without it. The timer has read the clock for its own query; recovery has read it
once for all five sweeps, and its cutoff is earlier by the grace it adds. -/

/-- The clock has been read, and a query with a cutoff as long ago as a wrap-up takes has answered
the agent at that version. -/
inductive ShownOver (settings : Settings) (happened : Happening Op Res Exn → Prop) (agentId : DocId)
    (version : Nat) : Prop where
  | intro {now olderThan : Time} {limit : Int} {campaignId : Option DocId} {agents : List Agent}
      {agent : Agent} (hclock : happened ⟨.utcNow, .ok now⟩)
      (hquery : happened ⟨.findExpiredWrapUps olderThan limit campaignId, .ok agents⟩)
      (hcutoff : olderThan + seconds settings.WRAP_UP_SECONDS ≤ now) (hagent : agent ∈ agents)
      (hid : agent.id = agentId) (hversion : agent.stateVersion = version)

theorem ShownOver.mono {settings : Settings} {happened happened' : Happening Op Res Exn → Prop}
    (hle : ∀ x, happened x → happened' x) {agentId : DocId} {version : Nat}
    (h : ShownOver settings happened agentId version) :
    ShownOver settings happened' agentId version := by
  obtain ⟨hclock, hquery, hcutoff, hagent, hid, hversion⟩ := h
  exact ⟨hle _ hclock, hle _ hquery, hcutoff, hagent, hid, hversion⟩

/-- A wrap-up is ended when it has been shown to be over. -/
def WaitsForWrapUp (settings : Settings) (h : History Op Res Exn) (o : Op) : Prop :=
  ∀ a actor version, o = .transitionAgent a .WRAP_UP .AVAILABLE actor version →
    ShownOver settings (· ∈ h) a version

abbrev restMachine (cfg : Config) :=
  (Machine.recording exec (Job.program cfg)).emitting (WaitsForWrapUp cfg.settings)

/-- The end of a wrap-up. -/
def endsWrapUp : Op → Bool
  | .transitionAgent _ .WRAP_UP .AVAILABLE _ _ => true
  | _ => false

theorem waits_of_not {settings : Settings} (h : History Op Res Exn) {o : Op}
    (ho : endsWrapUp o = false) : WaitsForWrapUp settings h o := by
  rintro a actor version rfl
  cases ho

/-- Wrap-ups are ended by the timer and by recovery. -/
theorem Emits.endsWrapUp {s : Stage} {o : Op} (h : Emits s o)
    (hs : s.actor ≠ .WORKER_TIMER ∧ s.actor ≠ .RECOVERY) : endsWrapUp o = false := by
  cases o with
  | transitionAgent a x y actor version =>
    have hactor : actor = s.actor := h.actor_eq rfl
    have hvalid := h.valid
    rw [hactor] at hvalid
    by_contra hends
    unfold SmartDialer.endsWrapUp at hends
    split at hends
    · rename_i heq
      cases heq
      revert hvalid hs
      -- by the table of actors
      cases s.actor <;> decide
    · exact hends rfl
  | _ => rfl

section Jobs

variable {cfg : Config} {h : History Op Res Exn}

/-- Jobs of the allocator, of the event processor and of agents. -/
theorem performs_notEnding {job : Job} (hjob : job.actor ≠ .WORKER_TIMER ∧ job.actor ≠ .RECOVERY) :
    (job.program cfg).Performs fun o => endsWrapUp o = false := by
  have hfollows : (system cfg).Follows job.start (job.program cfg) (Finished job) :=
    system_conforms job
  refine hfollows.performs (J := fun s => s.actor ≠ .WORKER_TIMER ∧ s.actor ≠ .RECOVERY)
    (fun s o hs (hemits : Emits s o) => ⟨hemits.endsWrapUp hs, fun r => ?_⟩) (job.actor_start ▸ hjob)
  show (s.next o r).actor ≠ _ ∧ (s.next o r).actor ≠ _
  rw [s.actor_next]
  exact hs

/-- What follows the two readings may end the wrap-ups that have been answered. -/
theorem waiting_of_shown {α : Type} {x : Py α} {now olderThan : Time} {limit : Int}
    {campaignId : Option DocId} {agents : List Agent}
    (hcutoff : olderThan + seconds cfg.settings.WRAP_UP_SECONDS ≤ now)
    (hclock : (⟨.utcNow, .ok now⟩ : Happening Op Res Exn) ∈ h)
    (hquery : (⟨.findExpiredWrapUps olderThan limit campaignId, .ok agents⟩ :
      Happening Op Res Exn) ∈ h)
    (hx : x.Performs fun o => ∃ agent ∈ agents, ∃ actor,
      o = .transitionAgent agent.id .WRAP_UP .AVAILABLE actor agent.stateVersion) :
    (restMachine cfg).Follows h x fun _ _ => True := by
  refine (follows_within_of_performs (J := fun h' => h <+: h') (fun h' o hgrown ho => ?_)
    (List.prefix_refl h) hx).mono fun _ _ _ => trivial
  refine ⟨?_, fun r => hgrown.trans (List.prefix_append h' _)⟩
  rintro a actor version rfl
  obtain ⟨agent, hagent, actor', heq⟩ := ho
  cases heq
  exact ⟨hgrown.subset hclock, hgrown.subset hquery, hcutoff, hagent, rfl, rfl⟩

theorem performs_releaseLoop (agents : List Agent) :
    (WrapUpService.releaseLoop agents).Performs fun o => ∃ agent ∈ agents, ∃ actor,
      o = .transitionAgent agent.id .WRAP_UP .AVAILABLE actor agent.stateVersion := by
  induction agents with
  | nil => trivial
  | cons agent agents ih =>
    refine .bind (CallAllocator.performs_transitionAgent ⟨agent, List.mem_cons_self, _, rfl⟩)
      fun _ => ih.mono ?_
    rintro o ⟨agent', hagent', hends⟩
    exact ⟨agent', List.mem_cons_of_mem agent hagent', hends⟩

theorem performs_sweepStuckWrapUpsLoop (agents : List Agent) (n : Nat) :
    (RecoveryWorker.sweepStuckWrapUpsLoop agents n).Performs fun o => ∃ agent ∈ agents, ∃ actor,
      o = .transitionAgent agent.id .WRAP_UP .AVAILABLE actor agent.stateVersion := by
  induction agents generalizing n with
  | nil => trivial
  | cons agent agents ih =>
    refine .bind (CallAllocator.performs_transitionAgent ⟨agent, List.mem_cons_self, _, rfl⟩)
      fun _ => (ih _).mono ?_
    rintro o ⟨agent', hagent', hends⟩
    exact ⟨agent', List.mem_cons_of_mem agent hagent', hends⟩

/-- The timer waits. -/
theorem waiting_releaseFinishedWrapUps (campaign : Campaign) :
    (restMachine cfg).Follows h (WrapUpService.releaseFinishedWrapUps cfg campaign)
      fun _ _ => True := by
  unfold WrapUpService.releaseFinishedWrapUps WrapUpService.findFinishedWrapUps
  simp only [Prog.bind_def, Prog.bind_assoc]
  rw [follows_bind]
  refine (follows_perform ..).mpr ⟨waits_of_not _ rfl, fun r => ?_⟩
  cases r with
  | error e => trivial
  | ok now =>
    dsimp only
    rw [follows_bind]
    refine (follows_perform ..).mpr ⟨waits_of_not _ rfl, fun r => ?_⟩
    cases r with
    | error e => trivial
    | ok agents =>
      -- the cutoff of the query is the reading less what a wrap-up takes
      have hcutoff : now - seconds cfg.settings.WRAP_UP_SECONDS
          + seconds cfg.settings.WRAP_UP_SECONDS = now := Int.sub_add_cancel now _
      exact waiting_of_shown hcutoff.le
        (List.mem_append_left _ (List.mem_append_right _ (List.mem_singleton_self _)))
        (List.mem_append_right _ (List.mem_singleton_self _)) (performs_releaseLoop agents)

/-- The cutoff of recovery is no later than that of the timer. -/
theorem graced_le (now : Int) {wrapUp : Int} (h : 0 ≤ wrapUp) :
    now - seconds (wrapUp + wrapUp * 2) + seconds wrapUp ≤ now := by
  unfold seconds
  omega

theorem waiting_sweepStuckWrapUps (hsettings : 0 ≤ cfg.settings.WRAP_UP_SECONDS) {now : Time}
    {limit : Int} (hclock : (⟨.utcNow, .ok now⟩ : Happening Op Res Exn) ∈ h) :
    (restMachine cfg).Follows h (RecoveryWorker.sweepStuckWrapUps cfg now limit) fun _ _ => True := by
  unfold RecoveryWorker.sweepStuckWrapUps
  dsimp only
  rw [Prog.bind_def, follows_bind]
  refine (follows_perform ..).mpr ⟨waits_of_not _ rfl, fun r => ?_⟩
  cases r with
  | error e => trivial
  | ok agents =>
    exact waiting_of_shown (graced_le now hsettings) (List.mem_append_left _ hclock)
      (List.mem_append_right _ (List.mem_singleton_self _)) (performs_sweepStuckWrapUpsLoop agents 0)

/-! ### The sweeps before the last

None of them ends a wrap-up: they cancel calls, release parties by their leases and take agents
offline. -/

theorem performs_recoverBorrower_notEnding (ended : Call) :
    (RecoveryWorker.releaseBorrower cfg ended).Performs fun o => endsWrapUp o = false :=
  .bind (Prog.performs_perform.mpr rfl) fun _ => trivial

theorem performs_cancelBoundCall_notEnding (agent : Agent) (reason : String) :
    (RecoveryWorker.cancelBoundCall cfg agent reason).Performs fun o => endsWrapUp o = false := by
  unfold RecoveryWorker.cancelBoundCall
  split
  · trivial
  · refine .bind (Prog.performs_perform.mpr rfl) fun bound => ?_
    split
    · trivial
    · split
      · trivial
      · refine .bind (Prog.performs_perform.mpr rfl) fun cancelled => ?_
        split
        · trivial
        · exact performs_recoverBorrower_notEnding _

theorem performs_sweepExpiredAgentLeases_notEnding (now : Time) (limit : Int) :
    (RecoveryWorker.sweepExpiredAgentLeases cfg now limit).Performs
      fun o => endsWrapUp o = false := by
  refine .bind (Prog.performs_perform.mpr rfl) fun agents => ?_
  suffices hloop : ∀ n, (RecoveryWorker.sweepExpiredAgentLeasesLoop cfg now agents n).Performs
      fun o => endsWrapUp o = false from hloop 0
  induction agents with
  | nil => exact fun n => trivial
  | cons agent agents ih =>
    exact fun n => .bind (performs_cancelBoundCall_notEnding agent _) fun _ =>
      .bind (Prog.performs_perform.mpr rfl) fun _ => ih _

theorem performs_sweepExpiredBorrowerLeases_notEnding (now : Time) (limit : Int) :
    (RecoveryWorker.sweepExpiredBorrowerLeases now limit).Performs
      fun o => endsWrapUp o = false := by
  refine .bind (Prog.performs_perform.mpr rfl) fun borrowers => ?_
  suffices hloop : ∀ n, (RecoveryWorker.reclaimLoop now borrowers n).Performs
      fun o => endsWrapUp o = false from hloop 0
  induction borrowers with
  | nil => exact fun n => trivial
  | cons borrower borrowers ih => exact fun n => .bind (Prog.performs_perform.mpr rfl) fun _ => ih _

/-- The sweep of orphaned calls ends no wrap-up. It gives the agent of the call back by a release,
which is no transition. -/
theorem performs_sweepOrphanedCalls_notEnding (now : Time) (limit : Int) :
    (RecoveryWorker.sweepOrphanedCalls cfg now limit).Performs fun o => endsWrapUp o = false := by
  have hreconciles : ∀ orphan, (RecoveryWorker.reconcileWithProvider cfg orphan).Performs
      fun o => endsWrapUp o = false := by
    intro orphan
    unfold RecoveryWorker.reconcileWithProvider providerRegistryGet
    split
    · trivial
    · refine .catching (.bind ?_ fun _ => .bind (Prog.performs_perform.mpr rfl) fun _ => trivial)
        fun e => ?_
      · split <;> trivial
      · split <;> trivial
  have hreleases : ∀ ended, (RecoveryWorker.releaseParties cfg ended).Performs
      fun o => endsWrapUp o = false := by
    intro ended
    unfold RecoveryWorker.releaseParties SmartDialer.releaseAgent
    rw [if_neg (by decide)]
    exact .bind (Prog.performs_perform.mpr rfl) fun _ => performs_recoverBorrower_notEnding ended
  refine .bind (Prog.performs_perform.mpr rfl) fun orphans => ?_
  suffices hloop : ∀ n, (RecoveryWorker.sweepOrphanedCallsLoop cfg orphans n).Performs
      fun o => endsWrapUp o = false from hloop 0
  induction orphans with
  | nil => exact fun n => trivial
  | cons orphan orphans ih =>
    intro n
    refine .bind (hreconciles orphan) fun targetState =>
      .bind (Prog.performs_perform.mpr rfl) fun finished => ?_
    cases finished with
    | none => exact ih n
    | some finished => exact .bind (hreleases finished) fun _ => ih _

theorem performs_sweepHeartbeatTimeouts_notEnding (now : Time) (limit : Int) :
    (RecoveryWorker.sweepHeartbeatTimeouts cfg now limit).Performs
      fun o => endsWrapUp o = false := by
  refine .bind (Prog.performs_perform.mpr rfl) fun agents => ?_
  suffices hloop : ∀ n, (RecoveryWorker.sweepHeartbeatTimeoutsLoop cfg agents n).Performs
      fun o => endsWrapUp o = false from hloop 0
  induction agents with
  | nil => exact fun n => trivial
  | cons agent agents ih =>
    have hends : endsWrapUp (.transitionAgent agent.id agent.state .OFFLINE .RECOVERY
        agent.stateVersion) = false := by
      cases agent.state <;> rfl
    exact fun n => .bind (performs_cancelBoundCall_notEnding agent _) fun _ =>
      .bind (CallAllocator.performs_transitionAgent hends) fun _ => ih _

/-! ### All jobs

Three jobs end no wrap-up at all, and the other two wait. -/

theorem waiting_performs {α : Type} {x : Py α} (hx : x.Performs fun o => endsWrapUp o = false) :
    (restMachine cfg).Follows h x fun _ _ => True :=
  follows_unruled (S := fun o => endsWrapUp o = false) (fun h _ ho => waits_of_not h ho) hx

/-- The sweeps wait, each with the one reading of the clock. Only the fifth makes the transition in
question, and for agents whom it has found past three times the wrap-up time at that reading. -/
theorem waiting_runSweeps (hsettings : 0 ≤ cfg.settings.WRAP_UP_SECONDS) :
    (restMachine cfg).Follows h (RecoveryWorker.runSweeps cfg) fun _ _ => True := by
  unfold RecoveryWorker.runSweeps
  rw [Prog.bind_def, follows_bind]
  refine (follows_perform ..).mpr ⟨waits_of_not _ rfl, fun r => ?_⟩
  cases r with
  | error e => trivial
  | ok now =>
    -- a reading of the clock stays in the history while sweep after sweep is run
    have hloop : ∀ (sweeps : List (SweepName × Py Nat)) (counts : RecoverySweepCounts)
        (h : History Op Res Exn), (⟨.utcNow, .ok now⟩ : Happening Op Res Exn) ∈ h →
        (∀ entry ∈ sweeps, ∀ h : History Op Res Exn,
          (⟨.utcNow, .ok now⟩ : Happening Op Res Exn) ∈ h →
          (restMachine cfg).Follows h entry.2 fun _ _ => True) →
        (restMachine cfg).Follows h (RecoveryWorker.runSweepsLoop sweeps counts) fun _ _ => True := by
      intro sweeps
      induction sweeps with
      | nil => exact fun _ _ _ _ => trivial
      | cons entry rest ih =>
        intro counts h hclock hsweeps
        have hentry := hsweeps entry List.mem_cons_self h hclock
        unfold RecoveryWorker.runSweepsLoop
        rw [Prog.bind_def, follows_bind, follows_catching, Prog.bind_def, follows_bind]
        refine hentry.grows.mono fun h' r hgrown => ?_
        have hnext := fun counts => ih counts h' (hgrown.1.subset hclock)
          fun entry hentry => hsweeps entry (List.mem_cons_of_mem _ hentry)
        cases r with
        | ok n => exact hnext _
        | error e =>
          dsimp only
          split
          · exact hnext _
          · trivial
    refine hloop _ _ _ (List.mem_append_right _ (List.mem_singleton_self _))
      fun entry hentry h hclock => ?_
    simp only [RecoveryWorker.sweeps, List.mem_cons, List.not_mem_nil, or_false] at hentry
    rcases hentry with rfl | rfl | rfl | rfl | rfl
    · exact waiting_performs (performs_sweepExpiredAgentLeases_notEnding _ _)
    · exact waiting_performs (performs_sweepExpiredBorrowerLeases_notEnding _ _)
    · exact waiting_performs (performs_sweepOrphanedCalls_notEnding _ _)
    · exact waiting_performs (performs_sweepHeartbeatTimeouts_notEnding _ _)
    · exact waiting_sweepStuckWrapUps hsettings hclock

/-- **Every job waits**, whatever its thread has done before. -/
theorem restMachine_job (hsettings : 0 ≤ cfg.settings.WRAP_UP_SECONDS) (job : Job) :
    (restMachine cfg).Follows h (job.program cfg) fun _ _ => True := by
  have hreturns : ∀ {α : Type} {x : Py α} {f : α → Outcome},
      (restMachine cfg).Follows h x (fun _ _ => True) →
      (restMachine cfg).Follows h (x.bind fun a => Prog.ret (f a)) fun _ _ => True := by
    intro α x f hx
    rw [follows_bind]
    refine hx.mono fun h' r _ => ?_
    cases r <;> trivial
  cases job with
  | allocate | processEvent | agentAction =>
    exact waiting_performs (performs_notEnding ⟨nofun, nofun⟩)
  | runSweeps => exact hreturns (waiting_runSweeps hsettings)
  | releaseFinishedWrapUps campaign => exact hreturns (waiting_releaseFinishedWrapUps campaign)

end Jobs

/-! ## The platform

A process makes the steps of its jobs, so what a job's history has shown, the history of the process
has shown as well. -/

section Platform

variable {F : Type} [FloatArith F] {pc : PlatformConfig F}

/-- A process ends a wrap-up when its own history has shown it to be over. -/
def WrapUpShown (settings : Settings) (h : PlatformHistory F) (o : Op ⊕ PlatformOp F) : Prop :=
  ∀ a actor version, o = .inl (.transitionAgent a .WRAP_UP .AVAILABLE actor version) →
    ShownOver settings (fun x => ⟨.inl x.op, x.resp⟩ ∈ h) a version

omit [FloatArith F] in
theorem shown_of_not {settings : Settings} (h : PlatformHistory F) {o : Op}
    (ho : endsWrapUp o = false) : WrapUpShown settings h (.inl o) := by
  intro a actor version heq
  cases heq
  cases ho

/-- The conduct of a job, within a process. -/
theorem shown_job (hsettings : 0 ≤ pc.cfg.settings.WRAP_UP_SECONDS) (job : Job)
    (h : PlatformHistory F) :
    ((platform pc).emitting (WrapUpShown pc.cfg.settings)).Follows h
      (((system pc.cfg).program job).lift) fun _ _ => True := by
  -- the process has made every step of the job
  let rel (h₀ : List (Happening Op Res Exn)) (h : PlatformHistory F) : Prop :=
    ∀ x ∈ h₀, ⟨.inl x.op, x.resp⟩ ∈ h
  have hrel : ∀ h₀ h o, rel h₀ h → (restMachine pc.cfg).Emits h₀ o →
      ((platform pc).emitting (WrapUpShown pc.cfg.settings)).Emits h (.inl o)
        ∧ ∀ r, rel (h₀ ++ [⟨o, r⟩]) (h ++ [⟨.inl o, r⟩]) := by
    refine fun h₀ h o hrel hemits => ⟨?_, fun r x hx => ?_⟩
    · rintro a actor version heq
      cases heq
      exact (hemits a actor version rfl).mono hrel
    · rcases List.mem_append.mp hx with hx | hx
      · exact List.mem_append_left _ (hrel x hx)
      · cases List.mem_singleton.mp hx
        exact List.mem_append_right _ (List.mem_singleton_self _)
  have hnone : rel [] h := fun x hx => absurd hx List.not_mem_nil
  exact (Follows.lifted hrel hnone (restMachine_job hsettings job)).mono fun _ _ _ => trivial

theorem shown_conforms (hsettings : 0 ≤ pc.cfg.settings.WRAP_UP_SECONDS) :
    ((platform pc).emitting (WrapUpShown pc.cfg.settings)).Conforms fun _ _ _ => True := by
  intro job
  have hcomposed : Assembled pc.cfg SystemRegime.anything (PlatformJob.program pc job) :=
    Assembled.program (fun _ _ => trivial) job fun _ => trivial
  refine hcomposed.follows (fun h o a actor version heq => by cases heq) (fun h o ho => ?_)
    (fun job _ h => shown_job hsettings job h) []
  refine shown_of_not h ?_
  rcases ho with (ho | ⟨_, _, rfl⟩) | ⟨a, s, t, v, rfl, ⟨rfl, rfl⟩ | ⟨rfl, rfl⟩⟩ | ⟨a, rfl⟩
  · cases o <;> first | rfl | exact absurd ho Bool.false_ne_true
  all_goals rfl

theorem agentsAge_platform {σ σ' : PlatformStore F} (env : PlatformEnv F) (o : Op ⊕ PlatformOp F)
    (h : AgentsAge σ.base σ'.base) : AgentsAge σ.base (platformExec env o σ').2.base := by
  cases o with
  | inl o => exact h.exec env.base o
  | inr o =>
    rw [platformExec_base]
    exact h

/-- **What a process has been shown** is still so, if the agent is still at that version. An agent
at the same version has not changed state in between, so the instant of his last change is the one
that was shown. -/
theorem ShownOver.still {settings : Settings} {R : PlatformRegime F} {σ₀ : PlatformStore F}
    {w : PlatformWorld F} (h : Reachable (platform pc) R (World.fresh σ₀) w) {p : Nat} {now' : Time}
    (hclock : ∀ e ∈ w.trace, e.env.base.now ≤ now') {a : DocId} {g : Agent}
    (hg : w.store.base.agents.get? a = some g)
    (hshown : ShownOver settings (fun x => ⟨.inl x.op, x.resp⟩ ∈ historyOf p w.trace) a
      g.stateVersion) :
    g.stateChangedAt + seconds settings.WRAP_UP_SECONDS ≤ now' := by
  obtain ⟨hread, hquery, hcutoff, hagent, hid, hversion⟩ := hshown
  rename_i now olderThan limit campaignId agents agent
  -- the reading of the clock
  obtain ⟨⟨p₁, o₁, env₁, r₁⟩, he₁, -, hx₁⟩ := mem_historyOf.mp hread
  cases hx₁
  obtain ⟨v, -, hanswer₁⟩ := h.answered he₁
  have hok : (exec env₁.base .utcNow v.store.base).1 = .ok now := hanswer₁.symm
  rw [exec_of_ok hok] at hok
  have hnow : env₁.base.now = now := Except.ok.inj hok
  -- the agent as the query has answered it
  obtain ⟨⟨p₂, o₂, env₂, r₂⟩, he₂, -, hx₂⟩ := mem_historyOf.mp hquery
  cases hx₂
  obtain ⟨σ, hanswer₂, hages⟩ := h.answered_since (T := fun σ σ' => AgentsAge σ.base σ'.base)
    (fun σ => .refl σ.base) agentsAge_platform he₂
  have hanswered : (exec env₂.base _ σ.base).1 = .ok _ := hanswer₂.symm
  obtain ⟨hfound, hsince⟩ := findExpiredWrapUps_ok hanswered hagent
  obtain ⟨g', hg', hage⟩ := hages agent.id agent hfound
  rw [hid, hg] at hg'
  cases hg'
  rcases hage with hlt | ⟨-, -, hsame⟩
  · exact absurd hversion (Nat.ne_of_lt hlt)
  · calc g.stateChangedAt + seconds settings.WRAP_UP_SECONDS
        ≤ olderThan + seconds settings.WRAP_UP_SECONDS := Int.add_le_add_right (hsame ▸ hsince) _
      _ ≤ now := hcutoff
      _ ≤ now' := hnow ▸ hclock _ he₁

/-- **A wrap-up is never cut short.** Whatever else goes on, fails or is restarted, who becomes
available straight from a wrap-up has been in it for `WRAP_UP_SECONDS`, as long as the clock is not
set back. -/
theorem wrap_up_lasts (hsettings : 0 ≤ pc.cfg.settings.WRAP_UP_SECONDS) {σ₀ : PlatformStore F}
    {w : PlatformWorld F} (h₀ : WrapUpsUnheld σ₀.base)
    (h : Reachable (platform pc) (platformUnder SystemRegime.anything) (World.fresh σ₀) w)
    {p : Nat} {env : PlatformEnv F} (hclock : ∀ e ∈ w.trace, e.env.base.now ≤ env.base.now)
    {a : DocId} {g g' : Agent} (hg : w.store.base.agents.get? a = some g)
    (hg' : (w.act (platform pc) (.perform p env)).store.base.agents.get? a = some g')
    (hstate : g.state = .WRAP_UP) (hstate' : g'.state = .AVAILABLE) :
    g.stateChangedAt + seconds pc.cfg.settings.WRAP_UP_SECONDS ≤ env.base.now := by
  obtain ⟨v, hv, hstore⟩ := dialer_of_reachable (fun _ _ => trivial) (fun _ _ _ _ => trivial) h
  obtain ⟨hworker, hlease⟩ := (hstore ▸ wrapUpsUnheld_of_reachable h₀ hv) a g hg hstate
  -- the step that makes him available is one that writes
  have hchanged : (w.act (platform pc) (.perform p env)).store.base ≠ w.store.base := by
    intro heq
    rw [heq, hg] at hg'
    cases hg'
    cases hstate.symm.trans hstate'
  have hreach := h.step (.perform p env) fun t o k ht hc hprog => by
    cases o with
    | inl o => exact fun _ _ => trivial
    | inr o => trivial
  rcases w.act_cases (M := platform pc) (.perform p env) with heq | ⟨_, _, ha, _⟩ | ⟨_, _, ha, _⟩
    | ⟨_, _, t, o, k, ha, -, -, -, heq⟩
  · exact absurd (by rw [heq]) hchanged
  · cases ha
  · cases ha
  cases ha
  have htrace := congrArg World.trace heq
  rw [heq] at hg' hchanged
  cases o with
  | inr o => exact absurd (platformExec_base env o w.store) hchanged
  | inl o =>
    -- it is a transition out of the wrap-up, and its thread had been shown the wrap-up to be over
    obtain ⟨g'', hg'', hwrite⟩ := exec_agent env.base o hg
    cases hg''.symm.trans hg'
    obtain ⟨actor, rfl⟩ := hwrite.endsWrapUp hstate hstate' hworker hlease
    have hkey : g.id = a := Collection.key_of_get? hg
    exact ShownOver.still h hclock (hkey.symm ▸ hg)
      (hreach.audited (shown_conforms hsettings) htrace g.id actor g.stateVersion rfl)

end Platform

/-! A worker finds an agent who has been in wrap-up for twenty seconds. -/

def tiredPlatform : PlatformStore ℚ where
  base := { demoStore with
    agents := ⟨[{ demoAgent with state := .WRAP_UP, stateVersion := 4 }], List.nodup_singleton _⟩ }
  campaigns := ⟨[demoDocument], List.nodup_singleton _⟩

def twentySecondsLater : PlatformEnv ℚ := { base := { now := 20000 }, healthFactor := 1 }

def resting (n : Nat) : PlatformWorld ℚ :=
  (World.fresh tiredPlatform).acts (platform {})
    (.spawn 0 (.dialerWorker "w" 1) :: List.replicate n (.perform 0 twentySecondsLater))

theorem resting_reachable (n : Nat) : Reachable (platform {})
    (platformUnder SystemRegime.anything) (World.fresh tiredPlatform) (resting n) := by
  refine Reachable.of_acts _ _ (fun p job _ _ => trivial) fun e _ σ st => ?_
  show (platformUnder SystemRegime.anything).guard _ _ _ e.op _
  cases e.op with
  | inl o => exact fun _ _ => trivial
  | inr o => trivial

/-- The worker ends the wrap-up. -/
def rested : PlatformWorld ℚ := (resting 22).act (platform {}) (.perform 0 twentySecondsLater)

theorem wrap_up_lasts_resting : ∃ g g', (resting 22).store.base.agents.get? demoAgent.id = some g
    ∧ rested.store.base.agents.get? demoAgent.id = some g'
    ∧ g.state = .WRAP_UP ∧ g'.state = .AVAILABLE ∧ g.stateChangedAt + 10000 ≤ 20000 := by
  have hbefore : ((resting 22).store.base.agents.get? demoAgent.id).map Agent.state
      = some .WRAP_UP := by decide +kernel
  have hafter : (rested.store.base.agents.get? demoAgent.id).map Agent.state
      = some .AVAILABLE := by decide +kernel
  have hclock : (resting 22).trace.all (fun e => e.env.base.now ≤ 20000) = true := by
    decide +kernel
  obtain ⟨g, hg, hstate⟩ := Option.map_eq_some_iff.mp hbefore
  obtain ⟨g', hg', hstate'⟩ := Option.map_eq_some_iff.mp hafter
  have hunheld : WrapUpsUnheld tiredPlatform.base := by
    intro a g hg _
    cases List.mem_singleton.mp (Collection.mem_of_get? hg)
    exact ⟨rfl, rfl⟩
  have hsettings : (0 : Int) ≤ ({} : PlatformConfig ℚ).cfg.settings.WRAP_UP_SECONDS := by decide
  exact ⟨g, g', hg, hg', hstate, hstate', wrap_up_lasts hsettings hunheld (resting_reachable 22)
    (fun e he => of_decide_eq_true (List.all_eq_true.mp hclock e he)) hg hg' hstate hstate'⟩

end SmartDialer
