import SmartDialer.Calls.Lifecycle
import SmartDialer.Calls.Readiness
import SmartDialer.Platform.System

/-!
# The platform refines the dialer

Every program of the platform is composed of jobs of the dialer, single queries and the acts of
simulated agents, so every run of the platform is, for the documents of the dialer and for the
history of what happens to them, a run of the dialer whose threads run one job each.

The proof has two halves. Every job of the platform is *composed*: it runs jobs of the dialer to
their end, one after another, and asks for nothing of the dialer in between that is not in the
repertoire (`Assembled.program`). And what is in the repertoire can be done by the dialer itself: a
query changes nothing, and what an agent does is done by a thread that runs one action of that agent
(`deed_doable`).
-/

namespace SmartDialer

open Concurrent HostFloat

variable {F α : Type} {R : SystemRegime} {cfg : Config}

/-- A move that agents may make begins with its write. -/
theorem transitionAgent_eq_call {a : DocId} {s t : AgentState} {version : Nat}
    (hmove : s = .OFFLINE ∧ t = .AVAILABLE ∨ s = .AVAILABLE ∧ t = .OFFLINE) :
    transitionAgent a s t .AGENT version = call (.transitionAgent a s t .AGENT version) := by
  rcases hmove with ⟨rfl, rfl⟩ | ⟨rfl, rfl⟩ <;> rfl

/-! ## Programs are composed -/

/-- Built from what the platform asks of the dialer. -/
abbrev Assembled (cfg : Config) (R : SystemRegime) {α : Type} (x : PlatformPy F α) : Prop :=
  Composed (system cfg) (asks R) x

namespace Assembled

theorem asking (o : PlatformOp F) : Assembled cfg R (ask o) := Composed.perform_more o

theorem reading {x : Py α} (hx : x.Performs fun o => (asks R).reads o) :
    Assembled cfg R (dialer F x) :=
  Composed.of_performs (hx.mono fun _ ho => Or.inl ho)

theorem looking {o : Op} (ho : SafetyController.reads o = true) :
    Assembled cfg R (dialer F (call o)) :=
  reading (Prog.performs_perform.mpr (Or.inl ho))

theorem raises (x : Except String α) : Assembled cfg R (raising (F := F) x) := by
  cases x with
  | ok a => exact .ret a
  | error e => exact .raise _

theorem guarded {x : PlatformPy F α} (hx : Assembled cfg R x) (handled : α) :
    Assembled cfg R (exceptException x handled) := by
  refine hx.catching fun e => ?_
  split
  · exact .ret handled
  · exact .raise e

variable (hR : ∀ job, job ≠ .runSweeps → job.start.allocates = false → R.admits job)
  (hdial : ∀ campaign approved workerId, R.admits (.allocate campaign approved workerId))

/-! ### Workers -/

section Workers

variable [FloatArith F] {pc : PlatformConfig F}

theorem querySnapshot (settings : SafetySettings F) (workerId : WorkerId)
    (campaign : PacedCampaign F) :
    Assembled cfg R (MetricsSnapshotBuilder.querySnapshot settings workerId campaign) := by
  have hlong : ∀ now (avgTalkTime : F), Assembled cfg R
      (MetricsSnapshotBuilder.queryLongConnected campaign.id now avgTalkTime) := by
    intro now avgTalkTime
    unfold MetricsSnapshotBuilder.queryLongConnected
    split
    · exact (raises _).bind fun _ => asking _
    · exact .ret 0
  unfold MetricsSnapshotBuilder.querySnapshot
  refine (looking rfl).bind fun _ => (looking rfl).bind fun _ => (looking rfl).bind fun _ =>
    (asking _).bind fun _ => (asking _).bind fun _ => (raises _).bind fun _ =>
    (looking rfl).bind fun _ => (looking rfl).bind fun _ => (hlong _ _).bind fun _ =>
    (asking _).bind fun _ => (looking rfl).bind fun _ => (asking _).bind fun _ => .ret _

include hdial

theorem tick (settings : SafetySettings F) (tracker : AgentAvailabilityTracker)
    (campaign : Campaign) (request : PacingRequest F) (pacingDecisionId : Option DocId)
    (workerId : WorkerId) :
    Assembled cfg R (dialer F
      (DialerBase.tick settings cfg tracker campaign request pacingDecisionId workerId)) := by
  unfold dialer DialerBase.tick
  simp only [Prog.bind_def, Prog.lift_bind]
  refine (reading ((SafetyController.performs_evaluate _ _ _ _ _).mono fun _ ho => Or.inl ho)).bind
    fun answer => ?_
  refine (Composed.job (.allocate campaign answer.1.approved workerId) (hdial _ _ _)
    Outcome.allocation rfl).bind fun _ => .ret _

theorem tickCampaign (engine : PacingEngineConfig F) (campaign : PacedCampaign F)
    (workerId : WorkerId) :
    Assembled pc.cfg R (DialerBase.tickCampaign pc engine campaign workerId) := by
  have hrecord : ∀ request : PacingRequest F,
      Assembled pc.cfg R (DialerBase.recordRequest campaign.id request) := by
    intro request
    unfold DialerBase.recordRequest
    split
    · exact .ret none
    · exact (asking _).bind fun _ => .ret _
  unfold DialerBase.tickCampaign
  exact (querySnapshot _ _ _).bind fun _ => (hrecord _).bind fun _ => (asking _).bind fun _ =>
    tick hdial _ _ _ _ _ _

include hR

omit [FloatArith F] hdial in
theorem releaseFinishedWrapUps (campaign : Campaign) :
    Assembled cfg R (dialer F (WrapUpService.releaseFinishedWrapUps cfg campaign)) :=
  Composed.job (.releaseFinishedWrapUps campaign) (hR _ (by nofun) rfl) (fun _ => Outcome.wrapUps) rfl

/-- A worker's rounds are ticks and wrap-up releases, with campaigns listed in between. -/
theorem dialerWorker (workerId : WorkerId) (rounds : Nat) :
    Assembled pc.cfg R (DialerWorker.run pc workerId rounds) := by
  -- one campaign: a tick, then the wrap-ups, and what fails is caught
  have hcampaign : ∀ campaign : PacedCampaign F,
      Assembled pc.cfg R (DialerWorker.tickCampaign pc workerId campaign) := fun campaign =>
    guarded ((tickCampaign hdial _ campaign workerId).bind fun _ =>
      releaseFinishedWrapUps hR campaign.toCampaign) ()
  have hloop : ∀ campaigns, Assembled pc.cfg R (DialerWorker.tickLoop pc workerId campaigns) := by
    intro campaigns
    induction campaigns with
    | nil => exact .ret ()
    | cons campaign campaigns ih => exact (hcampaign _).bind fun _ => ih
  -- on the rounds: each is one listing and the campaigns in it
  induction rounds with
  | zero => exact .ret ()
  | succ n ih =>
    have honce : Assembled pc.cfg R (DialerWorker.runOnce pc workerId) :=
      (asking (.findRunning 100)).bind fun campaigns => hloop campaigns
    exact (guarded honce ()).bind fun _ => ih

omit hR hdial in
theorem recoveryWorker (hsweeps : R.admits .runSweeps) (rounds : Nat) :
    Assembled pc.cfg R (RecoveryWorker.run pc rounds) := by
  induction rounds with
  | zero => exact .ret ()
  | succ n ih =>
    have honce : Assembled pc.cfg R (dialer F (RecoveryWorker.runSweeps pc.cfg)) :=
      Composed.job .runSweeps hsweeps Outcome.sweeps rfl
    exact (guarded (honce.bind fun _ => .ret ()) ()).bind fun _ => ih

end Workers

/-! ### Events -/

include hR

theorem processEvent (event : ProviderEvent) :
    Assembled cfg R (dialer F (EventProcessor.processEvent cfg event)) :=
  Composed.job (.processEvent event) (hR _ (by nofun) rfl) Outcome.event rfl

theorem deliverEvents (events : List ProviderEvent) :
    Assembled cfg R (MockProvider.deliverEvents (F := F) cfg events) := by
  induction events with
  | nil => exact .ret ()
  | cons event events ih =>
    exact ((asking _).bind fun _ => processEvent hR event).bind fun _ => ih

theorem replay (events : List ProviderEvent) :
    Assembled cfg R (FaultInjector.replay (F := F) cfg events) := by
  induction events with
  | nil => exact .ret []
  | cons event events ih => exact (processEvent hR event).bind fun _ => ih.bind fun _ => .ret _

omit hR in
theorem replayableEvents (providerCallId : Option String) :
    Assembled cfg R (FaultInjector.replayableEvents (F := F) providerCallId) := by
  cases providerCallId with
  | none => exact asking _
  | some p => exact asking _

/-! ### Agents -/

omit hR in
theorem acting {agentId : DocId} {s t : AgentState} {version : Nat}
    (hmove : s = .OFFLINE ∧ t = .AVAILABLE ∨ s = .AVAILABLE ∧ t = .OFFLINE) :
    Assembled cfg R (dialer F (SmartDialer.transitionAgent agentId s t .AGENT version)) := by
  rw [transitionAgent_eq_call hmove]
  exact Composed.of_performs (Prog.performs_perform.mpr
    (Or.inr (Or.inl ⟨agentId, s, t, version, rfl, hmove⟩)))

omit hR in
theorem beating (agentId : DocId) : Assembled cfg R (dialer F (call (.heartbeat agentId))) :=
  Composed.of_performs (Prog.performs_perform.mpr (Or.inr (Or.inr ⟨agentId, rfl⟩)))

omit hR in
/-- Logging everyone in is one transition and one heartbeat for each agent who is offline. -/
theorem logEveryoneIn (campaignId : DocId) :
    Assembled cfg R (AgentSimulator.logEveryoneIn (F := F) campaignId) := by
  have hloop : ∀ agents n, Assembled cfg R (AgentSimulator.logInLoop (F := F) agents n) := by
    intro agents
    induction agents with
    | nil => exact fun n => .ret n
    | cons agent agents ih =>
      intro n
      unfold AgentSimulator.logInLoop
      split
      · exact ih n
      · refine (acting (Or.inl ⟨rfl, rfl⟩)).bind fun updated => ?_
        cases updated with
        | none => exact ih n
        | some _ => exact (beating _).bind fun _ => ih _
  exact (asking _).bind fun agents => hloop agents 0

omit hR in
/-- Taking agents offline is one transition for each who is available, until enough are gone. -/
theorem takeAgentsOffline (campaignId : DocId) (count : Int) :
    Assembled cfg R (AgentSimulator.takeAgentsOffline (F := F) campaignId count) := by
  have hloop : ∀ agents n,
      Assembled cfg R (AgentSimulator.takeOfflineLoop (F := F) count agents n) := by
    intro agents
    induction agents with
    | nil => exact fun n => .ret n
    | cons agent agents ih =>
      intro n
      unfold AgentSimulator.takeOfflineLoop
      split
      -- enough have been taken
      · exact .ret n
      · split
        · exact ih n
        · refine (acting (Or.inr ⟨rfl, rfl⟩)).bind fun updated => ?_
          cases updated with
          | none => exact ih n
          | some _ => exact ih _
  exact (asking _).bind fun agents => hloop agents 0

omit hR in
theorem heartbeats (campaignId : DocId) (rounds : Nat) :
    Assembled cfg R (AgentSimulator.heartbeats (F := F) campaignId rounds) := by
  have hloop : ∀ agents, Assembled cfg R (AgentSimulator.beatLoop (F := F) agents) := by
    intro agents
    induction agents with
    | nil => exact .ret ()
    | cons agent agents ih =>
      unfold AgentSimulator.beatLoop
      split
      · exact (beating _).bind fun _ => ih
      · exact ih
  induction rounds with
  | zero => exact .ret ()
  | succ n ih => exact (asking _).bind fun agents => (hloop agents).bind fun _ => ih

/-! ### Requests and onlookers -/

omit hR in
theorem summarised (campaign : Option (CampaignDocument F)) :
    Assembled cfg R (CampaignRoutes.toSummary campaign) := by
  cases campaign with
  | none => exact .raise _
  | some campaign => exact .ret campaign

omit hR in
theorem requireCampaign (campaignId : DocId) :
    Assembled cfg R (CampaignRoutes.requireCampaign (F := F) campaignId) := by
  refine (asking (.findCampaignById campaignId)).bind fun campaign => ?_
  cases campaign with
  | none => exact .raise _
  | some campaign => exact .ret campaign

omit hR in
theorem check (settings : Settings) (campaignId : DocId) (final : Bool) :
    Assembled cfg R (InvariantChecker.check (F := F) settings campaignId final) := by
  have hstale : ∀ olderThan limit,
      Assembled cfg R (dialer F (call (.findStaleCalls olderThan limit))) :=
    fun olderThan limit => reading (Prog.performs_perform.mpr (Or.inr ⟨olderThan, limit, rfl⟩))
  unfold InvariantChecker.check
  refine (asking _).bind fun _ => (looking rfl).bind fun _ => ?_
  dsimp only
  split
  · unfold InvariantChecker.checkFinalState
    exact ((looking rfl).bind fun _ => (hstale _ _).bind fun _ => .ret _).bind fun _ => .ret _
  · exact .ret _

/-- Every job but a dialer worker's. Their programs are sequences of jobs and single operations
already, and only have to be read as such. -/
theorem other [FloatArith F] {pc : PlatformConfig F} (job : PlatformJob F)
    (hworker : ∀ workerId rounds, job ≠ .dialerWorker workerId rounds)
    (hjob : job.recovers = true → R.admits .runSweeps) :
    Assembled pc.cfg R (PlatformJob.program pc job) := by
  cases job with
  | dialerWorker workerId rounds => exact absurd rfl (hworker workerId rounds)
  | recoveryWorker rounds => exact (recoveryWorker (hjob rfl) rounds).bind fun _ => .ret _
  | deliverEvents events => exact (deliverEvents hR events).bind fun _ => .ret _
  | duplicateEventBurst p =>
    exact ((replayableEvents p).bind fun events => replay hR events).bind fun _ => .ret _
  -- the same replay, backwards
  | outOfOrderBurst p =>
    exact ((replayableEvents p).bind fun events => replay hR events.reverse).bind fun _ => .ret _
  | agentAction agentId action =>
    exact (Composed.job (.agentAction agentId action) (hR _ (by nofun) rfl) Outcome.agent rfl).bind
      fun _ => .ret _
  | logEveryoneIn c => exact (logEveryoneIn c).bind fun _ => .ret _
  | takeAgentsOffline c n => exact (takeAgentsOffline c n).bind fun _ => .ret _
  | heartbeats c rounds => exact (heartbeats c rounds).bind fun _ => .ret _
  | createCampaign campaign => exact ((asking _).bind fun _ => .ret _).bind fun _ => .ret _
  | changeStatus c action =>
    exact ((requireCampaign c).bind fun _ => (asking _).bind fun _ => summarised _).bind
      fun _ => .ret _
  | setMode c mode =>
    exact ((requireCampaign c).bind fun _ => (asking _).bind fun _ => summarised _).bind
      fun _ => .ret _
  | check c final => exact (check _ c final).bind fun _ => .ret _

omit hR in
/-- **Every job of the platform** that may run is composed. -/
theorem program [FloatArith F] {pc : PlatformConfig F} (hall : ∀ job, job ≠ .runSweeps → R.admits job)
    (job : PlatformJob F) (hjob : job.recovers = true → R.admits .runSweeps) :
    Assembled pc.cfg R (PlatformJob.program pc job) := by
  by_cases hworker : ∃ workerId rounds, job = .dialerWorker workerId rounds
  · obtain ⟨workerId, rounds, rfl⟩ := hworker
    exact (dialerWorker (fun job hjob _ => hall job hjob) (fun _ _ _ => hall _ (by nofun)) workerId
      rounds).bind fun _ => .ret _
  · exact other (fun job hjob _ => hall job hjob) job
      (fun workerId rounds heq => hworker ⟨workerId, rounds, heq⟩) hjob

end Assembled

/-! ## What agents do by themselves

A simulator moves agents with its own reading of them, so between the reading and the write there is
no job of the dialer. The write is done by a thread of the dialer that is started for it: it looks
the agent up, finds him as the write expects him, and makes the same transition. Where the write
would find him otherwise, it changes nothing and needs no thread. -/

/-- The answer of looking up an agent, when nothing fails. -/
theorem exec_findAgentById (a : DocId) (σ : Store) :
    exec {} (.findAgentById a) σ = (.ok (σ.agents.get? a), σ) := rfl

theorem leads_op {x : Py Outcome} {h : List (Moment Op Store Env)} {o : Op}
    (hx : ∃ y, x.Leads exec h y ∧ ∃ k, y = .op o k) : ∃ k, x.Leads exec h (.op o k) := by
  obtain ⟨y, hy, k, rfl⟩ := hx
  exact ⟨k, hy⟩

/-- An agent who is offline can log in, and one who is available log out. -/
theorem move_leads {a : DocId} {d : Agent} {σ : Store} (hd : σ.agents.get? a = some d)
    {t : AgentState} (hmove : d.state = .OFFLINE ∧ t = .AVAILABLE
      ∨ d.state = .AVAILABLE ∧ t = .OFFLINE) :
    ∃ action k, ((system cfg).program (.agentAction a action)).Leads exec
      [⟨.findAgentById a, σ, {}⟩] (.op (.transitionAgent a d.state t .AGENT d.stateVersion) k) := by
  have hid : d.id = a := DocStore.Collection.key_of_get? hd
  -- whatever follows the write
  have hwrite : ∀ (g : Option Agent → Py (Option Agent)) (f : Option Agent → Py Outcome), ∃ k,
      ((transitionAgent d.id d.state t .AGENT d.stateVersion).bind g).bind f
        = .op (.transitionAgent a d.state t .AGENT d.stateVersion) k := by
    intro g f
    rw [transitionAgent_eq_call hmove, hid]
    exact ⟨_, rfl⟩
  -- the action that makes this move
  rcases hmove with ⟨-, rfl⟩ | ⟨-, rfl⟩
  · refine ⟨"login", leads_op ⟨_, ⟨rfl, Prog.leads_nil.mpr rfl⟩, ?_⟩⟩
    rw [exec_findAgentById, hd]
    exact hwrite _ _
  · refine ⟨"logout", leads_op ⟨_, ⟨rfl, Prog.leads_nil.mpr rfl⟩, ?_⟩⟩
    rw [exec_findAgentById, hd]
    exact hwrite _ _

/-- An agent who is there can send a heartbeat. -/
theorem heartbeat_leads {a : DocId} {d : Agent} {σ : Store} (hd : σ.agents.get? a = some d) :
    ∃ k, ((system cfg).program (.agentAction a "heartbeat")).Leads exec
      [⟨.findAgentById a, σ, {}⟩] (.op (.heartbeat a) k) := by
  have hid : d.id = a := DocStore.Collection.key_of_get? hd
  have hwrite : ∀ (g : Bool → Py (Option Agent)) (f : Option Agent → Py Outcome), ∃ k,
      ((call (.heartbeat d.id)).bind g).bind f = .op (.heartbeat a) k := by
    rw [hid]
    exact fun _ _ => ⟨_, rfl⟩
  refine leads_op ⟨_, ⟨rfl, Prog.leads_nil.mpr rfl⟩, ?_⟩
  rw [exec_findAgentById, hd]
  exact hwrite _ _

/-- An operation on an agent who is not there, or not as expected, changes nothing. Otherwise a
request at the action endpoint could have come to it after reading the agent, and this job is what
the lemma names. -/
theorem deed_doable (hR : ∀ job, job ≠ .runSweeps → R.admits job)
    (hlook : ∀ σ st p a, R.guard σ st p (.findAgentById a) {}) {o : Op} (ho : (asks R).deeds o)
    (env : Env) (σ : Store) : Doable (system cfg) R (asks R) o env σ := by
  -- looking up an agent is allowed and leaves the store as it is
  have hmoment : ∀ a, ∀ m ∈ [(⟨.findAgentById a, σ, {}⟩ : Moment Op Store Env)],
      m.found = σ ∧ m.left (system cfg).exec = σ ∧ (asks R).told m.op = false
        ∧ ∀ live p, R.guard σ live p m.op m.env := by
    intro a m hm
    rw [List.mem_singleton.mp hm]
    exact ⟨rfl, rfl, rfl, fun st p => hlook σ st p a⟩
  rcases ho with ⟨a, s, t, v, rfl, hmove⟩ | ⟨a, rfl⟩
  -- a transition: somebody is there in that state at that version, or the filter finds nobody
  · by_cases hmatch : ∃ d, σ.agents.get? a = some d ∧ d.state = s ∧ d.stateVersion = v
    · obtain ⟨d, hd, rfl, rfl⟩ := hmatch
      obtain ⟨action, k, hleads⟩ : ∃ action k, ((system cfg).program (.agentAction a action)).Leads
          exec [⟨.findAgentById a, σ, {}⟩] _ := move_leads hd hmove
      exact Or.inr ⟨.agentAction a action, _, k, hR _ (by nofun), hleads, hmoment a⟩
    · refine Or.inl ?_
      rcases exec_store env (.transitionAgent a s t .AGENT v) σ with hstore | hstore
      · exact hstore
      · refine hstore.trans ?_
        have hsame : (AgentRepo.transitionAgent env.now a s t v σ.agents).2 = σ.agents :=
          DocStore.Collection.update_of_not_match (f := AgentRepo.transitionUpdate env.now s t)
            (fun _ => rfl) fun d hd hm => hmatch ⟨d, hd, hm⟩
        show { σ with agents := (AgentRepo.transitionAgent env.now a s t v σ.agents).2 } = σ
        rw [hsame]
  -- a heartbeat: somebody is there, or the update finds nobody
  · cases hd : σ.agents.get? a with
    | some d =>
      obtain ⟨k, hleads⟩ : ∃ k, ((system cfg).program (.agentAction a "heartbeat")).Leads
          exec [⟨.findAgentById a, σ, {}⟩] _ := heartbeat_leads hd
      exact Or.inr ⟨.agentAction a "heartbeat", _, k, hR _ (by nofun), hleads, hmoment a⟩
    | none =>
      refine Or.inl ?_
      rcases exec_store env (.heartbeat a) σ with hstore | hstore
      · exact hstore
      · refine hstore.trans ?_
        have hsame : (AgentRepo.heartbeat env.now a σ.agents).2 = σ.agents :=
          DocStore.Collection.update_of_not_match (p := fun _ => True)
            (f := fun d : Agent => { d with lastHeartbeatAt := some env.now }) (fun _ => rfl)
            fun d hd' _ => absurd (hd.symm.trans hd') (by nofun)
        show { σ with agents := (AgentRepo.heartbeat env.now a σ.agents).2 } = σ
        rw [hsame]

/-! ## Refinement

The platform extends the system by operations that leave its store alone, and its jobs are composed
of jobs, queries and deeds; `Machine.Covers` turns the two into a simulation. -/

section Refines

variable [FloatArith F] {pc : PlatformConfig F}

theorem platform_extends :
    Extends (platform pc) (system pc.cfg) PlatformStore.base PlatformEnv.base where
  answer := fun _ _ _ => rfl
  store := fun _ _ _ => rfl
  more := platformExec_base

/-- What the platform asks of the dialer, the dialer can do under the same rules. -/
theorem platformUnder_covers (hR : ∀ job, job ≠ .runSweeps → R.admits job)
    (hlook : ∀ σ st p a, R.guard σ st p (.findAgentById a) {}) :
    (platformUnder R : PlatformRegime F).Covers (system pc.cfg) R (asks R)
      PlatformStore.base PlatformEnv.base where
  admits := fun _ hjob => hjob
  guard := fun hg => hg
  reads := fun ho env σ => by
    rcases ho with ho | ⟨olderThan, limit, rfl⟩
    · exact SafetyController.exec_of_reads ho env σ
    · rcases exec_store env (.findStaleCalls olderThan limit) σ with h | h <;> exact h
  -- what an agent does is done by a thread of his own
  deeds := fun _ ho => deed_doable hR hlook ho _ _
  -- queries and the acts of agents are left out of what is told
  told := fun ho => by
    rcases ho with (ho | ⟨olderThan, limit, rfl⟩) | ⟨a, s, t, v, rfl, -⟩ | ⟨a, rfl⟩
    · rename_i o
      cases o <;> first | rfl | exact absurd ho Bool.false_ne_true
    · rfl
    · rfl
    · rfl

/-- **The platform refines the dialer.** Under rules that do not ask who performs an operation, a
run of the platform with all its processes leaves the documents a run of the dialer leaves, in which
every thread runs one job, and everything but queries and the acts of agents has happened in the
same order with the same answers. -/
theorem platform_refines {R : SystemRegime} (hR : ∀ job, job ≠ .runSweeps → R.admits job)
    (hlook : ∀ σ st p a, R.guard σ st p (.findAgentById a) {}) {σ₀ : PlatformStore F}
    {w : PlatformWorld F} (h : Reachable (platform pc) (platformUnder R) (World.fresh σ₀) w) :
    ∃ v : SystemWorld, Reachable (system pc.cfg) R (World.fresh σ₀.base) v
      ∧ v.store = w.store.base
      ∧ told (asks R).told v.trace
        = told (asks R).told (w.trace.flatMap (Entry.below PlatformEnv.base)) :=
  h.mirrored platform_extends (platformUnder_covers hR hlook)
    fun job hjob => Assembled.program hR job hjob

/-- The store alone: what every run of the dialer keeps, every run of the platform keeps. -/
theorem dialer_of_reachable {R : SystemRegime} (hR : ∀ job, job ≠ .runSweeps → R.admits job)
    (hlook : ∀ σ st p a, R.guard σ st p (.findAgentById a) {}) {σ₀ : PlatformStore F}
    {w : PlatformWorld F} (h : Reachable (platform pc) (platformUnder R) (World.fresh σ₀) w) :
    ∃ v : SystemWorld, Reachable (system pc.cfg) R (World.fresh σ₀.base) v
      ∧ v.store = w.store.base := by
  obtain ⟨v, hv, hstore, -⟩ := h.mirrored platform_extends (platformUnder_covers hR hlook)
    fun job hjob => Assembled.program hR job hjob
  exact ⟨v, hv, hstore⟩

end Refines

/-! The refinement at a worker in its first round over one campaign. -/

def demoDocument : CampaignDocument ℚ :=
  { demoCampaign with baselineAnswerRate := 1, name := "demo", status := .RUNNING }

def demoPlatform : PlatformStore ℚ where
  base := demoStore
  campaigns := ⟨[demoDocument], by decide⟩

def demoPlatformEnv : PlatformEnv ℚ := { base := demoEnv, healthFactor := 1 }

def firstRound : List (Action (PlatformJob ℚ) (PlatformEnv ℚ)) :=
  .spawn 0 (.dialerWorker "w" 1) :: List.replicate 33 (.perform 0 demoPlatformEnv)

def working : PlatformWorld ℚ := (World.fresh demoPlatform).acts (platform {}) firstRound

theorem working_reachable : Reachable (platform {}) (platformUnder SystemRegime.anything)
    (World.fresh demoPlatform) working := by
  refine Reachable.of_acts _ firstRound (fun p job _ _ => trivial) fun e _ σ st => ?_
  show (platformUnder SystemRegime.anything).guard _ _ _ e.op _
  cases e.op with
  | inl o => exact fun _ _ => trivial
  | inr o => trivial

theorem platform_refines_working : ∃ v : SystemWorld,
    Reachable (system {}) SystemRegime.anything (World.fresh demoStore) v
      ∧ v.store = working.store.base
      ∧ told (asks SystemRegime.anything).told v.trace = told (asks SystemRegime.anything).told
        (working.trace.flatMap (Entry.below PlatformEnv.base)) :=
  platform_refines (fun _ _ => trivial) (fun _ _ _ _ => trivial) working_reachable

/-- The worker has dialled. -/
example : (working.store.base.calls.coll.find fun d => d.terminal = false).length = 1 := by
  decide +kernel

end SmartDialer
