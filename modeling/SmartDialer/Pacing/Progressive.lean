import SmartDialer.Calls.Lifecycle
import SmartDialer.Pacing.Bounds

/-!
# What the progressive dialer requests

The forced answer rate, margin and weight make the calls needed the free agents. The in-flight
correction of the formula stays: ringing and initiated calls and reserved agents are subtracted from
the free agents, so that the calls in flight and those requested are together no more than the free
agents.
-/

namespace SmartDialer

open DocStore Concurrent HostFloat

/-! ## Snapshots and stores

A snapshot that `build_snapshot` makes in one go counts the store it was made from. That every call
in set-up has an agent of its own is a property of the store, as the allocator leaves it. -/

/-- The call rings or is about to. -/
def Call.isSetUp (d : Call) : Bool := d.state = .RINGING ∨ d.state = .INITIATED

/-- Every call of the campaign that is being set up has an agent of its own, who is `DIALING` or
`RESERVED`. -/
structure SetUpsBound (σ : Store) (campaignId : DocId) : Prop where
  bound : ∀ d ∈ σ.calls.coll.docs, d.campaignId = campaignId → d.isSetUp →
    ∃ g, σ.agents.get? d.agentId = some g ∧ (g.state = .DIALING ∨ g.state = .RESERVED)
  distinct : ∀ d ∈ σ.calls.coll.docs, ∀ e ∈ σ.calls.coll.docs, d.campaignId = campaignId →
    e.campaignId = campaignId → d.isSetUp → e.isSetUp → d.agentId = e.agentId → d = e

/-- The snapshot counts the agents and calls of the store. -/
structure Consistent {F : Type} (σ : Store) (snapshot : PacingSnapshot F) : Prop where
  available :
    snapshot.availableAgents = AgentRepo.countByState snapshot.campaignId σ.agents .AVAILABLE
  reserved : snapshot.reservedAgents = AgentRepo.countByState snapshot.campaignId σ.agents .RESERVED
  ringing : snapshot.ringingCalls = CallRepo.countByState snapshot.campaignId σ.calls .RINGING
  initiated : snapshot.initiatedCalls = CallRepo.countByState snapshot.campaignId σ.calls .INITIATED
  setUps : SetUpsBound σ snapshot.campaignId

/-- `build_snapshot` counts what is in the store. -/
theorem buildSnapshot_consistent {F : Type} [FloatArith F] {settings : HealthSettings F} {window : F}
    {campaign : PacedCampaign F} {now : Time} {healthRead factorRead : F} {σ : Store}
    {builder builder' : MetricsSnapshotBuilder F} {snapshot : PacingSnapshot F}
    (h : builder.buildSnapshot settings window campaign now healthRead factorRead σ
      = .ok (snapshot, builder')) (hbound : SetUpsBound σ campaign.id) : Consistent σ snapshot := by
  unfold MetricsSnapshotBuilder.buildSnapshot at h
  -- the three computations that can raise have succeeded, or there would be no snapshot
  cases htalk : MetricsSnapshotBuilder.averageTalkTimeSeconds (F := F) campaign.id σ.calls with
  | error raised => rw [htalk] at h; cases h
  | ok talk =>
    cases hwindow : MetricsSnapshotBuilder.timedelta window with
    | error raised => rw [htalk, hwindow] at h; cases h
    | ok millis =>
      cases hlong : MetricsSnapshotBuilder.longConnected campaign.id now talk σ.agents with
      | error raised =>
        rw [htalk, hwindow] at h
        dsimp only [bind, Except.bind] at h
        rw [hlong] at h
        cases h
      | ok count =>
        rw [htalk, hwindow] at h
        dsimp only [bind, Except.bind] at h
        rw [hlong] at h
        cases h
        exact ⟨rfl, rfl, rfl, rfl, hbound⟩

/-! ## The request

With the forced rate, margin and weight of `ProgressiveDialer` the formula collapses to a difference
of counts. -/

section Request

variable (settings : PacingSettings ℚ) (snapshot : PacingSnapshot ℚ)

theorem progressive_rate :
    effectiveAnswerRate snapshot (ProgressiveDialer.engineConfig settings) = 1 := by
  show ((1 : Int) : ℚ) / (1 : Int) = 1
  norm_num

theorem progressive_callsNeeded :
    callsNeeded snapshot (ProgressiveDialer.engineConfig settings) = snapshot.availableAgents := by
  have hweight : (ProgressiveDialer.engineConfig settings).soonFreeWeight = 0 := by
    show ((0 : Int) : ℚ) / (1 : Int) = 0
    norm_num
  rw [callsNeeded, progressive_rate, freeCapacity_rat, hweight]
  ring

theorem progressive_rawRequest :
    rawRequest snapshot (ProgressiveDialer.engineConfig settings)
      = max 0 (snapshot.availableAgents - inFlight snapshot) := by
  rw [rawRequest, progressive_callsNeeded]
  have hcast : max 0 ((snapshot.availableAgents : ℚ) - inFlight snapshot)
      = ((max 0 (snapshot.availableAgents - inFlight snapshot) : Int) : ℚ) := by
    push_cast
    rfl
  rw [hcast, Int.floor_intCast]

variable {settings snapshot}

/-- Neither health nor volatility take anything away. -/
theorem progressive_scaledBy (hhealth : snapshot.healthFactor = healthFactors .HEALTHY)
    (hsteady : volatile snapshot (ProgressiveDialer.engineConfig settings) = false) (raw : Int) :
    scaledBy snapshot (ProgressiveDialer.engineConfig settings) raw = raw := by
  have hone : (FloatOps.divInt 1 1 : ℚ) = 1 := by
    show ((1 : Int) : ℚ) / (1 : Int) = 1
    norm_num
  have hmargin : (ProgressiveDialer.engineConfig settings).safetyMargin = 1 := hone
  have hfactor : (healthFactors .HEALTHY : ℚ) = 1 := hone
  rw [scaledBy, hmargin, hhealth, hfactor, volatilityFactorOf, hsteady, if_neg Bool.false_ne_true,
    hone]
  ring

end Request

/-- **What the progressive dialer requests** from a healthy provider at a steady answer rate: one
call for each free agent less what is in flight, up to the cap. With it, there are no more calls in
flight than free agents, unless there were before. It is one call for each free agent, up to the cap,
exactly when nothing is in flight, nobody is free, or what is left still reaches the cap. -/
theorem progressive_request (settings : PacingSettings ℚ) (snapshot : PacingSnapshot ℚ)
    (hhealth : snapshot.healthFactor = healthFactors .HEALTHY)
    (hsteady : volatile snapshot (ProgressiveDialer.engineConfig settings) = false)
    (havailable : 0 ≤ snapshot.availableAgents) (hringing : 0 ≤ snapshot.ringingCalls)
    (hinitiated : 0 ≤ snapshot.initiatedCalls) (hreserved : 0 ≤ snapshot.reservedAgents) :
    (computeRequest snapshot (ProgressiveDialer.engineConfig settings)).requested
        = min (max 0 (snapshot.availableAgents - inFlight snapshot)) settings.MAX_REQUEST_PER_TICK
    ∧ (computeRequest snapshot (ProgressiveDialer.engineConfig settings)).requested
        + inFlight snapshot ≤ max snapshot.availableAgents (inFlight snapshot)
    ∧ ((computeRequest snapshot (ProgressiveDialer.engineConfig settings)).requested
          = min snapshot.availableAgents settings.MAX_REQUEST_PER_TICK
        ↔ inFlight snapshot = 0 ∨ snapshot.availableAgents = 0
          ∨ settings.MAX_REQUEST_PER_TICK
            ≤ max 0 (snapshot.availableAgents - inFlight snapshot)) := by
  have hrate : effectiveAnswerRate snapshot (ProgressiveDialer.engineConfig settings) ≠ 0 := by
    rw [progressive_rate]
    exact one_ne_zero
  have hrequested := (compute_rat snapshot (ProgressiveDialer.engineConfig settings) hrate).2
  rw [progressive_scaledBy hhealth hsteady, Int.floor_intCast, progressive_rawRequest] at hrequested
  have hcap : (ProgressiveDialer.engineConfig settings).maxRequestPerTick
      = settings.MAX_REQUEST_PER_TICK := rfl
  rw [hcap] at hrequested
  have hinFlight : 0 ≤ inFlight snapshot :=
    Int.add_nonneg (Int.add_nonneg hringing hinitiated) hreserved
  -- from here on it is arithmetic of the three counts
  rw [hrequested]
  refine ⟨rfl, ?_, ?_⟩
  · omega
  · omega

/-! The theorem at a tick with thirty free agents and twenty-one calls and reservations in flight. -/

theorem progressive_request_busyTick :
    (computeRequest (busyTick 30) (ProgressiveDialer.engineConfig {})).requested = 9 := by
  have hsteady : volatile (busyTick 30) (ProgressiveDialer.engineConfig {}) = false := by
    decide +kernel
  have hhealth : (busyTick 30).healthFactor = healthFactors .HEALTHY := by decide +kernel
  have hsound : Plausible (busyTick 30) := plausible_busyTick (by decide)
  exact (progressive_request {} (busyTick 30) hhealth hsteady hsound.available hsound.ringing
    hsound.initiated hsound.reserved).1

/-! A campaign of two agents, with one of whom a worker is dialling: the other is free, and nothing is
requested for him. -/

/-- The provider has accepted the call, which has not rung yet. -/
def dialled : SystemWorld := (World.fresh twoAgents).acts (system {}) attachedActions

def steadyCampaign : PacedCampaign ℚ := { demoCampaign with baselineAnswerRate := 1 / 2 }

theorem dialled_setUps : SetUpsBound dialled.store steadyCampaign.id := by
  have hdocs : dialled.store.calls.coll.docs.map Call.agentId = [demoAgent.id] := by decide +kernel
  have hagent : (dialled.store.agents.get? demoAgent.id).map Agent.state = some .DIALING := by
    decide +kernel
  obtain ⟨d, hd, hagentId⟩ := List.map_eq_singleton_iff.mp hdocs
  refine ⟨fun e he _ _ => ?_, fun e he f hf _ _ _ _ _ => ?_⟩
  · rw [hd, List.mem_singleton] at he
    obtain ⟨g, hg, hstate⟩ := Option.map_eq_some_iff.mp hagent
    exact ⟨g, by rw [he, hagentId, hg], Or.inl hstate⟩
  · rw [hd, List.mem_singleton] at he hf
    rw [he, hf]

theorem free_agent_not_dialled : ∃ snapshot builder,
    MetricsSnapshotBuilder.buildSnapshot {} 120 steadyCampaign 0 0 0 dialled.store {}
        = .ok (snapshot, builder)
      ∧ Consistent dialled.store snapshot ∧ snapshot.providerStatus = .HEALTHY
      ∧ snapshot.healthFactor = healthFactors .HEALTHY
      ∧ volatile snapshot (ProgressiveDialer.engineConfig {}) = false
      ∧ (computeRequest snapshot (ProgressiveDialer.engineConfig {})).requested = 0
      ∧ min snapshot.availableAgents (ProgressiveDialer.engineConfig (F := ℚ) {}).maxRequestPerTick
        = 1 := by
  cases hbuilt : MetricsSnapshotBuilder.buildSnapshot (F := ℚ) {} 120 steadyCampaign 0 0 0
      dialled.store {} with
  | error raised =>
    have hok : (MetricsSnapshotBuilder.buildSnapshot (F := ℚ) {} 120 steadyCampaign 0 0 0
        dialled.store {}).toBool = true := by
      decide +kernel
    rw [hbuilt] at hok
    exact absurd hok Bool.false_ne_true
  | ok built =>
    have hvalues : (MetricsSnapshotBuilder.buildSnapshot (F := ℚ) {} 120 steadyCampaign 0 0 0
        dialled.store {}).toOption.map (fun built =>
          (built.1.providerStatus, built.1.healthFactor,
            volatile built.1 (ProgressiveDialer.engineConfig {}),
            (computeRequest built.1 (ProgressiveDialer.engineConfig {})).requested,
            min built.1.availableAgents
              (ProgressiveDialer.engineConfig (F := ℚ) {}).maxRequestPerTick))
          = some (.HEALTHY, healthFactors .HEALTHY, false, 0, 1) := by
      decide +kernel
    rw [hbuilt] at hvalues
    simp only [Except.toOption, Option.map_some, Option.some.injEq, Prod.mk.injEq] at hvalues
    obtain ⟨hstatus, hhealth, hsteady, hrequested, hmin⟩ := hvalues
    exact ⟨built.1, built.2, rfl, buildSnapshot_consistent hbuilt dialled_setUps, hstatus, hhealth,
      hsteady, hrequested, hmin⟩

end SmartDialer
