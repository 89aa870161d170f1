import SmartDialer.Platform.Watching
import SmartDialer.Ownership.Leases
import SmartDialer.Recovery.Completeness

/-!
# The simulation engine (`app/simulation/engine.py`)

A simulation begins in an empty database with one campaign, its agents and its borrowers, is a run of
the platform in between, and is settled once nothing else runs any more: every lease of the campaign
is over, and recovery sweeps one last time.

`simulation_settles` is about the end. It assumes of the settling what the engine provides for, that
nothing else runs, and three things more: the candidates of the two lease sweeps fit into the limit
of a sweep, neither the database nor a cancellation strikes the sweeps, and the clock is not set
back between writing the leases and sweeping them.
-/

namespace SmartDialer

open Concurrent DocStore HostFloat InvariantChecker

/-! ## The beginning

`_seed` inserts one campaign, its agents and its borrowers into empty collections. Ids are drawn by
`new_id`; should two of them be equal, the insertion raises. -/

/-- `app/simulation/config.py`, what a simulation is seeded with. -/
structure SimulationConfig (F : Type) where
  name : String
  agents : Nat := 20
  borrowers : Nat := 500
  providerName : String := "mock_a"
  dialingMode : DialingMode := .PROGRESSIVE
  baselineAnswerRate : F

/-- What `new_id` and `utc_now` answer while a simulation is seeded. -/
structure SeedDraws where
  campaign : DocId
  /-- By the number of the agent, from 1 on. -/
  agent : Nat → DocId
  borrower : Nat → DocId
  now : Time := 0

namespace SimulationEngine

variable {F : Type}

/-- `f"{number:07d}"`. -/
def sevenDigits (number : Nat) : String :=
  String.ofList (List.replicate (7 - (Nat.toDigits 10 number).length) '0' ++ Nat.toDigits 10 number)

/-- The campaign of a simulation, running from the start. -/
def seedCampaign (config : SimulationConfig F) (draws : SeedDraws) : CampaignDocument F where
  id := draws.campaign
  name := "Simulation " ++ config.name
  status := .RUNNING
  dialingMode := config.dialingMode
  providerName := config.providerName
  maxConcurrentCalls := max (config.agents * 3) 10
  baselineAnswerRate := config.baselineAnswerRate
  createdAt := draws.now
  updatedAt := draws.now

/-- An agent of the simulation, who is offline until the simulation logs everyone in. -/
def seedAgent (draws : SeedDraws) (number : Nat) : Agent where
  id := draws.agent number
  campaignId := draws.campaign
  stateChangedAt := draws.now

/-- A borrower of the simulation, who may be called at once. -/
def seedBorrower (draws : SeedDraws) (number : Nat) : Borrower where
  id := draws.borrower number
  campaignId := draws.campaign
  phoneNumber := "+1555" ++ sevenDigits number
  nextEligibleAt := draws.now

/-- `_seed`; `none` is a duplicate key. -/
def seed (config : SimulationConfig F) (draws : SeedDraws) : Option (PlatformStore F) := do
  let agents ← Collection.insertMany ∅ ((List.range' 1 config.agents).map (seedAgent draws))
  let borrowers ← Collection.insertMany ∅
    ((List.range' 1 config.borrowers).map (seedBorrower draws))
  let campaigns ← Collection.insertOne ∅ (seedCampaign config draws)
  pure { base := { agents, borrowers, calls := .empty, events := ∅ }, campaigns }

/-! ## The end

`_settle` sets the leases of everyone who is held to a moment ago and lets recovery sweep once. -/

/-- The leases of a campaign, as `_settle` writes them. -/
def expireLeases (campaignId : DocId) (expiry : Time) (σ : Store) : Store :=
  { σ with
    agents := σ.agents.updateMany (fun g => g.campaignId = campaignId ∧ g.reservedBy ≠ none)
      (fun g => { g with leaseExpiresAt := some expiry }) fun _ => rfl
    borrowers := σ.borrowers.updateMany (fun b => b.campaignId = campaignId ∧ b.reservedBy ≠ none)
      (fun b => { b with leaseExpiresAt := some expiry }) fun _ => rfl }

/-- `_settle`, when nothing else runs. -/
def settle (cfg : Config) (envs : Nat → Env) (campaignId : DocId) (σ : Store) : Store :=
  RecoveryWorker.afterSweeps cfg (fun n => envs (n + 1))
    (expireLeases campaignId ((envs 0).now - seconds 1) σ)

end SimulationEngine

/-! ## What is left of a simulation

Nothing is reserved at the beginning, so every reservation that is there in the end was made by a
run, with a lease. That is all the settling needs. -/

namespace SimulationEngine

variable {F : Type}

/-- A simulation begins without reservations and calls. -/
theorem seed_unreserved {config : SimulationConfig F} {draws : SeedDraws} {σ : PlatformStore F}
    (h : seed config draws = some σ) : σ.base.Unreserved := by
  unfold seed at h
  obtain ⟨agents, hagents, h⟩ := Option.bind_eq_some_iff.mp h
  obtain ⟨borrowers, hborrowers, h⟩ := Option.bind_eq_some_iff.mp h
  obtain ⟨campaigns, -, h⟩ := Option.bind_eq_some_iff.mp h
  cases h
  refine ⟨fun a g hg => ?_, fun b d hd => ?_, fun _ => rfl⟩
  · rcases Collection.mem_of_insertMany hagents (Collection.mem_of_get? hg) with hin | hin
    · exact absurd hin List.not_mem_nil
    · obtain ⟨number, -, rfl⟩ := List.mem_map.mp hin
      rfl
  · rcases Collection.mem_of_insertMany hborrowers (Collection.mem_of_get? hd) with hin | hin
    · exact absurd hin List.not_mem_nil
    · obtain ⟨number, -, rfl⟩ := List.mem_map.mp hin
      rfl

/-! ## What the settling reaches

`expireLeases` changes leases only, and only of those who are held for the campaign. After it they
are all candidates, and `Recovery.Completeness` says what becomes of candidates. -/

section Settling

variable {cfg : Config} {envs : Nat → Env} {campaignId : DocId} {expiry now : Time} {σ : Store}

/-- The agent after `expireLeases`. -/
theorem expireLeases_agent {a : DocId} {g : Agent}
    (hg : (expireLeases campaignId expiry σ).agents.get? a = some g) :
    ∃ g₀, σ.agents.get? a = some g₀ ∧ g = { g₀ with leaseExpiresAt := g.leaseExpiresAt }
      ∧ (g.leaseExpiresAt = g₀.leaseExpiresAt ∨ g.leaseExpiresAt = some expiry)
      ∧ (g.campaignId = campaignId → g.reservedBy ≠ none → g.leaseExpiresAt = some expiry) := by
  unfold expireLeases at hg
  rw [Collection.get?_updateMany] at hg
  obtain ⟨g₀, hg₀, rfl⟩ := Option.map_eq_some_iff.mp hg
  refine ⟨g₀, hg₀, ?_⟩
  split
  · exact ⟨rfl, Or.inr rfl, fun _ _ => rfl⟩
  · rename_i hother
    exact ⟨rfl, Or.inl rfl, fun hk hworker => absurd ⟨hk, hworker⟩ hother⟩

/-- The borrower after `expireLeases`. -/
theorem expireLeases_borrower {b : DocId} {d : Borrower}
    (hd : (expireLeases campaignId expiry σ).borrowers.get? b = some d) :
    ∃ d₀, σ.borrowers.get? b = some d₀ ∧ d = { d₀ with leaseExpiresAt := d.leaseExpiresAt }
      ∧ (d.leaseExpiresAt = d₀.leaseExpiresAt ∨ d.leaseExpiresAt = some expiry)
      ∧ (d.campaignId = campaignId → d.reservedBy ≠ none → d.leaseExpiresAt = some expiry) := by
  unfold expireLeases at hd
  rw [Collection.get?_updateMany] at hd
  obtain ⟨d₀, hd₀, rfl⟩ := Option.map_eq_some_iff.mp hd
  refine ⟨d₀, hd₀, ?_⟩
  split
  · exact ⟨rfl, Or.inr rfl, fun _ _ => rfl⟩
  · rename_i hother
    exact ⟨rfl, Or.inl rfl, fun hk hworker => absurd ⟨hk, hworker⟩ hother⟩

/-- Whoever is held is still held by a lease. -/
theorem expireLeases_leased (h : Leased σ) : Leased (expireLeases campaignId expiry σ) where
  agents := fun a g hg hbusy => by
    obtain ⟨g₀, hg₀, heq, hlease, -⟩ := expireLeases_agent hg
    rw [heq] at hbusy
    obtain ⟨hworker, hleased⟩ := h.agents a g₀ hg₀ hbusy
    refine ⟨by rw [heq]; exact hworker, ?_⟩
    rcases hlease with hlease | hlease
    · rw [hlease]; exact hleased
    · rw [hlease]; nofun
  borrowers := fun b d hd hheld => by
    obtain ⟨d₀, hd₀, heq, hlease, -⟩ := expireLeases_borrower hd
    rw [heq] at hheld
    obtain ⟨hworker, hleased⟩ := h.borrowers b d₀ hd₀ hheld
    refine ⟨by rw [heq]; exact hworker, ?_⟩
    rcases hlease with hlease | hlease
    · rw [hlease]; exact hleased
    · rw [hlease]; nofun

/-- A campaign in which nobody is held, and the calls that its agents were held for are over. -/
structure Settled (campaignId : DocId) (σ₀ σ : Store) : Prop where
  agents : ∀ a g, σ.agents.get? a = some g → g.campaignId = campaignId → g.state.busy = false
  borrowers : ∀ b d, σ.borrowers.get? b = some d → d.campaignId = campaignId →
    d.status.held = false
  calls : ∀ a g c, σ₀.agents.get? a = some g → g.campaignId = campaignId → g.state.busy = true →
    g.currentCallId = some c → RecoveryWorker.CallEnded c σ

/-- **Settling a campaign whose reservations are leased.** After `expireLeases` everybody who is held
for the campaign is a candidate of one of the two lease sweeps; these leave no candidate behind, and
the first of them ends the bound calls. -/
theorem settled_of_leased (hleased : Leased σ) (hsound : CallsSound σ.calls)
    (hfit : RecoveryWorker.LeasesFit cfg (fun n => envs (n + 1))
      (expireLeases campaignId ((envs 0).now - seconds 1) σ))
    (hclock : (envs 0).now ≤ (envs 1).now)
    (henvs : ∀ n, ∀ f ∈ (envs n).fault, f.exn.isProviderError = true) :
    Settled campaignId σ (settle cfg envs campaignId σ) := by
  have hexpiry : (envs 0).now - seconds 1 < (envs 1).now :=
    lt_of_lt_of_le (Int.sub_lt_self _ (by decide)) hclock
  unfold settle
  generalize (envs 0).now - seconds 1 = expiry at hexpiry hfit ⊢
  let later (n : Nat) : Env := envs (n + 1)
  let expired : Store := expireLeases campaignId expiry σ
  show Settled campaignId σ (RecoveryWorker.afterSweeps cfg later expired)
  have hlater : ∀ n, ∀ f ∈ (later n).fault, f.exn.isProviderError = true := fun n => henvs (n + 1)
  -- what the sweeps can make of each agent, borrower and call
  have hswept := RecoveryWorker.swept_afterSweeps cfg later expired
  have hleased' : Leased expired := expireLeases_leased hleased
  have hsound' : CallsSound expired.calls := hsound
  -- whoever is held for the campaign is held by a lease that is over
  have hagent : ∀ {a : DocId} {g : Agent}, expired.agents.get? a = some g →
      g.campaignId = campaignId → g.state.busy = true → AgentRepo.leaseExpired (later 0).now g := by
    intro a g hg hk hbusy
    obtain ⟨g₀, -, -, -, hlease⟩ := expireLeases_agent hg
    have hworker := (hleased'.agents a g hg hbusy).1
    refine ⟨?_, hworker, expiry, hlease hk hworker, hexpiry⟩
    revert hbusy
    cases g.state <;> decide
  have hborrower : ∀ {b : DocId} {d : Borrower}, expired.borrowers.get? b = some d →
      d.campaignId = campaignId → d.status.held = true →
      BorrowerRepo.leaseExpired (later 0).now d := by
    intro b d hd hk hheld
    obtain ⟨d₀, -, -, -, hlease⟩ := expireLeases_borrower hd
    have hworker := (hleased'.borrowers b d hd hheld).1
    exact ⟨of_decide_eq_true hheld, hworker, expiry, hlease hk hworker, hexpiry⟩
  -- agents, borrowers, and the calls agents were bound to
  refine ⟨fun a g hg hk => ?_, fun b d hd hk => ?_, fun a g c hg hk hbusy hbound => ?_⟩
  · obtain ⟨g₀, hg₀, hfate⟩ := rel_right (hswept.agents a) hg
    rcases hfate.fate with rfl | ⟨hoff, -⟩ | ⟨havailable, -⟩
    · -- an agent that no sweep has touched would still have a lease that is over
      by_contra hbusy
      have hexpired := hagent hg₀ hk (Bool.eq_true_of_not_eq_false hbusy)
      exact RecoveryWorker.agentLeases_afterSweeps hlater hfit a g hg hexpired
    · rw [hoff]; rfl
    · rw [havailable]; rfl
  · obtain ⟨d₀, hd₀, hfate⟩ := rel_right (hswept.borrowers b) hd
    rcases hfate with rfl | ⟨hpending, -⟩ | ⟨hfree, -⟩
    · by_contra hheld
      have hexpired := hborrower hd₀ hk (Bool.eq_true_of_not_eq_false hheld)
      exact RecoveryWorker.borrowerLeases_afterSweeps hlater hfit b d hd hexpired
    · rw [hpending]; rfl
    · exact hfree
  · -- the agent the call was bound to, with the lease as it is now
    have hafter : expired.agents.get? a = some { g with leaseExpiresAt := some expiry } := by
      show (expireLeases campaignId expiry σ).agents.get? a = _
      unfold expireLeases
      rw [Collection.get?_updateMany, hg, Option.map_some,
        if_pos ⟨hk, (hleased.agents a g hg hbusy).1⟩]
    obtain rfl : g.id = a := Collection.key_of_get? hg
    exact RecoveryWorker.boundCall_afterSweeps hsound' hlater hfit hafter (hagent hafter hk hbusy)
      hbound

end Settling

/-! ## The report

The final check counts the agents left reserved from the same answer as the capacity, so after the
settling it counts none. -/

/-- The name of `INVARIANT_STUCK_RESERVATION`. -/
def stuckReservation : String := "agent_left_reserved"

theorem duplicateViolation_names {name : String} (hname : name ≠ stuckReservation)
    (key : Call → DocId) (activeCalls : List Call) :
    ∀ v ∈ duplicateViolation name key activeCalls, v.name ≠ stuckReservation := by
  intro v hv
  unfold duplicateViolation at hv
  dsimp only at hv
  split at hv
  · cases hv
  · rw [List.mem_singleton.mp hv]
    exact hname

variable [FloatArith F] {pc : PlatformConfig F}

/-- With nobody left reserved, the final check does not say that anybody is. The check counts
reserved agents first and reports a stuck reservation only if it finds some. -/
theorem check_not_stuck {settings : Settings} {campaignId : DocId} {envs : Nat → PlatformEnv F}
    (hquiet : ∀ n, (envs n).base.fault = none) (n : Nat) {σ : PlatformStore F}
    (hidle : AgentRepo.countByState campaignId σ.base.agents .RESERVED = 0) :
    ∃ violations, ((InvariantChecker.check settings campaignId true).run platformExec envs n σ).1
        = .ok violations
      ∧ ∀ v ∈ violations, v.name ≠ stuckReservation := by
  -- the four queries of the final check, each answered by this store
  have hactive : platformExec (envs n) (.inr (.findActive campaignId 5000)) σ
      = (.ok (CallRepo.findActive campaignId 5000 σ.base.calls), σ) := by
    unfold platformExec
    rw [hquiet]
    rfl
  have hcounts : platformExec (envs (n + 1)) (.inl (.countAgentsByState campaignId)) σ
      = (.ok (AgentRepo.countByState campaignId σ.base.agents), σ) := by
    unfold platformExec exec Env.strikes
    rw [hquiet]
    rfl
  have hnow : platformExec (envs (n + 1 + 1)) (.inl .utcNow) σ
      = (.ok (envs (n + 1 + 1)).base.now, σ) := by
    unfold platformExec exec Env.strikes
    rw [hquiet]
    rfl
  have hstale : ∀ cutoff, platformExec (envs (n + 1 + 1 + 1)) (.inl (.findStaleCalls cutoff 50)) σ
      = (.ok (CallRepo.findStaleCalls cutoff 50 σ.base.calls), σ) := by
    intro cutoff
    unfold platformExec exec Env.strikes
    rw [hquiet]
    rfl
  -- none of the other reports has that name
  have hcapacity : ∀ v ∈ checkCapacity (CallRepo.findActive campaignId 5000 σ.base.calls)
      (AgentRepo.countByState campaignId σ.base.agents), v.name ≠ stuckReservation := by
    intro v hv
    unfold checkCapacity at hv
    split at hv
    · cases hv
    · rw [List.mem_singleton.mp hv]
      show "agent_bound_calls_exceed_usable_agents" ≠ stuckReservation
      decide
  unfold InvariantChecker.check checkFinalState ask dialer call
  simp only [if_true, Prog.bind_def, Prog.run_bind, Prog.lift_perform, Prog.run_perform, hactive,
    hcounts, hnow, hstale, hidle]
  refine ⟨_, rfl, fun v hv => ?_⟩
  rcases List.mem_append.mp hv with hv | hv
  · rcases List.mem_append.mp hv with hv | hv
    · rcases List.mem_append.mp hv with hv | hv
      · exact duplicateViolation_names (by decide) _ _ v hv
      · exact duplicateViolation_names (by decide) _ _ v hv
    · exact hcapacity v hv
  · rw [List.append_nil] at hv
    split at hv
    · cases hv
    · rw [List.mem_singleton.mp hv]
      show "non_terminal_call_older_than_stale_timeout" ≠ stuckReservation
      decide

/-- **Nobody is left behind by a simulation.** Whatever has run since the seed, whoever was
cancelled in the middle of it and whatever has failed: if the candidates of the two lease sweeps fit
into the limit of a sweep, if neither a database failure nor a cancellation strikes the settling,
and if the clock is not set back in it, the settling leaves no agent and no borrower of the campaign
held and ends the calls that its agents were held for; and a final check whose queries go through
does not find an agent reserved. -/
theorem simulation_settles {config : SimulationConfig F} {draws : SeedDraws} {σ₀ : PlatformStore F}
    (hseed : seed config draws = some σ₀) {w : PlatformWorld F}
    (h : Reachable (platform pc) (platformUnder SystemRegime.anything) (World.fresh σ₀) w)
    {envs : Nat → Env} (hclock : (envs 0).now ≤ (envs 1).now)
    (henvs : ∀ n, ∀ f ∈ (envs n).fault, f.exn.isProviderError = true)
    (hfit : RecoveryWorker.LeasesFit pc.cfg (fun n => envs (n + 1))
      (expireLeases draws.campaign ((envs 0).now - seconds 1) w.store.base))
    {checkEnvs : Nat → PlatformEnv F} (hquiet : ∀ n, (checkEnvs n).base.fault = none) :
    let settled : PlatformStore F :=
      { w.store with base := settle pc.cfg envs draws.campaign w.store.base }
    Settled draws.campaign w.store.base settled.base
      ∧ ∃ violations, ((InvariantChecker.check pc.cfg.settings draws.campaign true).run platformExec
          checkEnvs 0 settled).1 = .ok violations
        ∧ ∀ v ∈ violations, v.name ≠ stuckReservation := by
  obtain ⟨v, hv, hstore⟩ := dialer_of_reachable (fun _ _ => trivial) (fun _ _ _ _ => trivial) h
  have hunreserved := seed_unreserved hseed
  have hleased : Leased w.store.base := hstore ▸ leased_of_reachable hunreserved.leased hv
  have hsound : CallsSound w.store.base.calls :=
    hstore ▸ (callFacts_of_reachable hunreserved.sound hv).sound
  have hsettled : Settled draws.campaign w.store.base
      (settle pc.cfg envs draws.campaign w.store.base) :=
    settled_of_leased hleased hsound hfit hclock henvs
  refine ⟨hsettled, check_not_stuck hquiet 0 ?_⟩
  refine List.length_eq_zero_iff.mpr (List.eq_nil_iff_forall_not_mem.mpr fun g hg => ?_)
  obtain ⟨hget, hk, hreserved⟩ := Collection.mem_find.mp hg
  have hidle := hsettled.agents g.id g hget hk
  rw [hreserved] at hidle
  cases hidle

/-! A simulation of one agent and one borrower, whose worker is stopped in the middle of a dial. -/

def demoConfig : SimulationConfig ℚ :=
  { name := "demo", agents := 1, borrowers := 1, baselineAnswerRate := 1 }

def demoSeed : SeedDraws where
  campaign := demoCampaign.id
  agent _ := demoAgent.id
  borrower _ := demoBorrower.id

def seeded : PlatformStore ℚ := (seed demoConfig demoSeed).get (by decide +kernel)

def stoppedActions : List (Action (PlatformJob ℚ) (PlatformEnv ℚ)) :=
  .spawn 0 (.logEveryoneIn demoCampaign.id) :: .spawn 1 (.dialerWorker "w" 1)
    :: (List.replicate 4 (.perform 0 demoPlatformEnv)
      ++ List.replicate 34 (.perform 1 demoPlatformEnv))

def stopped : PlatformWorld ℚ := (World.fresh seeded).acts (platform {}) stoppedActions

theorem stopped_reachable : Reachable (platform {}) (platformUnder SystemRegime.anything)
    (World.fresh seeded) stopped := by
  refine Reachable.of_acts _ stoppedActions (fun p job _ _ => trivial) fun e _ σ st => ?_
  show (platformUnder SystemRegime.anything).guard _ _ _ e.op _
  cases e.op with
  | inl o => exact fun _ _ => trivial
  | inr o => trivial

theorem simulation_settles_stopped :
    (∃ g, stopped.store.base.agents.get? demoAgent.id = some g ∧ g.state = .DIALING)
      ∧ Settled demoCampaign.id stopped.store.base
        (settle {} (fun _ => {}) demoCampaign.id stopped.store.base) := by
  have hdialing : (stopped.store.base.agents.get? demoAgent.id).map Agent.state = some .DIALING := by
    decide +kernel
  have hseed : seed demoConfig demoSeed = some seeded := (Option.some_get _).symm
  have hfit : RecoveryWorker.LeasesFit {} (fun _ => {})
      (expireLeases demoCampaign.id (({} : Env).now - seconds 1) stopped.store.base) := by
    constructor <;> decide +kernel
  have henvs : ∀ n, ∀ f ∈ ((fun _ => {} : Nat → Env) n).fault, f.exn.isProviderError = true :=
    fun _ _ hf => by cases hf
  have hquiet : ∀ n, ((fun _ => demoPlatformEnv : Nat → PlatformEnv ℚ) n).base.fault = none :=
    fun _ => rfl
  exact ⟨Option.map_eq_some_iff.mp hdialing,
    (simulation_settles hseed stopped_reachable (le_refl _) henvs hfit hquiet).1⟩

end SimulationEngine

end SmartDialer
