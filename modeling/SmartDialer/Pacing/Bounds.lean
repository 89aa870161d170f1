import SmartDialer.Pacing.Engine

/-!
# Pacing is bounded and moves the right way

In exact arithmetic a request is a chain of monotone steps: the clamp of the answer rate, a
division, a cut at zero, two floors with a product between them, and the cap. Each step has its
bound and its monotonicity here, and the results about a request are put together from them.

Floats round, and `⌊·⌋` of a rounded product can be off by one, so these are results about the
formula in rational numbers, which is what the source computes up to rounding.
-/

namespace SmartDialer

open HostFloat

/-! ## Exact arithmetic

The float operations of the source, at the rational numbers. -/

theorem pyMax_rat (x y : ℚ) : pyMax x y = max x y := by
  show (if decide (x < y) = true then y else x) = max x y
  split
  · next h => exact (max_eq_right (of_decide_eq_true h).le).symm
  · next h => exact (max_eq_left (not_lt.mp fun hlt => h (decide_eq_true hlt))).symm

theorem pyMin_rat (x y : ℚ) : pyMin x y = min x y := by
  show (if decide (y < x) = true then y else x) = min x y
  split
  · next h => exact (min_eq_right (of_decide_eq_true h).le).symm
  · next h => exact (min_eq_left (not_lt.mp fun hlt => h (decide_eq_true hlt))).symm

theorem clamp_rat (value minimum maximum : ℚ) :
    clamp value minimum maximum = max minimum (min maximum value) := by
  rw [clamp, pyMax_rat, pyMin_rat]

theorem freeCapacity_rat (snapshot : PacingSnapshot ℚ) (config : PacingEngineConfig ℚ) :
    freeCapacity snapshot config
      = snapshot.availableAgents + soonFreeAgents snapshot * config.soonFreeWeight := rfl

/-! ## What a snapshot and a configuration have to be

The default settings are in these ranges; counts and rates are by what they are. -/

structure Sensible (config : PacingEngineConfig ℚ) : Prop where
  minRate : 0 < config.minAnswerRate
  rates : config.minAnswerRate ≤ config.maxAnswerRate
  maxRate : config.maxAnswerRate ≤ 1
  weight : 0 ≤ config.soonFreeWeight
  margin : 0 ≤ config.safetyMargin ∧ config.safetyMargin ≤ 1
  volatility : 0 ≤ config.volatilityFactor ∧ config.volatilityFactor ≤ 1
  forced : ∀ rate ∈ config.forcedAnswerRate, 0 < rate ∧ rate ≤ 1
  request : 0 ≤ config.maxRequestPerTick

/-- Counts are not negative, rates and the health factor lie between 0 and 1. -/
structure Plausible (snapshot : PacingSnapshot ℚ) : Prop where
  available : 0 ≤ snapshot.availableAgents
  reserved : 0 ≤ snapshot.reservedAgents
  wrapUp : 0 ≤ snapshot.wrapUpAgents
  longConnected : 0 ≤ snapshot.longConnectedAgents
  ringing : 0 ≤ snapshot.ringingCalls
  initiated : 0 ≤ snapshot.initiatedCalls
  recent : ∀ rate ∈ snapshot.recentAnswerRate, 0 ≤ rate ∧ rate ≤ 1
  previous : ∀ rate ∈ snapshot.previousAnswerRate, 0 ≤ rate ∧ rate ≤ 1
  baseline : 0 ≤ snapshot.baselineAnswerRate ∧ snapshot.baselineAnswerRate ≤ 1
  health : 0 ≤ snapshot.healthFactor ∧ snapshot.healthFactor ≤ 1

/-- `after` gives no less reason to dial than `before`: more agents free or soon free, fewer calls
and reservations in flight, a better provider, lower answer rates; and both are volatile or neither
is. -/
structure Eased (config : PacingEngineConfig ℚ) (before after : PacingSnapshot ℚ) : Prop where
  available : before.availableAgents ≤ after.availableAgents
  wrapUp : before.wrapUpAgents ≤ after.wrapUpAgents
  longConnected : before.longConnectedAgents ≤ after.longConnectedAgents
  health : before.healthFactor ≤ after.healthFactor
  ringing : after.ringingCalls ≤ before.ringingCalls
  initiated : after.initiatedCalls ≤ before.initiatedCalls
  reserved : after.reservedAgents ≤ before.reservedAgents
  recent : before.recentAnswerRate = none ∧ after.recentAnswerRate = none
    ∨ ∃ rate ∈ before.recentAnswerRate, ∃ lower ∈ after.recentAnswerRate, lower ≤ rate
  baseline : after.baselineAnswerRate ≤ before.baselineAnswerRate
  volatile : volatile before config = volatile after config

/-! ## The steps

Each step of the formula on its own: its sign or its range, and how it moves with the snapshot. -/

section Steps

variable {config : PacingEngineConfig ℚ} (hconfig : Sensible config)

include hconfig

theorem effectiveAnswerRate_pos (snapshot : PacingSnapshot ℚ) :
    0 < effectiveAnswerRate snapshot config := by
  unfold effectiveAnswerRate
  cases hforced : config.forcedAnswerRate with
  | some rate => exact (hconfig.forced rate hforced).1
  | none =>
    show 0 < clamp _ _ _
    rw [clamp_rat]
    exact lt_of_lt_of_le hconfig.minRate (le_max_left _ _)

theorem freeCapacity_nonneg {snapshot : PacingSnapshot ℚ} (h : Plausible snapshot) :
    0 ≤ freeCapacity snapshot config := by
  have havailable : (0 : ℚ) ≤ snapshot.availableAgents := by exact_mod_cast h.available
  have hsoon : (0 : ℚ) ≤ soonFreeAgents snapshot := by
    exact_mod_cast Int.add_nonneg h.wrapUp h.longConnected
  rw [freeCapacity_rat]
  exact add_nonneg havailable (mul_nonneg hsoon hconfig.weight)

theorem freeCapacity_le {before after : PacingSnapshot ℚ} (h : Eased config before after) :
    freeCapacity before config ≤ freeCapacity after config := by
  have havailable : (before.availableAgents : ℚ) ≤ after.availableAgents := by
    exact_mod_cast h.available
  have hsoon : (soonFreeAgents before : ℚ) ≤ soonFreeAgents after := by
    exact_mod_cast Int.add_le_add h.wrapUp h.longConnected
  rw [freeCapacity_rat, freeCapacity_rat]
  exact add_le_add havailable (mul_le_mul_of_nonneg_right hsoon hconfig.weight)

theorem volatilityFactorOf_bounds (snapshot : PacingSnapshot ℚ) :
    0 ≤ volatilityFactorOf snapshot config ∧ volatilityFactorOf snapshot config ≤ 1 := by
  unfold volatilityFactorOf
  split
  · exact hconfig.volatility
  · show 0 ≤ ((1 : Int) : ℚ) / (1 : Int) ∧ ((1 : Int) : ℚ) / (1 : Int) ≤ 1
    norm_num

end Steps

/-- The answer rate is estimated no higher from lower rates. -/
theorem effectiveAnswerRate_le {config : PacingEngineConfig ℚ}
    {before after : PacingSnapshot ℚ} (h : Eased config before after) :
    effectiveAnswerRate after config ≤ effectiveAnswerRate before config := by
  unfold effectiveAnswerRate
  cases config.forcedAnswerRate with
  | some rate => exact le_refl rate
  | none =>
    show clamp _ _ _ ≤ clamp _ _ _
    rw [clamp_rat, clamp_rat]
    refine max_le_max_left _ (min_le_min_left _ ?_)
    -- without a recent rate the baseline alone counts, otherwise the blend of both
    rcases h.recent with ⟨hbefore, hafter⟩ | ⟨rate, hrate, lower, hlower, hle⟩
    · rw [hbefore, hafter]
      exact h.baseline
    · rw [Option.mem_def.mp hrate, Option.mem_def.mp hlower]
      show ((7 : Int) : ℚ) / (10 : Int) * lower + ((3 : Int) : ℚ) / (10 : Int) * after.baselineAnswerRate
        ≤ ((7 : Int) : ℚ) / (10 : Int) * rate + ((3 : Int) : ℚ) / (10 : Int) * before.baselineAnswerRate
      have hbaseline := h.baseline
      push_cast
      linarith

theorem volatilityFactorOf_eq {config : PacingEngineConfig ℚ} {before after : PacingSnapshot ℚ}
    (h : Eased config before after) :
    volatilityFactorOf before config = volatilityFactorOf after config := by
  unfold volatilityFactorOf
  rw [h.volatile]

theorem inFlight_nonneg {snapshot : PacingSnapshot ℚ} (h : Plausible snapshot) :
    0 ≤ inFlight snapshot :=
  Int.add_nonneg (Int.add_nonneg h.ringing h.initiated) h.reserved

theorem inFlight_le {config : PacingEngineConfig ℚ} {before after : PacingSnapshot ℚ}
    (h : Eased config before after) : inFlight after ≤ inFlight before :=
  Int.add_le_add (Int.add_le_add h.ringing h.initiated) h.reserved

/-! ## The request

`_compute` as one expression, with a name for each intermediate result of the source. -/

section Request

variable (snapshot : PacingSnapshot ℚ) (config : PacingEngineConfig ℚ)

def callsNeeded : ℚ := freeCapacity snapshot config / effectiveAnswerRate snapshot config

def rawRequest : Int := ⌊max 0 (callsNeeded snapshot config - inFlight snapshot)⌋

/-- What is left of a raw request after the three factors. -/
def scaledBy (raw : Int) : ℚ :=
  raw * config.safetyMargin * snapshot.healthFactor * volatilityFactorOf snapshot config

/-- **The request in exact arithmetic**; the error branch is for an answer rate of zero. In rational
numbers neither the division nor the floor can raise then, and the formula is a closed term. -/
theorem compute_rat (hrate : effectiveAnswerRate snapshot config ≠ 0) :
    compute snapshot config = .ok (computeRequest snapshot config)
      ∧ (computeRequest snapshot config).requested
        = min ⌊scaledBy snapshot config (rawRequest snapshot config)⌋ config.maxRequestPerTick := by
  have hdiv : FloatArith.div (freeCapacity snapshot config) (effectiveAnswerRate snapshot config)
      = .ok (callsNeeded snapshot config) := if_neg hrate
  have hraw : FloatArith.floor (pyMax (FloatOps.ofInt 0)
      (FloatArith.sub (callsNeeded snapshot config) (FloatOps.ofInt (inFlight snapshot))))
      = .ok (rawRequest snapshot config) := by
    rw [pyMax_rat]
    show Except.ok ⌊max ((0 : Int) : ℚ) _⌋ = _
    rw [Int.cast_zero]
    rfl
  -- neither of the two steps that can raise does
  have hcompute : ∃ request, compute snapshot config = .ok request ∧ request.requested
      = min ⌊scaledBy snapshot config (rawRequest snapshot config)⌋ config.maxRequestPerTick := by
    unfold compute
    rw [hdiv]
    dsimp only [bind, Except.bind]
    rw [hraw]
    exact ⟨_, rfl, rfl⟩
  obtain ⟨request, hok, hrequested⟩ := hcompute
  have hanswer : computeRequest snapshot config = request := by
    unfold computeRequest
    rw [hok]
  rw [hanswer]
  exact ⟨hok, hrequested⟩

end Request

section Results

variable {config : PacingEngineConfig ℚ} (hconfig : Sensible config)

include hconfig

theorem callsNeeded_nonneg {snapshot : PacingSnapshot ℚ} (h : Plausible snapshot) :
    0 ≤ callsNeeded snapshot config :=
  div_nonneg (freeCapacity_nonneg hconfig h) (effectiveAnswerRate_pos hconfig snapshot).le

theorem callsNeeded_le {before after : PacingSnapshot ℚ} (hbefore : Plausible before)
    (h : Eased config before after) : callsNeeded before config ≤ callsNeeded after config := by
  have hcapacity := freeCapacity_le hconfig h
  exact div_le_div₀ ((freeCapacity_nonneg hconfig hbefore).trans hcapacity) hcapacity
    (effectiveAnswerRate_pos hconfig after) (effectiveAnswerRate_le h)

theorem rawRequest_le {before after : PacingSnapshot ℚ} (hbefore : Plausible before)
    (h : Eased config before after) : rawRequest before config ≤ rawRequest after config := by
  have hinFlight : (inFlight after : ℚ) ≤ inFlight before := by exact_mod_cast inFlight_le h
  exact Int.floor_le_floor (max_le_max_left 0
    (sub_le_sub (callsNeeded_le hconfig hbefore h) hinFlight))

/-- The factors take away from a raw request, and never all that it is. -/
theorem scaledBy_bounds {snapshot : PacingSnapshot ℚ} (h : Plausible snapshot) {raw : Int}
    (hraw : 0 ≤ raw) :
    0 ≤ scaledBy snapshot config raw ∧ scaledBy snapshot config raw ≤ raw := by
  obtain ⟨hmargin, hmargin'⟩ := hconfig.margin
  obtain ⟨hhealth, hhealth'⟩ := h.health
  obtain ⟨hvolatility, hvolatility'⟩ := volatilityFactorOf_bounds hconfig snapshot
  have hraw' : (0 : ℚ) ≤ raw := by exact_mod_cast hraw
  have hfirst : 0 ≤ raw * config.safetyMargin := mul_nonneg hraw' hmargin
  have hsecond : 0 ≤ raw * config.safetyMargin * snapshot.healthFactor := mul_nonneg hfirst hhealth
  refine ⟨mul_nonneg hsecond hvolatility, ?_⟩
  calc scaledBy snapshot config raw
      ≤ raw * config.safetyMargin * snapshot.healthFactor := mul_le_of_le_one_right hsecond hvolatility'
    _ ≤ raw * config.safetyMargin := mul_le_of_le_one_right hfirst hhealth'
    _ ≤ raw := mul_le_of_le_one_right hraw' hmargin'

/-- The factors are not negative, and the only one that differs, the health factor, has not
fallen. -/
theorem scaledBy_le {before after : PacingSnapshot ℚ} (hbefore : Plausible before)
    (h : Eased config before after) {raw raw' : Int} (hraw : 0 ≤ raw) (hle : raw ≤ raw') :
    scaledBy before config raw ≤ scaledBy after config raw' := by
  have hmargin := hconfig.margin.1
  have hhealth := hbefore.health.1
  have hvolatility := (volatilityFactorOf_bounds hconfig after).1
  have hle' : (raw : ℚ) ≤ raw' := by exact_mod_cast hle
  have hraw' : (0 : ℚ) ≤ raw' := by exact_mod_cast hraw.trans hle
  -- the volatility factor is the same on both sides, the margin is a constant
  unfold scaledBy
  rw [volatilityFactorOf_eq h]
  refine mul_le_mul_of_nonneg_right ?_ hvolatility
  exact mul_le_mul (mul_le_mul_of_nonneg_right hle' hmargin) h.health hhealth
    (mul_nonneg hraw' hmargin)

end Results

theorem rawRequest_nonneg (snapshot : PacingSnapshot ℚ) (config : PacingEngineConfig ℚ) :
    0 ≤ rawRequest snapshot config :=
  Int.floor_nonneg.mpr (le_max_left 0 _)

/-- A raw request asks for no more calls than are needed. -/
theorem rawRequest_le_callsNeeded {config : PacingEngineConfig ℚ} (hconfig : Sensible config)
    {snapshot : PacingSnapshot ℚ} (h : Plausible snapshot) :
    (rawRequest snapshot config : ℚ) ≤ callsNeeded snapshot config := by
  have hinFlight : (0 : ℚ) ≤ inFlight snapshot := by exact_mod_cast inFlight_nonneg h
  refine (Int.floor_le _).trans (max_le (callsNeeded_nonneg hconfig h) ?_)
  linarith

/-- **Pacing is bounded and moves the right way.** For every sensible configuration, a plausible
snapshot is answered without an error by a request that is not negative and exceeds neither the cap
nor the free capacity over the answer rate, and that is zero where the health factor is; and an eased
snapshot is answered by no smaller a request. -/
theorem pacing_bounded_and_monotone (config : PacingEngineConfig ℚ) (hconfig : Sensible config) :
    (∀ snapshot, Plausible snapshot →
      compute snapshot config = .ok (computeRequest snapshot config)
      ∧ 0 ≤ (computeRequest snapshot config).requested
      ∧ ((computeRequest snapshot config).requested : ℚ) ≤ min (config.maxRequestPerTick : ℚ)
          (freeCapacity snapshot config / effectiveAnswerRate snapshot config)
      ∧ (snapshot.healthFactor = 0 → (computeRequest snapshot config).requested = 0))
    ∧ ∀ before after, Plausible before → Plausible after → Eased config before after →
      (computeRequest before config).requested ≤ (computeRequest after config).requested := by
  have hexact := fun snapshot =>
    compute_rat snapshot config (effectiveAnswerRate_pos hconfig snapshot).ne'
  refine ⟨fun snapshot h => ?_, fun before after hbefore _ h => ?_⟩
  · obtain ⟨hok, hrequested⟩ := hexact snapshot
    obtain ⟨hnonneg, hle⟩ := scaledBy_bounds hconfig h (rawRequest_nonneg snapshot config)
    rw [hrequested]
    refine ⟨hok, le_min (Int.floor_nonneg.mpr hnonneg) hconfig.request, le_min ?_ ?_, fun hzero => ?_⟩
    · exact_mod_cast min_le_right _ _
    -- the floor, the scale and the calls in flight only take away
    · calc ((min ⌊scaledBy snapshot config (rawRequest snapshot config)⌋
            config.maxRequestPerTick : Int) : ℚ)
          ≤ (⌊scaledBy snapshot config (rawRequest snapshot config)⌋ : ℚ) := by
            exact_mod_cast min_le_left _ _
        _ ≤ scaledBy snapshot config (rawRequest snapshot config) := Int.floor_le _
        _ ≤ rawRequest snapshot config := hle
        _ ≤ callsNeeded snapshot config := rawRequest_le_callsNeeded hconfig h
    -- a factor of zero makes the whole product zero
    · have hscaled : scaledBy snapshot config (rawRequest snapshot config) = 0 := by
        simp [scaledBy, hzero]
      rw [hscaled, Int.floor_zero]
      exact min_eq_left hconfig.request
  -- both requests are the same chain of monotone steps
  · rw [(hexact before).2, (hexact after).2]
    have hraw := rawRequest_le hconfig hbefore h
    exact min_le_min_right _ (Int.floor_le_floor
      (scaledBy_le hconfig hbefore h (rawRequest_nonneg before config) hraw))

/-! The theorem at a tick of twelve free agents under the default settings, and at the same tick
with one agent more. -/

def busyTick (availableAgents : Int) : PacingSnapshot ℚ where
  campaignId := .ofString "k"
  mode := .PREDICTIVE
  availableAgents
  reservedAgents := 3
  dialingAgents := 18
  connectedAgents := 4
  wrapUpAgents := 2
  longConnectedAgents := 1
  previousAvailableAgents := 12
  ringingCalls := 10
  initiatedCalls := 8
  activeCalls := 18
  recentAnswerRate := some (8 / 25)
  previousAnswerRate := some (3 / 10)
  baselineAnswerRate := 8 / 25
  avgTalkTimeSeconds := 120
  avgSetupTimeMs := 900
  providerStatus := .HEALTHY
  healthFactor := 1
  capturedAt := 0

example : (computeRequest (busyTick 12) (DialerBase.engineConfig {})).explanation =
    "12 agents free + 3 soon-free (weighted 1.5) = 13.5 capacity; at 32% estimated answer rate " ++
    "that needs 42 calls; 21 already in flight leaves 21; x0.85 safety margin x1 health " ++
    "x1 volatility = 17 requested." := by
  decide +kernel

theorem sensible_default : Sensible (DialerBase.engineConfig {}) where
  minRate := by decide +kernel
  rates := by decide +kernel
  maxRate := by decide +kernel
  weight := by decide +kernel
  margin := by decide +kernel
  volatility := by decide +kernel
  forced := fun _ h => by cases h
  request := by decide +kernel

theorem plausible_busyTick {n : Int} (hn : 0 ≤ n) : Plausible (busyTick n) where
  available := hn
  reserved := by simp [busyTick]
  wrapUp := by simp [busyTick]
  longConnected := by simp [busyTick]
  ringing := by simp [busyTick]
  initiated := by simp [busyTick]
  recent := fun rate h => by cases h; norm_num
  previous := fun rate h => by cases h; norm_num
  baseline := by norm_num [busyTick]
  health := by norm_num [busyTick]

theorem busyTick_bounded_and_monotone :
    0 ≤ (computeRequest (busyTick 12) (DialerBase.engineConfig {})).requested
    ∧ (computeRequest (busyTick 12) (DialerBase.engineConfig {})).requested
      ≤ (computeRequest (busyTick 13) (DialerBase.engineConfig {})).requested := by
  obtain ⟨hbounds, hmonotone⟩ :=
    pacing_bounded_and_monotone (DialerBase.engineConfig {}) sensible_default
  have hbefore : Plausible (busyTick 12) := plausible_busyTick (by decide)
  have hafter : Plausible (busyTick 13) := plausible_busyTick (by decide)
  have heased : Eased (DialerBase.engineConfig {}) (busyTick 12) (busyTick 13) := by
    refine ⟨?_, le_refl _, le_refl _, le_refl _, le_refl _, le_refl _, le_refl _, ?_, le_refl _, rfl⟩
    · show (12 : Int) ≤ 13
      decide
    · exact Or.inr ⟨8 / 25, rfl, 8 / 25, rfl, le_refl _⟩
  exact ⟨(hbounds (busyTick 12) hbefore).2.1, hmonotone _ _ hbefore hafter heased⟩

end SmartDialer
