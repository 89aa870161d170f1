import SmartDialer.Metrics.Conservation

/-!
# Utilization is a ratio

Every write that credits connected or wrap-up time credits the busy time with as much, and the
credit is never negative, whatever the clock shows. So the counters only grow and keep their order,
and the time in the present state, which the report adds on top, does not disturb it.
-/

namespace SmartDialer

open DocStore Concurrent HostFloat

namespace Utilization

/-! ## The counters

The order between the counters needs no clock: it holds at any reading, also where time appears to
run backwards, since a negative difference is cut at zero before it is credited. -/

/-- Counters as they stand to each other. -/
structure Tallied (g : Agent) : Prop where
  busy : 0 ≤ g.busyTimeMs
  available : 0 ≤ g.availableTimeMs
  connected : 0 ≤ g.connectedTimeMs
  wrapUp : 0 ≤ g.wrapUpTimeMs
  productive : g.connectedTimeMs + g.wrapUpTimeMs ≤ g.busyTimeMs

/-- No counter has been turned back. -/
structure Grown (g g' : Agent) : Prop where
  busy : g.busyTimeMs ≤ g'.busyTimeMs
  available : g.availableTimeMs ≤ g'.availableTimeMs
  connected : g.connectedTimeMs ≤ g'.connectedTimeMs
  wrapUp : g.wrapUpTimeMs ≤ g'.wrapUpTimeMs

theorem Grown.refl (g : Agent) : Grown g g :=
  ⟨le_refl _, le_refl _, le_refl _, le_refl _⟩

theorem Grown.trans {g g' g'' : Agent} (h : Grown g g') (h' : Grown g' g'') : Grown g g'' where
  busy := h.busy.trans h'.busy
  available := h.available.trans h'.available
  connected := h.connected.trans h'.connected
  wrapUp := h.wrapUp.trans h'.wrapUp

/-- `g'` has the counters of `g`. -/
def SameCounters (g g' : Agent) : Prop :=
  g'.busyTimeMs = g.busyTimeMs ∧ g'.availableTimeMs = g.availableTimeMs
    ∧ g'.connectedTimeMs = g.connectedTimeMs ∧ g'.wrapUpTimeMs = g.wrapUpTimeMs

theorem SameCounters.grown {g g' : Agent} (h : SameCounters g g') : Grown g g' := by
  obtain ⟨hbusy, havailable, hconnected, hwrap⟩ := h
  exact ⟨hbusy.ge, havailable.ge, hconnected.ge, hwrap.ge⟩

theorem SameCounters.tallied {g g' : Agent} (h : SameCounters g g') (htallied : Tallied g) :
    Tallied g' := by
  obtain ⟨hbusy, havailable, hconnected, hwrap⟩ := h
  constructor
  · rw [hbusy]; exact htallied.busy
  · rw [havailable]; exact htallied.available
  · rw [hconnected]; exact htallied.connected
  · rw [hwrap]; exact htallied.wrapUp
  · rw [hbusy, hconnected, hwrap]; exact htallied.productive

theorem Created.tallied {g : Agent} {since : Time} (h : Created g since) : Tallied g := by
  have := h.busy
  have := h.available
  have := h.connected
  have := h.wrapUp
  constructor <;> omega

/-! ## One operation

Each write credits the state that is left, or nothing. Connected and wrap-up time are parts of the
busy time, so the order between the three is kept. -/

/-- The credit for the state that is left, at any clock reading: no counter falls. -/
theorem grown_timeAccountingUpdates (s : AgentState) (now : Time) (g : Agent) :
    Grown g (AgentRepo.timeAccountingUpdates s now g) := by
  have helapsed : 0 ≤ AgentRepo.elapsed now g := le_max_left 0 _
  unfold AgentRepo.timeAccountingUpdates AgentRepo.creditTime
  constructor <;> dsimp only <;> split <;> omega

theorem tallied_timeAccountingUpdates (s : AgentState) (now : Time) {g : Agent} (h : Tallied g) :
    Tallied (AgentRepo.timeAccountingUpdates s now g) := by
  have hgrown := grown_timeAccountingUpdates s now g
  have helapsed : 0 ≤ AgentRepo.elapsed now g := le_max_left 0 _
  refine ⟨h.busy.trans hgrown.busy, h.available.trans hgrown.available,
    h.connected.trans hgrown.connected, h.wrapUp.trans hgrown.wrapUp, ?_⟩
  have hproductive := h.productive
  -- whatever credits connected or wrap-up time credits the busy time too, and never both
  cases s <;>
    simp [AgentRepo.timeAccountingUpdates, AgentRepo.creditTime, AgentRepo.timeAccountingFields] <;>
    omega

/-- The generated `$switch` credits as the direct pipeline does, or not at all. -/
theorem conditionalAccounting_eq (sources : List AgentState) (now : Time) (g : Agent) :
    AgentRepo.conditionalAccounting sources now g = AgentRepo.timeAccountingUpdates g.state now g
      ∨ AgentRepo.conditionalAccounting sources now g = g := by
  unfold AgentRepo.conditionalAccounting
  split
  · exact Or.inl rfl
  · exact Or.inr rfl

/-- **One operation**, at any clock reading. Each write is compared with the credit for the state
that is left; what else it sets is no counter. -/
theorem tallied_step {now : Time} {o : Op} {g g' : Agent} (hwrite : AgentWrite now o g g')
    (h : Tallied g) : Tallied g' ∧ Grown g g' := by
  have hsame : ∀ {g'}, SameCounters g g' → Tallied g' ∧ Grown g g' :=
    fun h' => ⟨h'.tallied h, h'.grown⟩
  have hcredit : ∀ {d g'}, Tallied d ∧ Grown g d → SameCounters d g' → Tallied g' ∧ Grown g g' :=
    fun hd h' => ⟨h'.tallied hd.1, hd.2.trans h'.grown⟩
  -- a write keeps the counters, or it credits the state that is left and keeps the rest
  cases hwrite with
  | unchanged => exact ⟨h, Grown.refl g⟩
  | reserve => exact hsame ⟨rfl, rfl, rfl, rfl⟩
  | @release _ w t actor hworker hstate =>
    -- the filter has matched one of the sources, but the bound holds whichever branch is taken
    have hd : Tallied (AgentRepo.conditionalAccounting (AgentSm.allowedSources t actor) now g)
        ∧ Grown g (AgentRepo.conditionalAccounting (AgentSm.allowedSources t actor) now g) := by
      rcases conditionalAccounting_eq (AgentSm.allowedSources t actor) now g with heq | heq
      · rw [heq]
        exact ⟨tallied_timeAccountingUpdates g.state now h, grown_timeAccountingUpdates g.state now g⟩
      · rw [heq]
        exact ⟨h, Grown.refl g⟩
    exact hcredit hd ⟨rfl, rfl, rfl, rfl⟩
  | transition =>
    exact hcredit
      ⟨tallied_timeAccountingUpdates g.state now h, grown_timeAccountingUpdates g.state now g⟩
      ⟨rfl, rfl, rfl, rfl⟩
  | bind => exact hsame ⟨rfl, rfl, rfl, rfl⟩
  | reclaim => exact hsame ⟨rfl, rfl, rfl, rfl⟩
  | beat => exact hsame ⟨rfl, rfl, rfl, rfl⟩

/-! ## Sequences of operations

From counters at zero, over any operations of any actors. -/

/-- **A sequence of operations**, at any clock readings. -/
theorem tallied_run {a : DocId} {σ : Store} {g : Agent} (ops : List (Env × Op))
    (hg : σ.agents.get? a = some g) (h : Tallied g) :
    ∃ g', (after σ ops).agents.get? a = some g' ∧ Tallied g' ∧ Grown g g' := by
  induction ops generalizing σ g with
  | nil => exact ⟨g, hg, h, Grown.refl g⟩
  | cons x ops ih =>
    -- one operation, then the rest from the agent it leaves
    obtain ⟨g₁, hg₁, hwrite⟩ := exec_agent x.1 x.2 hg
    obtain ⟨h₁, hgrown⟩ := tallied_step hwrite h
    obtain ⟨g', hg', h', hgrown'⟩ := ih hg₁ h₁
    exact ⟨g', hg', h', hgrown.trans hgrown'⟩

theorem after_append (σ : Store) (done rest : List (Env × Op)) :
    after σ (done ++ rest) = after (after σ done) rest :=
  List.foldl_append

/-- An agent that once had counters at zero, after any operations at any clock readings. -/
def Reached (g : Agent) : Prop :=
  ∃ (a : DocId) (σ : Store) (g₀ : Agent) (since : Time) (ops : List (Env × Op)),
    σ.agents.get? a = some g₀ ∧ Created g₀ since ∧ (after σ ops).agents.get? a = some g

theorem Reached.tallied {g : Agent} (h : Reached g) : Tallied g := by
  obtain ⟨a, σ, g₀, since, ops, hg₀, hcreated, hg⟩ := h
  obtain ⟨g', hg', htallied, -⟩ := tallied_run ops hg₀ hcreated.tallied
  cases hg.symm.trans hg'
  exact htallied

/-! ## The reported ratios

A report adds the time in the present state, at any instant, and divides. -/

/-- Connected, productive and counted time as they stand to each other. -/
structure Nested (connected productive counted : Int) : Prop where
  nonneg : 0 ≤ connected
  talk : connected ≤ productive
  productive : productive ≤ counted

theorem Nested.add {c p n k q m : Int} (h : Nested c p n) (h' : Nested k q m) :
    Nested (c + k) (p + q) (n + m) where
  nonneg := Int.add_nonneg h.nonneg h'.nonneg
  talk := Int.add_le_add h.talk h'.talk
  productive := Int.add_le_add h.productive h'.productive

/-- Talk and productive utilization are ratios in the unit interval, in this order; they are absent
exactly where no time is counted. -/
structure UnitRatios {F : Type} [FloatOps F] (counted : Int) (talk productive : Option F) : Prop
    where
  counted_nonneg : 0 ≤ counted
  talk_absent : talk = none ↔ counted = 0
  productive_absent : productive = none ↔ counted = 0
  bounds : ∀ x ∈ talk, ∀ y ∈ productive, FloatOps.le (FloatOps.ofInt 0) x ∧ FloatOps.le x y
    ∧ FloatOps.le y (FloatOps.ofInt 1)

theorem ratio_none_iff {F : Type} [FloatOps F] {m n : Int} (hn : 0 ≤ n) :
    ratio F m n = none ↔ n = 0 := by
  unfold ratio
  split
  · simp only [true_iff]
    omega
  · simp only [reduceCtorEq, false_iff]
    omega

section Report

variable {F : Type} [FloatArith F] [Rounded F]

/-- Quotients of nested totals are ratios in the unit interval, in the same order. -/
theorem Nested.unitRatios {c p n : Int} (h : Nested c p n) :
    UnitRatios n (ratio F c n) (ratio F p n) := by
  have hp : 0 ≤ p := h.nonneg.trans h.talk
  have hn : 0 ≤ n := hp.trans h.productive
  refine ⟨hn, ratio_none_iff hn, ratio_none_iff hn, fun x hx y hy => ?_⟩
  by_cases hzero : n ≤ 0
  · simp [ratio, hzero] at hx
  · have hpos : 0 < n := by omega
    simp only [ratio, hzero, if_false, Option.mem_def, Option.some.injEq] at hx hy
    subst hx hy
    -- the three inequalities are between quotients over one denominator, rounded monotonically
    refine ⟨?_, ?_, ?_⟩
    · rw [← Rounded.divInt_zero hpos]
      exact Rounded.divInt_le hpos hpos (Int.mul_le_mul_of_nonneg_right h.nonneg hn)
    · exact Rounded.divInt_le hpos hpos (Int.mul_le_mul_of_nonneg_right h.talk hn)
    · rw [← Rounded.divInt_self hpos]
      exact Rounded.divInt_le hpos hpos (Int.mul_le_mul_of_nonneg_right h.productive hn)

theorem elapsedInCurrentStateMs_defined (g : Agent) (t : Time) :
    ∃ e, elapsedInCurrentStateMs F g t = some e ∧ 0 ≤ e := by
  unfold elapsedInCurrentStateMs
  split
  · exact ⟨0, rfl, le_refl 0⟩
  · exact wholeMillis_defined F _

/-- The time in the present state goes into the counted total, and into one of the other two at
most. -/
theorem liveTotals_nested {g : Agent} (h : Tallied g) (t : Time) :
    ∃ c p n, liveTotals F g t = some (c, p, n) ∧ Nested c p n := by
  obtain ⟨e, he, hnonneg⟩ := elapsedInCurrentStateMs_defined (F := F) g t
  unfold liveTotals
  rw [he, Option.map_some]
  refine ⟨_, _, _, rfl, ?_⟩
  have hconnected := h.connected
  have hwrap := h.wrapUp
  have hproductive := h.productive
  have havailable := h.available
  -- state by state: the time goes to none of the two, or to one of them
  constructor <;> cases g.state <;> simp <;> omega

theorem totals_nested {agents : List Agent} (h : ∀ g ∈ agents, Tallied g) (t : Time) :
    ∃ totals, (agents.mapM fun agent => liveTotals F agent t) = some totals
      ∧ Nested (totals.map fun item => item.1).sum (totals.map fun item => item.2.1).sum
        (totals.map fun item => item.2.2).sum := by
  induction agents with
  | nil => exact ⟨[], rfl, ⟨le_refl _, le_refl _, le_refl _⟩⟩
  | cons g agents ih =>
    obtain ⟨totals, htotals, hnested⟩ := ih fun g' hg' => h g' (List.mem_cons_of_mem g hg')
    obtain ⟨c, p, n, hlive, hone⟩ := liveTotals_nested (F := F) (h g List.mem_cons_self) t
    refine ⟨(c, p, n) :: totals, ?_, ?_⟩
    · rw [List.mapM_cons, hlive, htotals]
      rfl
    · simp only [List.map_cons, List.sum_cons]
      exact hone.add hnested

end Report

/-- **Utilization is a ratio.** Of an agent that starts with counters at zero, after every sequence
of operations at any clock readings: the counters are not negative, only grow, and connected and
wrap-up time together do not exceed the busy time. The report of such an agent, and that of a list
of them, at any instant: ratios in the unit interval, or none where no time is counted. -/
theorem utilization_is_ratio (F : Type) [FloatArith F] [Rounded F] :
    (∀ (a : DocId) (σ : Store) (g₀ : Agent) (since : Time) (ops : List (Env × Op)),
      σ.agents.get? a = some g₀ → Created g₀ since → ∀ done rest, ops = done ++ rest →
        ∃ g g', (after σ done).agents.get? a = some g ∧ (after σ ops).agents.get? a = some g'
          ∧ Tallied g ∧ Tallied g' ∧ Grown g g')
    ∧ (∀ g, Reached g → ∀ t, ∃ u, agentUtilization F g t = some u
        ∧ UnitRatios u.countedTimeMs u.talkUtilization u.productiveUtilization)
    ∧ ∀ agents, (∀ g ∈ agents, Reached g) → ∀ t, ∃ u, campaignUtilization F agents t = some u
        ∧ UnitRatios u.countedTimeMs u.talkUtilization u.productiveUtilization := by
  refine ⟨fun a σ g₀ since ops hg₀ hcreated done rest hsplit => ?_, fun g hg t => ?_,
    fun agents hagents t => ?_⟩
  · obtain ⟨g, hg, htallied, -⟩ := tallied_run done hg₀ hcreated.tallied
    obtain ⟨g', hg', htallied', hgrown⟩ := tallied_run rest hg htallied
    rw [hsplit, after_append]
    exact ⟨g, g', hg, hg', htallied, htallied', hgrown⟩
  · obtain ⟨c, p, n, hlive, hnested⟩ := liveTotals_nested (F := F) hg.tallied t
    unfold agentUtilization
    rw [hlive, Option.map_some]
    exact ⟨_, rfl, hnested.unitRatios⟩
  -- the campaign: sums over its agents
  · obtain ⟨totals, htotals, hnested⟩ :=
      totals_nested (F := F) (fun g hg => (hagents g hg).tallied) t
    unfold campaignUtilization
    rw [htotals, Option.map_some]
    exact ⟨_, rfl, hnested.unitRatios⟩

/-! The theorem at a call during which the clock is set back: the agent talks from 4 s on and hangs
up when the clock shows 3 s. At 5 s two of the five counted seconds have been productive. -/

def talkOnSkewedClock : List (Env × Op) :=
  [({ now := 1000 }, .transitionAgent timedAgent.id .OFFLINE .AVAILABLE .AGENT 0),
    ({ now := 1000 }, .tryReserveAgent timedAgent.campaignId timedAgent.id "w" 30),
    ({ now := 2000 }, .transitionAgent timedAgent.id .RESERVED .DIALING .ALLOCATOR 2),
    ({ now := 4000 }, .transitionAgent timedAgent.id .DIALING .CONNECTED .EVENT_PROCESSOR 3),
    ({ now := 3000 }, .releaseAgent timedAgent.id "w" .WRAP_UP .EVENT_PROCESSOR)]

theorem utilization_on_skewed_clock :
    ∃ g, (after timedStore talkOnSkewedClock).agents.get? timedAgent.id = some g
      ∧ Tallied g
      ∧ ∃ u, agentUtilization ℚ g 5000 = some u ∧ u.countedTimeMs = 5000
        ∧ u.talkUtilization = some 0 ∧ u.productiveUtilization = some (2 / 5)
        ∧ UnitRatios u.countedTimeMs u.talkUtilization u.productiveUtilization
        ∧ ∃ c, campaignUtilization ℚ [g, g] 5000 = some c
          ∧ UnitRatios c.countedTimeMs c.talkUtilization c.productiveUtilization := by
  have hstored : timedStore.agents.get? timedAgent.id = some timedAgent := by decide
  obtain ⟨hrun, hagent, hcampaign⟩ := utilization_is_ratio ℚ
  obtain ⟨-, g, -, hg, -, htallied, -⟩ := hrun timedAgent.id timedStore timedAgent 0
    talkOnSkewedClock hstored created_timedAgent talkOnSkewedClock [] rfl
  have hreached : Reached g :=
    ⟨timedAgent.id, timedStore, timedAgent, 0, talkOnSkewedClock, hstored, created_timedAgent, hg⟩
  obtain ⟨u, hu, hratios⟩ := hagent g hreached 5000
  have hvalues : (((after timedStore talkOnSkewedClock).agents.get? timedAgent.id).bind fun g =>
      (agentUtilization ℚ g 5000).map fun u =>
        (u.countedTimeMs, u.talkUtilization, u.productiveUtilization))
        = some (5000, some 0, some (2 / 5)) := by
    decide +kernel
  rw [hg, Option.bind_some, hu, Option.map_some] at hvalues
  simp only [Option.some.injEq, Prod.mk.injEq] at hvalues
  refine ⟨g, hg, htallied, u, hu, hvalues.1, hvalues.2.1, hvalues.2.2, hratios,
    hcampaign [g, g] ?_ 5000⟩
  intro g' hg'
  simp only [List.mem_cons, List.not_mem_nil, or_false, or_self] at hg'
  rw [hg']
  exact hreached

end Utilization

end SmartDialer
