import SmartDialer.Safety.Isolation

/-!
# What a safety decision says about itself

A decision carries the constraints it was made from, one of them marked as the binding one, a
verdict and a fallback reason. They are computed apart from each other; this module proves that they
tell one story.

The hard part is the marked constraint. `_mark_binding` marks the first constraint whose limit is
the approved count, and it need not be one that has lowered the count: a constraint that falls back
to the number of available agents may have that limit too. `marked_buildConstraints` shows that it
is never reached, because agent capacity comes before it and is no higher.
-/

namespace SmartDialer.SafetyController

open Concurrent HostFloat

/-! ## The least of a list

The approved count is a fold of `min` over the limits, and all that is needed of it is where it
comes from. -/

theorem foldl_min_eq_or_mem (l : List Int) (a : Int) : l.foldl min a = a ∨ l.foldl min a ∈ l := by
  -- on the list: the fold goes on from the lesser of the two
  induction l generalizing a with
  | nil => exact Or.inl rfl
  | cons x l ih =>
    simp only [List.foldl_cons]
    rcases ih (min a x) with h | h
    · rcases min_choice a x with hmin | hmin
      · exact Or.inl (h.trans hmin)
      · exact Or.inr (by rw [h, hmin]; exact List.mem_cons_self)
    · exact Or.inr (List.mem_cons_of_mem x h)

/-! ## The marked constraint

`Marked` splits the list at the constraint that is marked. What comes before it has another limit,
and nothing after it is marked. -/

section Marking

variable {F : Type}

/-- A constraint list with its first item at the given limit marked, and no other. -/
structure Marked (approved : Int) (before : List (SafetyConstraintResult F))
    (item : SafetyConstraintResult F) (after : List (SafetyConstraintResult F)) : Prop where
  limit : item.limit = approved
  binding : item.binding = true
  first : ∀ other ∈ before, other.limit ≠ approved ∧ other.binding = false
  only : ∀ other ∈ after, other.binding = false

theorem markBindingFrom_true (approved : Int) (constraints : List (SafetyConstraintResult F)) :
    ∀ item ∈ markBindingFrom approved true constraints, item.binding = false := by
  induction constraints with
  | nil => simp [markBindingFrom]
  | cons constraint rest ih =>
    intro item hitem
    simp only [markBindingFrom, Bool.not_true, Bool.false_and, Bool.true_or, List.mem_cons] at hitem
    rcases hitem with rfl | hitem
    · rfl
    · exact ih item hitem

/-- The loop marks the first item at the approved count, if there is one. By induction on the list,
with a flag for whether one has been marked. -/
theorem marked_markBindingFrom {approved : Int} {constraints : List (SafetyConstraintResult F)}
    (h : ∃ item ∈ constraints, item.limit = approved) :
    ∃ before item after, markBindingFrom approved false constraints = before ++ item :: after
      ∧ Marked approved before item after := by
  -- on the constraints: the first is at the limit, or one of the rest is
  induction constraints with
  | nil =>
    obtain ⟨item, hitem, -⟩ := h
    cases hitem
  | cons constraint rest ih =>
    by_cases hlimit : constraint.limit = approved
    · refine ⟨[], { constraint with binding := true }, markBindingFrom approved true rest, ?_, ?_⟩
      · simp [markBindingFrom, hlimit]
      · exact ⟨hlimit, rfl, by simp, markBindingFrom_true approved rest⟩
    · have hrest : ∃ item ∈ rest, item.limit = approved := by
        obtain ⟨item, hitem, heq⟩ := h
        rcases List.mem_cons.mp hitem with rfl | hitem
        · exact absurd heq hlimit
        · exact ⟨item, hitem, heq⟩
      obtain ⟨before, item, after, hsplit, hmarked⟩ := ih hrest
      refine ⟨{ constraint with binding := false } :: before, item, after, ?_, hmarked.limit,
        hmarked.binding, ?_, hmarked.only⟩
      · simp [markBindingFrom, hlimit, hsplit]
      · intro other hother
        rcases List.mem_cons.mp hother with rfl | hother
        · exact ⟨hlimit, rfl⟩
        · exact hmarked.first other hother

theorem map_outline_markBindingFrom (approved : Int) (marked : Bool)
    (constraints : List (SafetyConstraintResult F)) :
    (markBindingFrom approved marked constraints).map outline = constraints.map outline := by
  induction constraints generalizing marked with
  | nil => rfl
  | cons constraint rest ih =>
    simp only [markBindingFrom, List.map_cons, ih]
    rfl

theorem Marked.find {approved : Int} {before after : List (SafetyConstraintResult F)}
    {item : SafetyConstraintResult F} (h : Marked approved before item after) :
    (before ++ item :: after).find? (fun item => item.binding) = some item := by
  have hbefore : before.find? (fun item => item.binding) = none :=
    List.find?_eq_none.mpr fun other hother => by simp [(h.first other hother).2]
  rw [List.find?_append, hbefore, Option.none_or, List.find?_cons_of_pos h.binding]

end Marking

/-! ## The story of a decision

`Explained` is what a reader of the decision log may rely on: the binding constraint says what has
lowered the count, and the verdict and the fallback reason do not contradict it. -/

section Story

variable {F : Type}

/-- The constraints that never bind, if the provider has this status. -/
def idle (status : ProviderHealthStatus) (name : String) : Prop :=
  name ∈ ["progressive_mode_cap", "availability_drop", "failure_rate"]
    ∨ name = "provider_health" ∧ status ≠ .UNHEALTHY

/-- The story of a decision about `requested` calls, when `should_fallback_to_progressive` has
answered `reason`: it records both, and its constraints and its verdict agree with them and with
the approved count. -/
structure Explained (status : ProviderHealthStatus) (requested : Int) (reason : Option String)
    (decision : SafetyDecision F) : Prop where
  asked : decision.requested = requested
  recorded : decision.fallbackReason = reason
  marked : decision.approved < requested →
    ∃ before item after, decision.constraints = before ++ item :: after
      ∧ Marked decision.approved before item after
      ∧ decision.bindingConstraint = some item.name ∧ ¬ idle status item.name
  unmarked : requested ≤ decision.approved →
    (∀ item ∈ decision.constraints, item.binding = false) ∧ decision.bindingConstraint = none
  rejected : decision.verdict = .REJECTED ↔ 0 < requested ∧ decision.approved = 0
  fallback : decision.verdict = .FALLBACK_PROGRESSIVE ↔ 0 < decision.approved ∧ reason ≠ none
  reduced : decision.verdict = .REDUCED
    ↔ reason = none ∧ 0 < decision.approved ∧ decision.approved < requested
  approved : decision.verdict = .APPROVED
    ↔ ¬ (0 < requested ∧ decision.approved = 0) ∧ ¬ (0 < decision.approved ∧ reason ≠ none)
      ∧ ¬ (reason = none ∧ 0 < decision.approved ∧ decision.approved < requested)
  reasons : reason = some "stale_state" ∨ reason = some "excessive_ringing" →
    decision.approved = 0

/-- **The verdicts**, by the approved count and the reason. -/
theorem verdictFor_story {requested approved : Int} (h₀ : 0 ≤ approved) (hle : approved ≤ requested)
    (reason : Option String) :
    (verdictFor requested approved reason = .REJECTED ↔ 0 < requested ∧ approved = 0)
    ∧ (verdictFor requested approved reason = .FALLBACK_PROGRESSIVE ↔ 0 < approved ∧ reason ≠ none)
    ∧ (verdictFor requested approved reason = .REDUCED
      ↔ reason = none ∧ 0 < approved ∧ approved < requested)
    ∧ (verdictFor requested approved reason = .APPROVED ↔ ¬ (0 < requested ∧ approved = 0)
      ∧ ¬ (0 < approved ∧ reason ≠ none) ∧ ¬ (reason = none ∧ 0 < approved ∧ approved < requested)) := by
  unfold verdictFor
  -- `_verdict` asks in this order: is anything requested, is anything approved, is there a reason
  by_cases hrequested : requested = 0
  · have hzero : approved = 0 := by omega
    simp [hrequested, hzero]
  · have hasked : 0 < requested := by omega
    by_cases happroved : approved = 0
    · simp [hrequested, happroved, hasked]
    · have hpos : 0 < approved := by omega
      cases reason with
      | some reason => simp [hrequested, happroved, hpos]
      | none =>
        by_cases hlt : approved < requested
        · simp [hrequested, happroved, hpos, hlt]
        · simp [hrequested, happroved, hlt]

end Story

/-! ## Decisions of `_evaluate`

Stale state and excessive ringing are reasons whose own constraint is at 0, so such a decision
approves nothing. The other reasons go with constraints that fall back to the available agents. -/

section Concluded

variable {F : Type} [FloatOps F] (settings : SafetySettings F) (campaign : Campaign)
  (request : PacingRequest F) (pacingDecisionId : Option DocId) (reading : CapacityReading F)
  (age ceiling : Int) (drop : Option (AvailabilityDrop F)) (createdAt : Time)

omit [FloatOps F] in
/-- A reason of stale state or of excessive ringing comes from its own test. -/
theorem cause_of_reason [FloatOps F] {inputs : FallbackInputs F}
    (h : shouldFallbackToProgressive inputs = some "stale_state"
      ∨ shouldFallbackToProgressive inputs = some "excessive_ringing") :
    inputs.snapshotIsStale = true ∨ inputs.ringingCalls > inputs.ringingCeiling := by
  unfold shouldFallbackToProgressive at h
  split at h
  · next hstale => exact Or.inl hstale
  · split at h
    · simp at h
    · split at h
      · simp at h
      · split at h
        · next hringing => exact Or.inr hringing
        · split at h <;> simp at h

/-- Such a reason names a limit of 0. -/
theorem safetyBound_of_reason
    (h : shouldFallbackToProgressive (fallbackInputs settings reading age ceiling drop)
        = some "stale_state"
      ∨ shouldFallbackToProgressive (fallbackInputs settings reading age ceiling drop)
        = some "excessive_ringing") :
    safetyBound settings campaign reading age ceiling = 0 := by
  unfold safetyBound
  rcases cause_of_reason h with hstale | hringing
  · have hstale : snapshotIsStale settings reading age = true := hstale
    simp [hstale]
  · have hringing : reading.ringingCalls > ceiling := hringing
    -- no call may ring beside those that do
    have hbound : capacityBound campaign reading ceiling = 0 := by
      unfold capacityBound
      omega
    simp [hbound]

/-- The limit of a constraint that never binds is the request or the number of available agents. -/
theorem limit_of_idle {dropRatio : F} {stale : Bool} {item : SafetyConstraintResult F}
    (hitem : item ∈ buildConstraints settings campaign request reading reading.availableAgents ceiling
      stale dropRatio) (hidle : idle reading.providerStatus item.name) :
    item.limit = request.requested ∨ item.limit = reading.availableAgents := by
  simp only [buildConstraints, List.mem_cons, List.not_mem_nil, or_false] at hitem
  -- the eight constraints, in the order in which they are built
  rcases hitem with rfl | rfl | rfl | rfl | rfl | rfl | rfl | rfl
  · simp [idle] at hidle
  · simp [idle] at hidle
  · simp [idle] at hidle
  · have hstatus : reading.providerStatus ≠ .UNHEALTHY := by simpa [idle] using hidle
    show healthLimit _ _ _ = _ ∨ healthLimit _ _ _ = _
    cases hs : reading.providerStatus with
    | HEALTHY => exact Or.inl rfl
    | DEGRADED => exact Or.inr rfl
    | UNHEALTHY => exact absurd hs hstatus
  · show (if _ then _ else _) = _ ∨ (if _ then _ else _) = _
    split <;> simp
  · simp [idle] at hidle
  · show (if _ then _ else _) = _ ∨ (if _ then _ else _) = _
    split <;> simp
  · show (if _ then _ else _) = _ ∨ (if _ then _ else _) = _
    split <;> simp

/-- All limits are counts when the request and the number of available agents are. -/
theorem limit_nonneg {dropRatio : F} {stale : Bool} {item : SafetyConstraintResult F}
    (hrequested : 0 ≤ request.requested) (havailable : 0 ≤ reading.availableAgents)
    (hitem : item ∈ buildConstraints settings campaign request reading reading.availableAgents ceiling
      stale dropRatio) : 0 ≤ item.limit := by
  simp only [buildConstraints, List.mem_cons, List.not_mem_nil, or_false] at hitem
  -- the three counters first, then the status of the provider
  rcases hitem with rfl | rfl | rfl | rfl | rfl | rfl | rfl | rfl
  · exact le_max_left _ _
  · exact le_max_left _ _
  · exact le_max_left _ _
  · show 0 ≤ healthLimit _ _ _
    cases reading.providerStatus with
    | HEALTHY => exact hrequested
    | DEGRADED => exact havailable
    | UNHEALTHY => exact le_refl 0
  all_goals
    dsimp only
    split <;> omega

/-- **The first constraint at the approved count is one that bites.** The approved count is the
smallest limit, so some constraint has it as its own limit; that limit is less than the request, so
the constraint takes something away. -/
theorem marked_buildConstraints (dropRatio : F) (stale : Bool)
    (hrequested : 0 ≤ request.requested) (havailable : 0 ≤ reading.availableAgents)
    (hreserved : 0 ≤ reading.reservedAgents) {constraints : List (SafetyConstraintResult F)}
    (hconstraints : buildConstraints settings campaign request reading reading.availableAgents ceiling
      stale dropRatio = constraints)
    (hlt : approvedCount request.requested constraints < request.requested) :
    ∃ before item after,
      markBinding constraints (approvedCount request.requested constraints) request.requested
        = before ++ item :: after
      ∧ Marked (approvedCount request.requested constraints) before item after
      ∧ ¬ idle reading.providerStatus item.name := by
  have hnonneg : ∀ item ∈ constraints, 0 ≤ item.limit := fun item hitem =>
    limit_nonneg settings campaign request reading ceiling hrequested havailable
      (hconstraints ▸ hitem)
  have hidle : ∀ item ∈ constraints, idle reading.providerStatus item.name →
      item.limit = request.requested ∨ item.limit = reading.availableAgents := fun item hitem =>
    limit_of_idle settings campaign request reading ceiling (hconstraints ▸ hitem)
  -- agent capacity is built first
  obtain ⟨head, rest, hsplit, hname, hhead⟩ : ∃ head rest, constraints = head :: rest
      ∧ head.name = "agent_capacity"
      ∧ head.limit = max 0 (reading.availableAgents - reading.reservedAgents) :=
    ⟨_, _, hconstraints.symm, rfl, rfl⟩
  -- the approved count is the least of the limits, and one of them
  have hle := (foldl_min_le (constraints.map fun item => item.limit) request.requested).2
  have happroved : approvedCount request.requested constraints
      = max 0 ((constraints.map fun item => item.limit).foldl min request.requested) := rfl
  obtain ⟨item₀, hitem₀, hlimit₀⟩ : ∃ item ∈ constraints,
      item.limit = approvedCount request.requested constraints := by
    rcases foldl_min_eq_or_mem (constraints.map fun item => item.limit) request.requested with h | h
    · omega
    · obtain ⟨item, hitem, hlimit⟩ := List.mem_map.mp h
      have hpos := hnonneg item hitem
      exact ⟨item, hitem, by omega⟩
  generalize approvedCount request.requested constraints = approved at hlt happroved hlimit₀ ⊢
  obtain ⟨before, item, after, hmark, hmarked⟩ := marked_markBindingFrom ⟨item₀, hitem₀, hlimit₀⟩
  refine ⟨before, item, after, ?_, hmarked, fun hitemidle => ?_⟩
  · unfold markBinding
    rw [if_neg (by omega), hmark]
  · -- the names and limits are those before the marking
    have houtline := congrArg (List.map outline) hmark
    rw [map_outline_markBindingFrom] at houtline
    obtain ⟨item', hitem', hsame⟩ : ∃ item' ∈ constraints, outline item' = outline item := by
      have hmem : outline item ∈ constraints.map outline := by
        rw [houtline]
        simp
      exact List.mem_map.mp hmem
    have hsamename : item'.name = item.name := congrArg Prod.fst hsame
    have hsamelimit : item'.limit = item.limit := congrArg Prod.snd hsame
    have hlimit := hmarked.limit
    -- a constraint that never binds is at the request, which is more than the approved count, or at
    -- the available agents
    rcases hidle item' hitem' (hsamename ▸ hitemidle) with h | h
    · omega
    · -- agent capacity is at the approved count too, and comes first
      have hheadle := hle head.limit (List.mem_map.mpr ⟨head, by rw [hsplit]; simp, rfl⟩)
      have hheadlimit : head.limit = approved := by omega
      cases before with
      | nil =>
        rw [hsplit] at houtline
        have hfirst := (List.cons.inj houtline).1
        have hheadname : head.name = item.name := congrArg Prod.fst hfirst
        rw [← hheadname, hname] at hitemidle
        simp [idle] at hitemidle
      | cons other before =>
        rw [hsplit] at houtline
        have hfirst := (List.cons.inj houtline).1
        have hotherlimit : head.limit = other.limit := congrArg Prod.snd hfirst
        exact (hmarked.first other List.mem_cons_self).1 (hotherlimit ▸ hheadlimit)

/-- **Every decision that is concluded explains itself.** By the branches of the verdict: a
fallback, a rejection, a reduction, or an approval as requested. -/
theorem explained_conclude (hrequested : 0 ≤ request.requested)
    (havailable : 0 ≤ reading.availableAgents) (hreserved : 0 ≤ reading.reservedAgents) :
    Explained reading.providerStatus request.requested
      (shouldFallbackToProgressive (fallbackInputs settings reading age ceiling drop))
      (conclude settings campaign request pacingDecisionId reading age ceiling drop createdAt) := by
  have happroved := approved_conclude settings campaign request reading age ceiling pacingDecisionId
    drop createdAt havailable hreserved
  have hreasons := safetyBound_of_reason settings campaign reading age ceiling drop
  have hmarked := fun dropRatio h => marked_buildConstraints settings campaign request reading ceiling
    dropRatio (snapshotIsStale settings reading age) hrequested havailable hreserved rfl h
  -- the decision is named, so that its fields are not computed before they are needed
  set decision := conclude settings campaign request pacingDecisionId reading age ceiling drop
    createdAt with hdecision
  set reason := shouldFallbackToProgressive (fallbackInputs settings reading age ceiling drop)
    with hreason
  have hverdict : decision.verdict = verdictFor request.requested decision.approved reason := rfl
  obtain ⟨hrejected, hfallback, hreduced, hgranted⟩ := verdictFor_story
    (show 0 ≤ decision.approved by omega) (show decision.approved ≤ request.requested by omega)
    reason
  constructor
  · rfl
  · rfl
  -- less is approved than was requested: the marked constraint is the binding one
  · intro hlt
    obtain ⟨before, item, after, hsplit, hmark, hidle⟩ := hmarked _ hlt
    refine ⟨before, item, after, hsplit, hmark, ?_, hidle⟩
    show (List.find? _ _).map _ = _
    rw [hsplit, hmark.find]
    rfl
  -- all is approved: nothing is marked
  · intro hle
    have hmarking : decision.constraints = markBinding (buildConstraints settings campaign request
      reading reading.availableAgents ceiling (snapshotIsStale settings reading age) _)
      decision.approved request.requested := rfl
    have hunmarked : ∀ item ∈ decision.constraints, item.binding = false := by
      rw [hmarking, markBinding, if_pos hle]
      simp [buildConstraints]
    refine ⟨hunmarked, ?_⟩
    show (List.find? _ _).map _ = _
    rw [List.find?_eq_none.mpr fun item hitem => by simp [hunmarked item hitem]]
    rfl
  · rw [hverdict, hrejected]
  · rw [hverdict, hfallback]
  · rw [hverdict, hreduced]
  · rw [hverdict, hgranted]
  -- stale state or excessive ringing: the bound is 0
  · intro hcause
    rw [happroved, hreasons hcause]
    omega

end Concluded

/-! ## Evaluation as a whole

What holds of a concluded decision holds of what `evaluate` answers when its reads and its ceiling
have not raised. -/

section Evaluation

variable {F : Type} [FloatOps F] (settings : SafetySettings F)
  {exec : Env → (o : Op) → Store → Except Exn (Res o) × Store} (hclock : Clocked exec)
  (tracker : AgentAvailabilityTracker) (campaign : Campaign) (request : PacingRequest F)
  (pacingDecisionId : Option DocId) (persist : Bool)

include hclock

/-- **A safety decision explains itself.** Whatever is read of counts that are not negative, and
whatever the tracker and the ceiling say, the decision records what was requested and what
`should_fallback_to_progressive` has answered, and its constraints and its verdict agree with both
and with the approved count. So it is with every decision that `evaluate` comes to when it has read
everything and has got its ceiling. -/
theorem decision_explained (hrequested : 0 ≤ request.requested) :
    (∀ (reading : CapacityReading F) (age ceiling : Int) (drop : Option (AvailabilityDrop F))
      (createdAt : Time), 0 ≤ reading.availableAgents → 0 ≤ reading.reservedAgents →
      Explained reading.providerStatus request.requested
        (shouldFallbackToProgressive (fallbackInputs settings reading age ceiling drop))
        (conclude settings campaign request pacingDecisionId reading age ceiling drop createdAt))
    ∧ ∀ (envs : Nat → Env) (n : Nat) (σ : Store) (decision : SafetyDecision F)
        (tracker' : AgentAvailabilityTracker) (reading : CapacityReading F) (age ceiling : Int),
        ((evaluate settings tracker campaign request pacingDecisionId persist).run exec envs n σ).1
          = .ok (decision, tracker') →
        ((observe settings campaign request).run exec envs n σ).1 = .ok (reading, age) →
        ringingCeiling settings reading = some ceiling →
        Explained reading.providerStatus request.requested
          (shouldFallbackToProgressive (fallbackInputs settings reading age ceiling
            (recordAndDetect settings tracker campaign.id reading.availableAgents).1))
          decision := by
  refine ⟨fun reading age ceiling drop createdAt havailable hreserved => explained_conclude settings
    campaign request pacingDecisionId reading age ceiling drop createdAt hrequested havailable
    hreserved, ?_⟩
  intro envs n σ decision tracker' reading age ceiling hrun hobserved hceiling
  have hanswers := answers_evaluate settings hclock tracker campaign request pacingDecisionId persist
    envs n σ
  have hnonneg : ∀ r, ((observe settings campaign request).run exec envs n σ).1 = .ok r →
      0 ≤ r.1.availableAgents ∧ 0 ≤ r.1.reservedAgents :=
    (Prog.run_of_wp (maintains_observe settings campaign request σ trivial) (fun _ _ => trivial) n).2.1
  have hcounts := hnonneg (reading, age) hobserved
  revert hrun hanswers
  rcases (evaluate settings tracker campaign request pacingDecisionId persist).run exec envs n σ
    with ⟨r, σ', n'⟩
  rintro rfl hanswers
  have hanswers : Answers settings campaign request pacingDecisionId _ _ decision := hanswers
  rw [hobserved] at hanswers
  cases hanswers with
  | noCeiling createdAt hnone =>
    rw [hceiling] at hnone
    cases hnone
  | concluded createdAt hsome =>
    cases hceiling.symm.trans hsome
    exact explained_conclude settings campaign request pacingDecisionId reading age _ _ createdAt
      hrequested hcounts.1 hcounts.2

end Evaluation

/-! The theorem at that reading: agent capacity is marked, and nothing speaks against the rest. -/

def shiftReading : CapacityReading ℚ where
  availableAgents := 3
  reservedAgents := 1
  activeCalls := 0
  ringingCalls := 0
  expiredLeases := 0
  callFailureRate := 0
  providerStatus := .HEALTHY

theorem decision_explained_shift :
    Explained .HEALTHY 10 none (conclude {} shift tenCalls none shiftReading 0 6 none 0) := by
  have hreason : shouldFallbackToProgressive (fallbackInputs {} shiftReading 0 6 none) = none := by
    decide +kernel
  have hexplained :=
    (decision_explained {} clocked_exec (fun _ => none) shift tenCalls none true (by decide)).1
      shiftReading 0 6 none 0 (by decide) (by decide)
  rw [hreason] at hexplained
  exact hexplained

example : (conclude {} shift tenCalls none shiftReading 0 6 none 0).bindingConstraint
    = some "agent_capacity" := by decide +kernel

end SmartDialer.SafetyController
