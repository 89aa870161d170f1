import SmartDialer.Safety.SafetyController

/-!
# The closed form of the safety boundary

Eight limits, five of which depend on the request, the mode, the health of the provider or on
float comparisons, come to three differences of counters: the progressive equivalent is the number
of available agents, and agent capacity is never above it.

Three things make the closed form. The five caps that fall back to the request or to the progressive
equivalent never lower the minimum (`min_fallback`), so the pure part comes to `safetyBound`. What
is counted is not negative, which the reads show (`maintains_observe`). And a guarded evaluation
answers in one of three ways only (`Answers`): a read has raised, the ringing ceiling has no
integral part, or the pure part has concluded.
-/

namespace SmartDialer.SafetyController

open Concurrent HostFloat

variable {F : Type} [FloatOps F] (settings : SafetySettings F)

/-- What agents, campaign and ringing calls leave room for. -/
def capacityBound (campaign : Campaign) (reading : CapacityReading F) (ringingCeiling : Int) : Int :=
  min (max 0 (reading.availableAgents - reading.reservedAgents))
    (min (max 0 (campaign.maxConcurrentCalls - reading.activeCalls))
      (max 0 (ringingCeiling - reading.ringingCalls)))

/-- The least limit that does not depend on the request. -/
def safetyBound (campaign : Campaign) (reading : CapacityReading F) (age ringingCeiling : Int) :
    Int :=
  if snapshotIsStale settings reading age = true ∨ reading.providerStatus = .UNHEALTHY then 0
  else capacityBound campaign reading ringingCeiling

/-- The constraints that are left when the progressive-mode cap, the availability-drop cap, the
failure-rate cap and, of a provider that is not `UNHEALTHY`, the health cap are lifted. -/
def bites (status : ProviderHealthStatus) (item : SafetyConstraintResult F) : Bool :=
  item.name ∈ ["agent_capacity", "campaign_concurrency", "ringing_ceiling", "stale_state"]
    || item.name = "provider_health" && status = .UNHEALTHY

/-! ## Marking changes no limit

`_mark_binding` sets a flag. So the limits of any selection of constraints by name are those before
the marking. -/

omit [FloatOps F] in
theorem limits_markBindingFrom (approved : Int) (marked : Bool) (p : String → Bool)
    (constraints : List (SafetyConstraintResult F)) :
    ((markBindingFrom approved marked constraints).filter fun item => p item.name).map
        (fun item => item.limit)
      = (constraints.filter fun item => p item.name).map fun item => item.limit := by
  induction constraints generalizing marked with
  | nil => rfl
  | cons constraint rest ih =>
    rw [markBindingFrom, List.filter_cons, List.filter_cons]
    cases hp : p constraint.name with
    | true => simp only [if_true, List.map_cons, ih]
    | false => simp only [Bool.false_eq_true, if_false, ih]

omit [FloatOps F] in
theorem limits_markBinding (approved requested : Int) (p : String → Bool)
    (constraints : List (SafetyConstraintResult F)) :
    ((markBinding constraints approved requested).filter fun item => p item.name).map
        (fun item => item.limit)
      = (constraints.filter fun item => p item.name).map fun item => item.limit := by
  unfold markBinding
  split
  · rfl
  · exact limits_markBindingFrom approved false p constraints

/-! ## The pure part

Everything after the reads is arithmetic on integers. The counters are replaced by names as soon as
what is needed of them has been written down, so that what is left is a question of minima. -/

/-- A cap that falls back to the request, or to a number that is never below the rest, is none. -/
theorem min_fallback {m n r : Int} (c : Prop) [Decidable c] (hn : m ≤ n) (hr : m ≤ r) :
    min m (if c then n else r) = m := by
  split <;> omega

section Pure

variable (campaign : Campaign) (request : PacingRequest F) (reading : CapacityReading F)
  (age ringingCeiling : Int) (dropRatio : F)

/-- **The approved count of the eight constraints** is the least of the request and the safety
bound. -/
theorem approvedCount_buildConstraints (havailable : 0 ≤ reading.availableAgents)
    (hreserved : 0 ≤ reading.reservedAgents) :
    approvedCount request.requested
        (buildConstraints settings campaign request reading reading.availableAgents ringingCeiling
          (snapshotIsStale settings reading age) dropRatio)
      = max 0 (min request.requested (safetyBound settings campaign reading age ringingCeiling)) := by
  simp only [approvedCount, buildConstraints, safetyBound, capacityBound, List.map_cons,
    List.map_nil, List.foldl_cons, List.foldl_nil]
  have hfree : max 0 (reading.availableAgents - reading.reservedAgents) ≤ reading.availableAgents :=
    max_le havailable (Int.sub_le_self _ hreserved)
  generalize max 0 (reading.availableAgents - reading.reservedAgents) = agents at hfree ⊢
  generalize max 0 (campaign.maxConcurrentCalls - reading.activeCalls) = calls
  generalize max 0 (ringingCeiling - reading.ringingCalls) = ringing
  -- the request and the three counters come first; what is left of them is below both fallbacks
  generalize hm : min (min (min request.requested agents) calls) ringing = m
  have hrequested : m ≤ request.requested := by omega
  have hagents : m ≤ reading.availableAgents := by omega
  generalize hhealth : min m (healthLimit request.requested reading.availableAgents
    reading.providerStatus) = m'
  have hle : m' ≤ m := by omega
  rw [min_fallback _ (hle.trans hagents) (hle.trans hrequested)]
  generalize hstale : min m' (if snapshotIsStale settings reading age = true then 0
    else request.requested) = m''
  have hle' : m'' ≤ m := by omega
  rw [min_fallback _ (hle'.trans hagents) (hle'.trans hrequested),
    min_fallback _ (hle'.trans hagents) (hle'.trans hrequested)]
  -- stale or not, and by the status of the provider, it is linear arithmetic
  cases hs : snapshotIsStale settings reading age <;> cases hp : reading.providerStatus <;>
    simp only [hs, hp, healthLimit, Bool.false_eq_true, if_true, if_false, true_or, or_true,
      or_self, reduceCtorEq] at hhealth hstale ⊢ <;> omega

/-- The limits that bite, in their order. -/
theorem limits_bites :
    ((buildConstraints settings campaign request reading reading.availableAgents ringingCeiling
        (snapshotIsStale settings reading age) dropRatio).filter
          (bites reading.providerStatus)).map (fun item => item.limit)
      -- agents, campaign and ringing calls; then the provider, if it is `UNHEALTHY`; then stale
      -- state
      = [max 0 (reading.availableAgents - reading.reservedAgents),
          max 0 (campaign.maxConcurrentCalls - reading.activeCalls),
          max 0 (ringingCeiling - reading.ringingCalls)]
        ++ (if reading.providerStatus = .UNHEALTHY then
          [healthLimit request.requested reading.availableAgents reading.providerStatus] else [])
        ++ [if snapshotIsStale settings reading age then 0 else request.requested] := by
  by_cases hp : reading.providerStatus = .UNHEALTHY <;> simp [buildConstraints, bites, hp]

/-- The five caps that are lifted change nothing. -/
theorem approvedCount_bites :
    approvedCount request.requested
        ((buildConstraints settings campaign request reading reading.availableAgents ringingCeiling
          (snapshotIsStale settings reading age) dropRatio).filter (bites reading.providerStatus))
      = max 0 (min request.requested (safetyBound settings campaign reading age ringingCeiling)) := by
  unfold approvedCount safetyBound capacityBound
  rw [limits_bites]
  -- that the counters come to nothing below 0 is all that matters about them
  have hagents := le_max_left 0 (reading.availableAgents - reading.reservedAgents)
  have hcalls := le_max_left 0 (campaign.maxConcurrentCalls - reading.activeCalls)
  have hringing := le_max_left 0 (ringingCeiling - reading.ringingCalls)
  generalize max 0 (reading.availableAgents - reading.reservedAgents) = agents at hagents ⊢
  generalize max 0 (campaign.maxConcurrentCalls - reading.activeCalls) = calls at hcalls ⊢
  generalize max 0 (ringingCeiling - reading.ringingCalls) = ringing at hringing ⊢
  -- the health cap is among those that bite for an `UNHEALTHY` provider only
  by_cases hp : reading.providerStatus = .UNHEALTHY
  · have hhealth : healthLimit request.requested reading.availableAgents .UNHEALTHY = 0 := rfl
    simp only [hp, hhealth, if_true, or_true, List.cons_append, List.nil_append, List.foldl_cons,
      List.foldl_nil]
    omega
  · cases hs : snapshotIsStale settings reading age <;>
      simp only [hp, if_true, if_false, Bool.false_eq_true, true_or, or_self, List.cons_append,
        List.nil_append, List.foldl_cons, List.foldl_nil] <;> omega

variable (pacingDecisionId : Option DocId) (drop : Option (AvailabilityDrop F)) (createdAt : Time)

theorem approved_conclude (havailable : 0 ≤ reading.availableAgents)
    (hreserved : 0 ≤ reading.reservedAgents) :
    (conclude settings campaign request pacingDecisionId reading age ringingCeiling drop
        createdAt).approved
      = max 0 (min request.requested (safetyBound settings campaign reading age ringingCeiling)) :=
  approvedCount_buildConstraints settings campaign request reading age ringingCeiling _ havailable
    hreserved

theorem approvedCount_conclude (havailable : 0 ≤ reading.availableAgents)
    (hreserved : 0 ≤ reading.reservedAgents) :
    approvedCount request.requested
        ((conclude settings campaign request pacingDecisionId reading age ringingCeiling drop
          createdAt).constraints.filter (bites reading.providerStatus))
      = (conclude settings campaign request pacingDecisionId reading age ringingCeiling drop
          createdAt).approved := by
  rw [approved_conclude _ _ _ _ _ _ _ _ _ havailable hreserved,
    ← approvedCount_bites settings campaign request reading age ringingCeiling _]
  exact congrArg (fun limits => max 0 (limits.foldl min request.requested))
    (limits_markBinding _ _ (fun name => bites (F := F) reading.providerStatus
      { name := name, limit := 0 }) _)

end Pure

/-! ## Evaluation as a whole

The run of `evaluate` is put against the run of its reads alone, in the same environments: whatever
these answer, the decision is the one that `Answers` allows for that answer. -/

section Evaluation

variable {exec : Env → (o : Op) → Store → Except Exn (Res o) × Store}

/-- Counts are not negative. -/
theorem maintains_readCapacity (campaign : Campaign) :
    Prog.Maintains exec (fun _ _ => True) (fun _ => True) (readCapacity settings campaign)
      (fun reading => 0 ≤ reading.availableAgents ∧ 0 ≤ reading.reservedAgents)
      (fun _ => True) := by
  unfold readCapacity
  refine .bind .anything fun now _ => .bind .anything fun agentCounts _ =>
    .bind .anything fun callCounts _ => .bind .anything fun expiredLeases _ => ?_
  cases FloatOps.toMillis settings.ANSWER_RATE_WINDOW_SECONDS with
  | none => exact .raise trivial
  | some window =>
    exact .bind .anything fun outcomes _ => .bind .anything fun health _ =>
      .pure ⟨Int.natCast_nonneg _, Int.natCast_nonneg _⟩

theorem maintains_observe (campaign : Campaign) (request : PacingRequest F) :
    Prog.Maintains exec (fun _ _ => True) (fun _ => True) (observe settings campaign request)
      (fun r => 0 ≤ r.1.availableAgents ∧ 0 ≤ r.1.reservedAgents) (fun _ => True) := by
  unfold observe
  refine .bind (maintains_readCapacity settings campaign) fun reading hreading =>
    .bind .anything fun now _ => ?_
  cases snapshotAgeMs F request.snapshotCapturedAt now with
  | none => exact .raise trivial
  | some age => exact .pure hreading

/-- What `evaluate` answers, by what it has read. -/
inductive Answers (campaign : Campaign) (request : PacingRequest F)
    (pacingDecisionId : Option DocId) (drop : CapacityReading F → Option (AvailabilityDrop F)) :
    Except Exn (CapacityReading F × Int) → SafetyDecision F → Prop where
  | unread (error : Exn) (createdAt : Time) :
      Answers campaign request pacingDecisionId drop (.error error)
        (evaluationError campaign request pacingDecisionId createdAt)
  | noCeiling {reading : CapacityReading F} {age : Int} (createdAt : Time)
      (hceiling : ringingCeiling settings reading = none) :
      Answers campaign request pacingDecisionId drop (.ok (reading, age))
        (evaluationError campaign request pacingDecisionId createdAt)
  | concluded {reading : CapacityReading F} {age ceiling : Int} (createdAt : Time)
      (hceiling : ringingCeiling settings reading = some ceiling) :
      Answers campaign request pacingDecisionId drop (.ok (reading, age))
        (conclude settings campaign request pacingDecisionId reading age ceiling (drop reading)
          createdAt)

/-- The clock does not raise. -/
def Clocked (exec : Env → (o : Op) → Store → Except Exn (Res o) × Store) : Prop :=
  ∀ env σ, ∃ now, (exec env .utcNow σ).1 = .ok now

variable (hclock : Clocked exec) (tracker : AgentAvailabilityTracker) (campaign : Campaign)
  (request : PacingRequest F) (pacingDecisionId : Option DocId)

include hclock

/-- The three ways in which a guarded evaluation can answer. A decision from all readings, a
rejection where a read has raised, and an exception that is no `Exception`. -/
theorem answers_evaluateGuarded (envs : Nat → Env) (n : Nat) (σ : Store) :
    match (evaluateGuarded settings tracker campaign request pacingDecisionId).run exec envs n σ with
    | (.ok (decision, _), _, _) =>
      Answers settings campaign request pacingDecisionId
        (fun reading => (recordAndDetect settings tracker campaign.id reading.availableAgents).1)
        ((observe settings campaign request).run exec envs n σ).1 decision
    | (.error e, _, _) => e.isException = false := by
  unfold evaluateGuarded evaluateUnguarded
  simp only [Prog.bind_def, Prog.run_bind, Prog.run_catching]
  rcases (observe settings campaign request).run exec envs n σ with ⟨error | ⟨reading, age⟩, σ', n'⟩
  -- a read has raised: the guard lets a cancellation pass, and turns the rest into a decision
  · cases he : error.isException with
    | false => simp only [he, Bool.false_eq_true, if_false, Prog.run]
    | true =>
      obtain ⟨now, hnow⟩ := hclock (envs n') σ'
      simp only [he, if_true, Prog.pure_def, Prog.run, Prog.run_bind, call, Prog.run_perform, hnow]
      exact .unread error now
  -- everything has been read: the ceiling is computed, or not
  · cases hceiling : ringingCeiling settings reading with
    | none =>
      obtain ⟨now, hnow⟩ := hclock (envs n') σ'
      simp only [hceiling, Prog.pure_def, Prog.run, Prog.run_bind, call, Prog.run_perform, hnow]
      exact .noCeiling now hceiling
    | some ceiling =>
      obtain ⟨now, hnow⟩ := hclock (envs n') σ'
      simp only [hceiling, Prog.pure_def, Prog.run, Prog.run_bind, call, Prog.run_perform, hnow]
      exact .concluded now hceiling

/-- Writing the decision down does not change it, and raises nothing but a cancellation. An error of
the database is caught and logged by the source, with the decision kept. -/
theorem answers_evaluate (persist : Bool) (envs : Nat → Env) (n : Nat) (σ : Store) :
    match (evaluate settings tracker campaign request pacingDecisionId persist).run exec envs n σ
    with
    | (.ok (decision, _), _, _) =>
      Answers settings campaign request pacingDecisionId
        (fun reading => (recordAndDetect settings tracker campaign.id reading.availableAgents).1)
        ((observe settings campaign request).run exec envs n σ).1 decision
    | (.error e, _, _) => e.isException = false := by
  have hguarded := answers_evaluateGuarded settings hclock tracker campaign request pacingDecisionId
    envs n σ
  unfold evaluate
  simp only [Prog.bind_def, Prog.run_bind]
  revert hguarded
  rcases (evaluateGuarded settings tracker campaign request pacingDecisionId).run exec envs n σ
    with ⟨error | ⟨decision, tracker'⟩, σ', n'⟩
  · exact id
  · intro hguarded
    cases persist with
    | false => exact hguarded
    | true =>
      simp only [if_true, persistDecision, Prog.run_catching, call, Prog.run_perform]
      rcases (exec (envs n') (.recordSafetyDecision decision.campaignId decision.requested
        decision.approved) σ').1 with error | _
      -- the log has failed, which is only logged
      · cases he : error.isException with
        | false => simp only [he, Bool.false_eq_true, if_false, Prog.run]
        | true =>
          simp only [he, if_true]
          exact hguarded
      · exact hguarded

omit hclock

/-- The approved count of a decision in terms of what was read: nothing when a read or the ringing
ceiling raised, otherwise the least of the request and the safety bound, at which the lifted
constraints have no part. -/
def HasClosedForm (campaign : Campaign) (request : PacingRequest F)
    (observed : Except Exn (CapacityReading F × Int)) (decision : SafetyDecision F) : Prop :=
  match observed with
  | .error _ => decision.approved = 0
  | .ok (reading, age) =>
    match ringingCeiling settings reading with
    | none => decision.approved = 0
    | some ceiling =>
      decision.approved
          = max 0 (min request.requested (safetyBound settings campaign reading age ceiling))
        ∧ approvedCount request.requested
            (decision.constraints.filter (bites reading.providerStatus)) = decision.approved

theorem Answers.hasClosedForm {drop : CapacityReading F → Option (AvailabilityDrop F)}
    {observed : Except Exn (CapacityReading F × Int)} {decision : SafetyDecision F}
    (h : Answers settings campaign request pacingDecisionId drop observed decision)
    (hnonneg : ∀ r, observed = .ok r → 0 ≤ r.1.availableAgents ∧ 0 ≤ r.1.reservedAgents) :
    HasClosedForm settings campaign request observed decision := by
  cases h with
  | unread error createdAt => rfl
  | noCeiling createdAt hceiling =>
    simp only [HasClosedForm, hceiling]
    rfl
  | concluded createdAt hceiling =>
    obtain ⟨havailable, hreserved⟩ := hnonneg _ rfl
    simp only [HasClosedForm, hceiling]
    exact ⟨approved_conclude _ _ _ _ _ _ _ _ _ havailable hreserved,
      approvedCount_conclude _ _ _ _ _ _ _ _ _ havailable hreserved⟩

/-- Two decisions on one observation differ only by what was requested. Both are minima over the
same limits, and a minimum grows with what is compared. -/
theorem HasClosedForm.compare {request' : PacingRequest F}
    {observed : Except Exn (CapacityReading F × Int)} {decision decision' : SafetyDecision F}
    (h : HasClosedForm settings campaign request observed decision)
    (h' : HasClosedForm settings campaign request' observed decision') :
    (request.requested ≤ request'.requested → decision.approved ≤ decision'.approved)
    ∧ (request.requested = request'.requested → decision.approved = decision'.approved)
    ∧ ∀ reading age ceiling, observed = .ok (reading, age) →
        ringingCeiling settings reading = some ceiling →
        safetyBound settings campaign reading age ceiling ≤ request.requested →
        safetyBound settings campaign reading age ceiling ≤ request'.requested →
        decision.approved = decision'.approved := by
  -- nothing was read, so nothing is approved of either
  rcases observed with error | ⟨reading, age⟩
  · have heq : decision.approved = decision'.approved := Eq.trans h h'.symm
    exact ⟨fun _ => heq.le, fun _ => heq, fun _ _ _ _ _ _ _ => heq⟩
  · simp only [HasClosedForm] at h h'
    cases hceiling : ringingCeiling settings reading with
    | none =>
      simp only [hceiling] at h h'
      have heq : decision.approved = decision'.approved := h.trans h'.symm
      exact ⟨fun _ => heq.le, fun _ => heq, fun _ _ _ _ _ _ _ => heq⟩
    | some ceiling =>
      simp only [hceiling] at h h'
      rw [h.1, h'.1]
      refine ⟨fun hle => by omega, fun heq => by rw [heq], ?_⟩
      intro reading' age' ceiling' hobserved hceiling' hbound hbound'
      cases hobserved
      cases hceiling.symm.trans hceiling'
      omega

/-- The reads do not depend on the mode, the inputs, the explanation or the number requested. -/
theorem observe_eq {request' : PacingRequest F}
    (hcaptured : request'.snapshotCapturedAt = request.snapshotCapturedAt) :
    observe settings campaign request' = observe settings campaign request := by
  unfold observe
  rw [hcaptured]

include hclock

/-- **Every decision of `evaluate` has the closed form.** -/
theorem hasClosedForm_evaluate (persist : Bool) (envs : Nat → Env) (n : Nat) (σ : Store) :
    match (evaluate settings tracker campaign request pacingDecisionId persist).run exec envs n σ
    with
    | (.ok (decision, _), _, _) =>
      HasClosedForm settings campaign request
        ((observe settings campaign request).run exec envs n σ).1 decision
    | (.error e, _, _) => e.isException = false := by
  have hanswers := answers_evaluate settings hclock tracker campaign request pacingDecisionId persist
    envs n σ
  revert hanswers
  rcases (evaluate settings tracker campaign request pacingDecisionId persist).run exec envs n σ
    with ⟨error | ⟨decision, tracker'⟩, σ', n'⟩
  · exact id
  · exact fun hanswers => hanswers.hasClosedForm settings campaign request pacingDecisionId
      (Prog.run_of_wp (maintains_observe settings campaign request σ trivial)
        (fun _ _ => trivial) n).2.1

/-- **The closed form of the safety boundary.** Whatever the reads answer, a decision approves what
the closed form says, and `evaluate` raises nothing but a cancellation. Of two requests made of the
same snapshot, with whatever mode, inputs, explanation and tracker, the larger one is approved for
at least as many calls; equal ones are approved alike, and so are two that exceed the bound. -/
theorem evaluate_closed_form (persist : Bool) (envs : Nat → Env) (n : Nat) (σ : Store) :
    (match (evaluate settings tracker campaign request pacingDecisionId persist).run exec envs n σ
      with
      | (.ok (decision, _), _, _) =>
        HasClosedForm settings campaign request
          ((observe settings campaign request).run exec envs n σ).1 decision
      | (.error e, _, _) => e.isException = false)
    ∧ ∀ (tracker' : AgentAvailabilityTracker) (request' : PacingRequest F)
        (pacingDecisionId' : Option DocId) (persist' : Bool) (decision decision' : SafetyDecision F)
        (t t' : AgentAvailabilityTracker),
        request'.snapshotCapturedAt = request.snapshotCapturedAt →
        ((evaluate settings tracker campaign request pacingDecisionId persist).run exec envs n σ).1
          = .ok (decision, t) →
        ((evaluate settings tracker' campaign request' pacingDecisionId' persist').run exec envs n
          σ).1 = .ok (decision', t') →
        (request.requested ≤ request'.requested → decision.approved ≤ decision'.approved)
        ∧ (request.requested = request'.requested → decision.approved = decision'.approved)
        ∧ ∀ reading age ceiling,
            ((observe settings campaign request).run exec envs n σ).1 = .ok (reading, age) →
            ringingCeiling settings reading = some ceiling →
            safetyBound settings campaign reading age ceiling ≤ request.requested →
            safetyBound settings campaign reading age ceiling ≤ request'.requested →
            decision.approved = decision'.approved := by
  have hform := fun tracker request pacingDecisionId persist =>
    hasClosedForm_evaluate settings hclock tracker campaign request pacingDecisionId persist envs n σ
  refine ⟨hform tracker request pacingDecisionId persist, ?_⟩
  intro tracker' request' pacingDecisionId' persist' decision decision' t t' hcaptured hrun hrun'
  have h := hform tracker request pacingDecisionId persist
  have h' := hform tracker' request' pacingDecisionId' persist'
  rw [observe_eq settings campaign request hcaptured] at h'
  revert h h' hrun hrun'
  rcases (evaluate settings tracker campaign request pacingDecisionId persist).run exec envs n σ
    with ⟨r, σ₁, n₁⟩
  rcases (evaluate settings tracker' campaign request' pacingDecisionId' persist').run exec envs n σ
    with ⟨r', σ₂, n₂⟩
  rintro rfl rfl h h'
  exact h.compare settings campaign request h'

end Evaluation

/-! The theorem at a reading: of three available agents one is spoken for, so ten requested calls are
approved as two. -/

theorem clocked_exec : Clocked exec := by
  intro env σ
  refine ⟨env.now, ?_⟩
  have hnone : env.strikes .utcNow = none := by
    cases h : env.fault <;> simp [Env.strikes, h, Op.raises]
  simp only [exec, hnone, apply]

def shift : Campaign := { id := .ofString "k", providerName := "mock_a" }

def shiftStore : Store where
  agents := ⟨[{ id := .ofString "a", campaignId := shift.id, state := .AVAILABLE },
    { id := .ofString "b", campaignId := shift.id, state := .AVAILABLE },
    { id := .ofString "c", campaignId := shift.id, state := .AVAILABLE },
    { id := .ofString "d", campaignId := shift.id, state := .RESERVED }], by decide⟩
  borrowers := ∅
  calls := .empty
  events := ∅

def tenCalls : PacingRequest ℚ where
  requested := 10
  mode := .PREDICTIVE
  snapshotCapturedAt := 0

def quiet (_ : Nat) : Env := {}

/-- The approved count of a run that has come to a decision. -/
def approvedIn {F : Type} (r : Except Exn (SafetyDecision F × AgentAvailabilityTracker)) :
    Option Int :=
  r.toOption.map fun r => r.1.approved

theorem evaluate_closed_form_shift :
    (match (evaluate {} (fun _ => none) shift tenCalls none true).run exec quiet 0 shiftStore with
      | (.ok (decision, _), _, _) =>
        HasClosedForm {} shift tenCalls ((observe {} shift tenCalls).run exec quiet 0 shiftStore).1
          decision
      | (.error e, _, _) => e.isException = false)
    ∧ approvedIn ((evaluate {} (fun _ => none) shift tenCalls none true).run exec quiet 0
        shiftStore).1 = some 2 :=
  ⟨(evaluate_closed_form {} clocked_exec (fun _ => none) shift tenCalls none true quiet 0
    shiftStore).1, by decide +kernel⟩

end SmartDialer.SafetyController
