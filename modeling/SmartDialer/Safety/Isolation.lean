import SmartDialer.Safety.ClosedForm

/-!
# What a safety decision depends on

Of two stores that agree on a campaign, the reads of an evaluation for this campaign answer the
same, with one exception: the count of expired leases is over the agents of all campaigns. So two
evaluations decide alike unless exactly one of the stores has an expired lease and the campaign has
room that the lease takes away.

The proof runs two evaluations side by side. `Prog.ReadAlike` says that two programs that only read
come to related answers, at the same number of operations; the reads of a campaign are related by
equality, the count of expired leases by nothing but what each says of its own store. What the
leases then do to the decision is a question about minima again (`judge`).
-/

namespace SmartDialer.SafetyController

open DocStore Concurrent HostFloat

/-- Two stores with the same agents and the same calls of one campaign. -/
structure AgreeOn (c : DocId) (σ σ' : Store) : Prop where
  agents : ∀ a g, g.campaignId = c → (σ.agents.get? a = some g ↔ σ'.agents.get? a = some g)
  calls : ∀ k d, d.campaignId = c → (σ.calls.get? k = some d ↔ σ'.calls.get? k = some d)

/-- Some agent, of whichever campaign, holds a lease that has expired. -/
def LeaseExpired (σ : Store) (now : Time) : Prop :=
  ∃ g ∈ σ.agents.docs, AgentRepo.leaseExpired now g

theorem countExpiredLeases_pos {σ : Store} {now : Time} :
    0 < AgentRepo.countExpiredLeases now σ.agents ↔ LeaseExpired σ now := by
  unfold AgentRepo.countExpiredLeases LeaseExpired Collection.find
  simp [List.length_pos_iff_exists_mem]

/-! ## The reads

Two stores that agree on a campaign have the same agents and calls of it, perhaps in another order.
The counts by state and by outcome do not see the order. -/

section Reads

variable {c : DocId} {σ σ' : Store} (h : AgreeOn c σ σ')

include h

theorem AgreeOn.agentCounts :
    AgentRepo.countByState c σ.agents = AgentRepo.countByState c σ'.agents :=
  funext fun _ => (Collection.find_perm fun d hd => h.agents d.id d hd.1).length_eq

theorem AgreeOn.callCounts :
    CallRepo.countByState c σ.calls = CallRepo.countByState c σ'.calls := by
  funext state
  have hperm : (σ.calls.coll.find fun d => d.campaignId = c ∧ d.state = state).Perm
      (σ'.calls.coll.find fun d => d.campaignId = c ∧ d.state = state) :=
    Collection.find_perm fun d hd => h.calls d.id d hd.1
  exact hperm.length_eq

theorem AgreeOn.outcomeCounts (start stop : Time) :
    CallRepo.outcomeCountsBetween c start stop σ.calls
      = CallRepo.outcomeCountsBetween c start stop σ'.calls := by
  have hperm : (σ.calls.coll.find (CallRepo.endedBetween c start stop)).Perm
      (σ'.calls.coll.find (CallRepo.endedBetween c start stop)) :=
    Collection.find_perm fun d hd => h.calls d.id d hd.1
  simp only [CallRepo.outcomeCountsBetween, hperm.length_eq, hperm.countP_eq]

end Reads

/-- An operation with the same answer in two stores, in an environment that may strike it. -/
theorem exec_alike {o : Op} {env : Env} {σ σ' : Store} {A : Res o → Res o → Prop}
    (h : Prog.Alike A (apply env o σ).1 (apply env o σ').1) :
    Prog.Alike A (exec env o σ).1 (exec env o σ').1 := by
  unfold exec
  split
  · exact h
  · exact .error _

theorem exec_reads {o : Op} {env : Env} {σ : Store} (h : (apply env o σ).2 = σ) :
    (exec env o σ).2 = σ := by
  rcases exec_store env o σ with hexec | hexec
  · exact hexec
  · exact hexec.trans h

section Observing

variable {F : Type} [FloatOps F] (settings : SafetySettings F) {campaign : Campaign}
  {σ σ' : Store} (envs : Nat → Env) (n : Nat)

/-- An operation that only reads. -/
theorem alike_read (o : Op) (m : Nat) {A : Res o → Res o → Prop}
    (hreads : ∀ τ, (apply (envs m) o τ).2 = τ)
    (hans : Prog.Alike A (apply (envs m) o σ).1 (apply (envs m) o σ').1) :
    Prog.ReadAlike exec envs A (call o) (call o) m σ σ' :=
  .perform (exec_reads (hreads σ)) (exec_reads (hreads σ')) (exec_alike hans)

/-- An operation that reads the same in both stores. -/
theorem alike_call {o : Op} {m : Nat} (hans : (apply (envs m) o σ).1 = (apply (envs m) o σ').1)
    (hreads : ∀ τ, (apply (envs m) o τ).2 = τ) :
    Prog.ReadAlike exec envs (fun a b => a = b ∧ (apply (envs m) o σ).1 = .ok a)
      (call o) (call o) m σ σ' := by
  refine alike_read envs o m hreads ?_
  rw [← hans]
  rcases (apply (envs m) o σ).1 with e | a
  · exact .error e
  · exact .ok ⟨rfl, rfl⟩

/-- The one read that is not of a campaign. -/
theorem alike_expiredLeases (now : Time) (m : Nat) :
    Prog.ReadAlike exec envs
      (fun x x' : Nat => (0 < x ↔ LeaseExpired σ now) ∧ (0 < x' ↔ LeaseExpired σ' now))
      (call (.countExpiredLeases now)) (call (.countExpiredLeases now)) m σ σ' :=
  alike_read (A := fun x x' : Nat => (0 < x ↔ LeaseExpired σ now) ∧ (0 < x' ↔ LeaseExpired σ' now))
    envs (.countExpiredLeases now) m (fun _ => rfl)
    (.ok ⟨countExpiredLeases_pos, countExpiredLeases_pos⟩)

/-- Recording a decision can fail, whatever the decision. -/
theorem alike_recordSafetyDecision (c c' : DocId) (r r' k k' : Int) (m : Nat) :
    Prog.ReadAlike exec envs (fun _ _ => True) (call (.recordSafetyDecision c r k))
      (call (.recordSafetyDecision c' r' k')) m σ σ' := by
  have hstrikes : (envs m).strikes (.recordSafetyDecision c' r' k')
      = (envs m).strikes (.recordSafetyDecision c r k) := rfl
  refine ⟨(exec (envs m) (.recordSafetyDecision c r k) σ).1,
    (exec (envs m) (.recordSafetyDecision c' r' k') σ').1, m + 1, ?_, ?_, ?_⟩
  · rw [call, Prog.run_perform, exec_reads rfl]
  · rw [call, Prog.run_perform, exec_reads rfl]
  · unfold exec
    rw [hstrikes]
    split
    · exact .ok trivial
    · exact .error _

variable (h : AgreeOn campaign.id σ σ')

include h

/-- The capacity is read alike, but for the expired leases. -/
theorem alike_readCapacity :
    Prog.ReadAlike exec envs
      (fun a b : CapacityReading F => b = { a with expiredLeases := b.expiredLeases }
        ∧ (0 < a.expiredLeases ↔ LeaseExpired σ (envs n).now)
        ∧ (0 < b.expiredLeases ↔ LeaseExpired σ' (envs n).now))
      (readCapacity settings campaign) (readCapacity settings campaign) n σ σ' := by
  unfold readCapacity
  refine .bind (alike_call envs rfl fun _ => rfl) fun now _ m hnow => ?_
  obtain ⟨rfl, hnow⟩ := hnow
  cases hnow
  refine .bind (alike_call envs (congrArg Except.ok h.agentCounts) fun _ => rfl)
    fun agents _ m hagents => ?_
  refine .bind (alike_call envs (congrArg Except.ok h.callCounts) fun _ => rfl)
    fun calls _ m hcalls => ?_
  -- the one read in which the two stores may differ
  refine .bind (alike_expiredLeases envs (envs n).now m) fun x x' m hx => ?_
  cases FloatOps.toMillis settings.ANSWER_RATE_WINDOW_SECONDS with
  -- the window of the answer rate cannot be converted, which is so on both sides
  | none => exact .raise _
  | some window =>
    refine .bind (alike_call envs (congrArg Except.ok (h.outcomeCounts _ _)) fun _ => rfl)
      fun outcomes _ m houtcomes => ?_
    refine .bind (alike_call envs rfl fun _ => rfl) fun health _ m hhealth => .pure ?_
    rw [← hagents.1, ← hcalls.1, ← houtcomes.1, ← hhealth.1]
    exact ⟨rfl, Int.natCast_pos.trans hx.1, Int.natCast_pos.trans hx.2⟩

/-- Two observations that agree but for the number of expired leases, of which `p` and `p'` say
whether there are any. -/
def SameButLeases (p p' : Prop) (r r' : CapacityReading F × Int) : Prop :=
  r' = ({ r.1 with expiredLeases := r'.1.expiredLeases }, r.2)
    ∧ (0 < r.1.expiredLeases ↔ p) ∧ (0 < r'.1.expiredLeases ↔ p')

theorem alike_observe (request : PacingRequest F) :
    Prog.ReadAlike exec envs
      (SameButLeases (LeaseExpired σ (envs n).now) (LeaseExpired σ' (envs n).now))
      (observe settings campaign request) (observe settings campaign request) n σ σ' := by
  unfold observe
  refine .bind (alike_readCapacity settings envs n h) fun a b m hab => ?_
  refine .bind (alike_call envs rfl fun _ => rfl) fun now _ m hnow => ?_
  rw [← hnow.1]
  cases snapshotAgeMs F request.snapshotCapturedAt now with
  | none => exact .raise _
  | some age => exact .pure ⟨Prod.ext hab.1 rfl, hab.2⟩

end Observing

/-! ## What a decision comes to

`judge` computes the outcome of a decision from names and limits alone. Two lists of limits that
differ only behind a limit of 0 are judged alike, since that limit decides and is the first to be
marked. -/

section Judgement

variable {F : Type}

/-- Approved count, verdict and binding constraint. -/
def outcome (decision : SafetyDecision F) : Int × SafetyVerdict × Option String :=
  (decision.approved, decision.verdict, decision.bindingConstraint)

/-- The same, from the names and limits of the constraints alone. -/
def judge (requested : Int) (limits : List (String × Int)) (fallbackReason : Option String) :
    Int × SafetyVerdict × Option String :=
  let approved := max 0 ((limits.map Prod.snd).foldl min requested)
  (approved, verdictFor requested approved fallbackReason,
    if approved ≥ requested then none
    else (limits.find? fun item => item.2 = approved).map Prod.fst)

/-- Name and limit. -/
def outline (item : SafetyConstraintResult F) : String × Int :=
  (item.name, item.limit)

theorem find_markBindingFrom (approved : Int) (constraints : List (SafetyConstraintResult F)) :
    ((markBindingFrom approved false constraints).find? fun item => item.binding).map
        (fun item => item.name)
      = ((constraints.map outline).find? fun item => item.2 = approved).map
          Prod.fst := by
  induction constraints with
  | nil => rfl
  | cons constraint rest ih =>
    simp only [markBindingFrom, List.map_cons, List.find?_cons]
    by_cases hlimit : constraint.limit = approved
    · simp [outline, hlimit]
    · simp [outline, hlimit, ih]

theorem foldl_min_le (l : List Int) (a : Int) :
    l.foldl min a ≤ a ∧ ∀ x ∈ l, l.foldl min a ≤ x := by
  induction l generalizing a with
  | nil => exact ⟨le_refl a, by simp⟩
  | cons x l ih =>
    obtain ⟨hle, hmem⟩ := ih (min a x)
    refine ⟨hle.trans (min_le_left a x), fun y hy => ?_⟩
    rcases List.mem_cons.mp hy with rfl | hy
    · exact hle.trans (min_le_right a y)
    · exact hmem y hy

/-- Nothing is approved of a request for nothing. -/
theorem judge_of_nonpos {requested : Int} (h : requested ≤ 0) (limits limits' : List (String × Int))
    (reason reason' : Option String) :
    judge requested limits reason = judge requested limits' reason' := by
  have hzero : ∀ l : List (String × Int), max 0 ((l.map Prod.snd).foldl min requested) = 0 := by
    intro l
    have hle := (foldl_min_le (l.map Prod.snd) requested).1
    omega
  simp [judge, hzero, h, verdictFor]

/-- A limit of 0 decides alone, whatever limits come after it. -/
theorem judge_of_zero {requested : Int} (h : 0 < requested) (limits : List (String × Int))
    (hlimit : ∃ item ∈ limits, item.2 = 0) (rest rest' : List (String × Int))
    (reason reason' : Option String) :
    judge requested (limits ++ rest) reason = judge requested (limits ++ rest') reason' := by
  obtain ⟨item, hitem, hlimit⟩ := hlimit
  have hzero : ∀ l : List (String × Int),
      max 0 (((limits ++ l).map Prod.snd).foldl min requested) = 0 := by
    intro l
    have hle := (foldl_min_le ((limits ++ l).map Prod.snd) requested).2 item.2
      (List.mem_map_of_mem (List.mem_append_left l hitem))
    omega
  -- the limit of 0 is found before the rest
  have hfind : ∀ l : List (String × Int),
      (limits ++ l).find? (fun item => item.2 = 0) = limits.find? fun item => item.2 = 0 := by
    intro l
    rw [List.find?_append, Option.or_of_isSome]
    exact List.find?_isSome.mpr ⟨item, hitem, by simp [hlimit]⟩
  simp only [judge, hzero, hfind, verdictFor]
  simp [h.ne']

end Judgement

section Concluding

variable {F : Type} [FloatOps F] (settings : SafetySettings F) (campaign : Campaign)
  (request : PacingRequest F) (pacingDecisionId : Option DocId) (reading : CapacityReading F)
  (age ceiling : Int) (drop : Option (AvailabilityDrop F)) (createdAt : Time)

/-- **The outcome of a decision**, from the names and limits of its constraints. Names and limits
are all that the verdict, the count and the explanation depend on; the texts that carry other
numbers are left out. -/
theorem outcome_conclude :
    outcome (conclude settings campaign request pacingDecisionId reading age ceiling drop createdAt)
      = judge request.requested
          ((buildConstraints settings campaign request reading reading.availableAgents ceiling
            (snapshotIsStale settings reading age)
            (availabilityDropRatio drop)).map outline)
          (conclude settings campaign request pacingDecisionId reading age ceiling drop
            createdAt).fallbackReason := by
  have hlimits : ∀ l : List (SafetyConstraintResult F),
      l.map (fun item => item.limit) = (l.map outline).map Prod.snd := by
    intro l
    rw [List.map_map]
    rfl
  -- the marked constraint, by name
  have hbinding : ∀ (approved : Int) (l : List (SafetyConstraintResult F)),
      (∀ item ∈ l, item.binding = false) →
      ((markBinding l approved request.requested).find? fun item => item.binding).map
          (fun item => item.name)
        = if approved ≥ request.requested then none
          else ((l.map outline).find? fun item => item.2 = approved).map Prod.fst := by
    intro approved l hl
    unfold markBinding
    split
    · rw [List.find?_eq_none.mpr (by simpa using hl)]
      rfl
    · exact find_markBindingFrom approved l
  simp only [outcome, conclude, judge, approvedCount, hlimits]
  rw [hbinding _ _ (by simp [buildConstraints])]

/-- The number of expired leases matters as far as it makes the snapshot stale, or not. -/
theorem outcome_conclude_of_stale {reading' : CapacityReading F}
    (hsame : reading' = { reading with expiredLeases := reading'.expiredLeases })
    (hstale : snapshotIsStale settings reading' age = snapshotIsStale settings reading age)
    (pacingDecisionId' : Option DocId) (createdAt' : Time) :
    outcome (conclude settings campaign request pacingDecisionId' reading' age ceiling drop
        createdAt')
      = outcome (conclude settings campaign request pacingDecisionId reading age ceiling drop
        createdAt) := by
  rw [hsame] at hstale ⊢
  rw [outcome_conclude, outcome_conclude]
  simp only [conclude, fallbackInputs, hstale]
  rfl

/-- Where nothing is requested, the provider is `UNHEALTHY` or there is no room, the leases do not
matter at all. -/
theorem outcome_conclude_of_stopped {reading' : CapacityReading F}
    (hsame : reading' = { reading with expiredLeases := reading'.expiredLeases })
    (hstopped : request.requested ≤ 0 ∨ reading.providerStatus = .UNHEALTHY
      ∨ capacityBound campaign reading ceiling ≤ 0)
    (pacingDecisionId' : Option DocId) (createdAt' : Time) :
    outcome (conclude settings campaign request pacingDecisionId' reading' age ceiling drop
        createdAt')
      = outcome (conclude settings campaign request pacingDecisionId reading age ceiling drop
        createdAt) := by
  rw [hsame, outcome_conclude, outcome_conclude]
  by_cases hrequested : request.requested ≤ 0
  · exact judge_of_nonpos hrequested _ _ _ _
  · -- the four limits before that of the stale state
    refine judge_of_zero (by omega)
      [("agent_capacity", max 0 (reading.availableAgents - reading.reservedAgents)),
        ("campaign_concurrency", max 0 (campaign.maxConcurrentCalls - reading.activeCalls)),
        ("ringing_ceiling", max 0 (ceiling - reading.ringingCalls)),
        ("provider_health",
          healthLimit request.requested reading.availableAgents reading.providerStatus)] ?_ _ _ _ _
    rcases hstopped with h | hhealth | hroom
    · exact absurd h hrequested
    · simp [hhealth, healthLimit]
    · have hzero : max 0 (reading.availableAgents - reading.reservedAgents) = 0
          ∨ max 0 (campaign.maxConcurrentCalls - reading.activeCalls) = 0
          ∨ max 0 (ceiling - reading.ringingCalls) = 0 := by
        unfold capacityBound at hroom
        omega
      simpa using hzero.imp id fun h => h.imp id Or.inl

end Concluding

/-! ## Two evaluations

The two observations differ in the leases at most. If both stores have an expired lease, or neither
has one, the snapshot is stale in both or in neither. Otherwise one of the two approves nothing, and
the other approves something unless it is stopped by another limit. -/

section Evaluations

variable {F : Type} [FloatOps F] (settings : SafetySettings F)

/-- Whatever the leases say, this evaluation lets nothing through, or nothing is asked of it: a read
or a conversion raises, nothing is requested, the snapshot is too old, the provider is `UNHEALTHY`,
or agents, campaign or ringing calls leave no room. -/
def Stopped (campaign : Campaign) (request : PacingRequest F) :
    Except Exn (CapacityReading F × Int) → Prop
  | .error _ => True
  | .ok (reading, age) =>
    request.requested ≤ 0
      ∨ FloatOps.intGt age (FloatOps.mul settings.MAX_SNAPSHOT_AGE_SECONDS (FloatOps.ofInt 1000))
        = true
      ∨ reading.providerStatus = .UNHEALTHY
      ∨ ∀ ceiling, ringingCeiling settings reading = some ceiling →
          capacityBound campaign reading ceiling ≤ 0

theorem recordAndDetect_congr {tracker tracker' : AgentAvailabilityTracker} {c : DocId}
    (h : tracker c = tracker' c) (available : Int) :
    (recordAndDetect settings tracker c available).1
      = (recordAndDetect settings tracker' c available).1 := by
  unfold recordAndDetect
  rw [h]

variable {settings} {campaign : Campaign} {request : PacingRequest F} {reading : CapacityReading F}
  {age ceiling : Int} {drop : Option (AvailabilityDrop F)}

/-- A fresh snapshot, a provider that is not `UNHEALTHY`, room, a request: something is approved. -/
theorem approved_pos (havailable : 0 ≤ reading.availableAgents)
    (hreserved : 0 ≤ reading.reservedAgents)
    (hceiling : ringingCeiling settings reading = some ceiling)
    (hstopped : ¬ Stopped settings campaign request (.ok (reading, age)))
    (hexpired : ¬ 0 < reading.expiredLeases) (pacingDecisionId : Option DocId) (createdAt : Time) :
    0 < (conclude settings campaign request pacingDecisionId reading age ceiling drop
      createdAt).approved := by
  simp only [Stopped, not_or, not_forall, not_le] at hstopped
  obtain ⟨hrequested, hfresh, hhealth, ceiling', hceiling', hroom⟩ := hstopped
  cases hceiling.symm.trans hceiling'
  -- neither stale nor `UNHEALTHY`: the bound is what the counters leave
  have hbound : safetyBound settings campaign reading age ceiling
      = capacityBound campaign reading ceiling := by
    unfold safetyBound snapshotIsStale
    rw [if_neg]
    simp only [Bool.or_eq_true, decide_eq_true_eq, gt_iff_lt]
    exact fun h => h.elim (fun h => h.elim hfresh hexpired) hhealth
  rw [approved_conclude _ _ _ _ _ _ _ _ _ havailable hreserved, hbound]
  omega

/-- An expired lease: nothing is approved. -/
theorem approved_of_expired (havailable : 0 ≤ reading.availableAgents)
    (hreserved : 0 ≤ reading.reservedAgents) (hexpired : 0 < reading.expiredLeases)
    (pacingDecisionId : Option DocId) (createdAt : Time) :
    (conclude settings campaign request pacingDecisionId reading age ceiling drop
      createdAt).approved = 0 := by
  have hstale : snapshotIsStale settings reading age = true := by
    simp [snapshotIsStale, hexpired]
  have hbound : safetyBound settings campaign reading age ceiling = 0 := if_pos (Or.inl hstale)
  rw [approved_conclude _ _ _ _ _ _ _ _ _ havailable hreserved, hbound]
  omega

/-- Two evaluations that have read the same but for the leases. An expired lease that only one
of the two has seen stops that decision alone, so the outcomes differ unless something else
stops both. -/
theorem outcome_eq_iff {p p' : Prop} {reading' : CapacityReading F}
    (hsame : SameButLeases p p' (reading, age) (reading', age))
    (havailable : 0 ≤ reading.availableAgents) (hreserved : 0 ≤ reading.reservedAgents)
    (hceiling : ringingCeiling settings reading = some ceiling)
    (pacingDecisionId pacingDecisionId' : Option DocId) (createdAt createdAt' : Time) :
    outcome (conclude settings campaign request pacingDecisionId reading age ceiling drop createdAt)
        = outcome (conclude settings campaign request pacingDecisionId' reading' age ceiling drop
          createdAt')
      ↔ (p ↔ p') ∨ Stopped settings campaign request (.ok (reading, age)) := by
  obtain ⟨hreading, hp, hp'⟩ := hsame
  have hreading : reading' = { reading with expiredLeases := reading'.expiredLeases } :=
    congrArg Prod.fst hreading
  have havailable' : 0 ≤ reading'.availableAgents := by rwa [hreading]
  have hreserved' : 0 ≤ reading'.reservedAgents := by rwa [hreading]
  constructor
  -- the expired lease is in one store only, and only there nothing is approved
  · intro heq
    by_contra hnot
    obtain ⟨hleases, hstopped⟩ := not_or.mp hnot
    have happroved := congrArg Prod.fst heq
    simp only [outcome] at happroved
    -- whichever of the two has the lease approves nothing, and the other something
    by_cases hexpired : 0 < reading.expiredLeases
    · have hexpired' : ¬ 0 < reading'.expiredLeases := fun h =>
        hleases ⟨fun _ => hp'.mp h, fun _ => hp.mp hexpired⟩
      have hstopped' : ¬ Stopped settings campaign request (.ok (reading', age)) := by
        rwa [hreading]
      have hceiling' : ringingCeiling settings reading' = some ceiling := by
        rw [hreading]
        exact hceiling
      rw [approved_of_expired havailable hreserved hexpired] at happroved
      exact absurd happroved
        (approved_pos havailable' hreserved' hceiling' hstopped' hexpired' _ _).ne
    · have hexpired' : 0 < reading'.expiredLeases := by
        by_contra h
        exact hleases ⟨fun hyes => absurd (hp.mpr hyes) hexpired,
          fun hyes => absurd (hp'.mpr hyes) h⟩
      rw [approved_of_expired havailable' hreserved' hexpired'] at happroved
      exact absurd happroved
        (approved_pos havailable hreserved hceiling hstopped hexpired _ _).ne'
  · have hstale : ∀ {r r' : Bool}, r = r' →
        snapshotIsStale settings reading age = r → snapshotIsStale settings reading' age = r' →
        outcome (conclude settings campaign request pacingDecisionId reading age ceiling drop
            createdAt)
          = outcome (conclude settings campaign request pacingDecisionId' reading' age ceiling drop
            createdAt') := by
      rintro r _ rfl h h'
      exact (outcome_conclude_of_stale settings campaign request _ reading age ceiling drop _ hreading
        (h'.trans h.symm) _ _).symm
    -- both are stale or neither is, or another limit stops both before that one
    rintro (hleases | hrequested | hold | hhealth | hroom)
    · refine hstale rfl rfl ?_
      have hiff : 0 < reading'.expiredLeases ↔ 0 < reading.expiredLeases :=
        hp'.trans (hleases.symm.trans hp.symm)
      simp [snapshotIsStale, hiff]
    · exact (outcome_conclude_of_stopped settings campaign request _ reading age ceiling drop _
        hreading (Or.inl hrequested) _ _).symm
    · have hboth : ∀ r : CapacityReading F, snapshotIsStale settings r age = true := fun r => by
        rw [snapshotIsStale, hold, Bool.true_or]
      exact hstale rfl (hboth _) (hboth _)
    · exact (outcome_conclude_of_stopped settings campaign request _ reading age ceiling drop _
        hreading (Or.inr (Or.inl hhealth)) _ _).symm
    · exact (outcome_conclude_of_stopped settings campaign request _ reading age ceiling drop _
        hreading (Or.inr (Or.inr (hroom ceiling hceiling))) _ _).symm

variable {σ σ' : Store} (h : AgreeOn campaign.id σ σ') (settings request)
  (tracker tracker' : AgentAvailabilityTracker) (pacingDecisionId : Option DocId) (persist : Bool)
  (envs : Nat → Env) (n : Nat)

include h

/-- Both evaluations come to a decision, or neither does. They perform the same operations in the
same environments, and no answer of the foreign agents decides whether one raises. -/
theorem alike_evaluate :
    Prog.ReadAlike exec envs (fun _ _ => True)
      (evaluate settings tracker campaign request pacingDecisionId persist)
      (evaluate settings tracker' campaign request pacingDecisionId persist) n σ σ' := by
  have hclock : ∀ m, Prog.ReadAlike exec envs (fun _ _ => True) (call .utcNow) (call .utcNow) m σ σ' :=
    fun m => alike_read envs .utcNow m (fun _ => rfl) (.ok trivial)
  unfold evaluate evaluateGuarded evaluateUnguarded
  refine .bind (A := fun _ _ => True) (.bind (A := fun a b => Prog.Alike (fun _ _ => True) a.1 b.1)
    (.catching ?_ fun e m => ?_) fun a b m hab => ?_) fun a b m _ => .bind (A := fun _ _ => True) ?_
      fun _ _ m _ => .pure trivial
  -- the guarded part: the same reads, the same ceiling, and the clock
  · refine .bind (alike_observe settings envs n h request) fun a b m hab => ?_
    have hceiling : ringingCeiling settings b.1 = ringingCeiling settings a.1 := by
      rw [hab.1]
      rfl
    simp only [hceiling]
    cases ringingCeiling settings a.1 with
    | none => exact .pure (.error _)
    | some ceiling => exact .bind (hclock m) fun _ _ m _ => .pure (.ok trivial)
  -- what one raises the other raises
  · cases e.isException with
    | false => exact .raise e
    | true => exact .pure (.error e)
  -- a decision on both sides, or `evaluation_error` on both
  · obtain ⟨decision, t⟩ := a
    obtain ⟨decision', t'⟩ := b
    cases hab with
    | ok _ => exact .pure trivial
    | error e => exact .bind (hclock m) fun _ _ m _ => .pure trivial
  -- what is persisted is written after the decision and not read again
  · cases persist with
    | false => exact .pure trivial
    | true =>
      refine .catching (alike_recordSafetyDecision envs _ _ _ _ _ _ m) fun e m => ?_
      cases e.isException with
      | false => exact .raise e
      | true => exact .pure trivial

/-- **What a safety decision depends on.** Two evaluations of one request, in stores that agree on
the campaign, with trackers that agree on it and in the same environments, both come to a decision
or both raise the same exception; and the decisions have the same approved count, verdict and
binding constraint exactly when the stores agree on whether any agent at all holds an expired lease,
or the evaluation is stopped anyway. -/
theorem decision_isolated_iff (htracker : tracker campaign.id = tracker' campaign.id) :
    Prog.Alike (fun a b => outcome a.1 = outcome b.1 ↔
        (LeaseExpired σ (envs n).now ↔ LeaseExpired σ' (envs n).now)
          ∨ Stopped settings campaign request
              ((observe settings campaign request).run exec envs n σ).1)
      ((evaluate settings tracker campaign request pacingDecisionId persist).run exec envs n σ).1
      ((evaluate settings tracker' campaign request pacingDecisionId persist).run exec envs n σ').1 := by
  have hboth := (alike_evaluate settings request h tracker tracker' pacingDecisionId persist envs
    n).results
  have hobserved := (alike_observe settings envs n h request).results
  have hnonneg : ∀ r, ((observe settings campaign request).run exec envs n σ).1 = .ok r →
      0 ≤ r.1.availableAgents ∧ 0 ≤ r.1.reservedAgents :=
    (Prog.run_of_wp (maintains_observe settings campaign request σ trivial)
      (fun _ _ => trivial) n).2.1
  have hleft := answers_evaluate settings clocked_exec tracker campaign request pacingDecisionId
    persist envs n σ
  have hright := answers_evaluate settings clocked_exec tracker' campaign request pacingDecisionId
    persist envs n σ'
  -- from here on only the answers of the runs matter
  revert hboth hobserved hnonneg hleft hright
  rcases (evaluate settings tracker campaign request pacingDecisionId persist).run exec envs n σ
    with ⟨r, τ, m⟩
  rcases (evaluate settings tracker' campaign request pacingDecisionId persist).run exec envs n σ'
    with ⟨r', τ', m'⟩
  generalize ((observe settings campaign request).run exec envs n σ).1 = observed
  generalize ((observe settings campaign request).run exec envs n σ').1 = observed'
  intro hboth hobserved hnonneg hleft hright
  cases hboth with
  | error e => exact .error e
  | @ok a b _ =>
    obtain ⟨decision, t⟩ := a
    obtain ⟨decision', t'⟩ := b
    refine .ok ?_
    simp only at hleft hright ⊢
    cases hobserved with
    | error e =>
      cases hleft
      cases hright
      exact ⟨fun _ => Or.inr trivial, fun _ => rfl⟩
    | @ok r r' hsame =>
      obtain ⟨reading, age⟩ := r
      obtain ⟨reading', age'⟩ := r'
      obtain ⟨havailable, hreserved⟩ := hnonneg _ rfl
      have hage : age' = age := congrArg Prod.snd hsame.1
      have hreading : reading' = { reading with expiredLeases := reading'.expiredLeases } :=
        congrArg Prod.fst hsame.1
      subst hage
      have hceiling' : ringingCeiling settings reading' = ringingCeiling settings reading := by
        rw [hreading]
        rfl
      have hdrop : (recordAndDetect settings tracker' campaign.id reading'.availableAgents).1
          = (recordAndDetect settings tracker campaign.id reading.availableAgents).1 := by
        rw [recordAndDetect_congr settings htracker.symm, hreading]
      -- the ceiling is computed from what both have read alike
      cases hleft with
      | noCeiling createdAt hnone =>
        cases hright with
        | noCeiling createdAt' _ =>
          refine ⟨fun _ => Or.inr (Or.inr (Or.inr (Or.inr fun ceiling hsome => ?_))), fun _ => rfl⟩
          cases hnone.symm.trans hsome
        | concluded createdAt' hsome => cases (hceiling'.trans hnone).symm.trans hsome
      | concluded createdAt hsome =>
        cases hright with
        | noCeiling createdAt' hnone => cases (hceiling'.trans hsome).symm.trans hnone
        | concluded createdAt' hsome' =>
          cases (hceiling'.trans hsome).symm.trans hsome'
          simp only [hdrop]
          exact outcome_eq_iff hsame havailable hreserved hsome _ _ _ _

end Evaluations

/-! The theorem at a store where an agent of another campaign sits on an expired lease: the campaign
that was approved two calls is approved none. -/

def strandedAgent : Agent where
  id := .ofString "z"
  campaignId := .ofString "other"
  state := .RESERVED
  reservedBy := some "w"
  leaseExpiresAt := some (-1)

def strandedStore : Store :=
  { shiftStore with agents := ⟨shiftStore.agents.docs ++ [strandedAgent], by decide⟩ }

theorem agreeOn_stranded : AgreeOn shift.id shiftStore strandedStore where
  calls := fun _ _ _ => Iff.rfl
  agents := fun a g hg => by
    have hmem : ∀ {g : Agent}, g ∈ strandedStore.agents.docs ↔
        g ∈ shiftStore.agents.docs ∨ g = strandedAgent := by
      intro g
      rw [← List.mem_singleton]
      exact List.mem_append
    constructor
    · intro h
      have := Collection.get?_of_mem (hmem.mpr (Or.inl (Collection.mem_of_get? h)))
      rwa [Collection.key_of_get? h] at this
    · intro h
      rcases hmem.mp (Collection.mem_of_get? h) with hshift | rfl
      · have := Collection.get?_of_mem hshift
        rwa [Collection.key_of_get? h] at this
      · exact absurd hg (by decide)

theorem decision_not_isolated :
    AgreeOn shift.id shiftStore strandedStore
    ∧ approvedIn ((evaluate {} (fun _ => none) shift tenCalls none true).run exec quiet 0
        shiftStore).1 = some 2
    ∧ approvedIn ((evaluate {} (fun _ => none) shift tenCalls none true).run exec quiet 0
        strandedStore).1 = some 0 :=
  ⟨agreeOn_stranded, by decide +kernel, by decide +kernel⟩

theorem decision_isolated_iff_stranded :
    Prog.Alike (fun a b : SafetyDecision ℚ × AgentAvailabilityTracker => outcome a.1 = outcome b.1 ↔
        (LeaseExpired shiftStore 0 ↔ LeaseExpired strandedStore 0)
          ∨ Stopped {} shift tenCalls ((observe {} shift tenCalls).run exec quiet 0 shiftStore).1)
      ((evaluate {} (fun _ => none) shift tenCalls none true).run exec quiet 0 shiftStore).1
      ((evaluate {} (fun _ => none) shift tenCalls none true).run exec quiet 0 strandedStore).1 :=
  decision_isolated_iff {} tenCalls agreeOn_stranded (fun _ => none) (fun _ => none) none true quiet 0
    rfl

end SmartDialer.SafetyController
