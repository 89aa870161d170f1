import SmartDialer.Workers.DialerWorker

/-!
# The invariant checker (`app/simulation/invariants.py`)

The simulation looks for violations while it runs: duplicate bindings among the active calls, more
active calls than usable agents, and at the end stale calls and agents left reserved.

The checker is a program like any other: its two or four queries are operations, and what it reports
is computed from their answers. `duplicateLoop_exact` says what the loop reports of any list of
calls; that the list is put together at one moment, and what holds of it then, is for other modules
to say.
-/

namespace SmartDialer

open Concurrent DocStore HostFloat

variable {F : Type}

/-- What the checker reports. -/
structure InvariantViolation where
  name : String
  detail : String
  offendingIds : List String := []
  deriving DecidableEq

namespace InvariantChecker

/-- The inner loop of `_check_duplicate_bindings`. -/
def duplicateLoop (key : Call → DocId) :
    List Call → (DocId → Option DocId) → List String → List String
  | [], _, offenders => offenders
  | call :: calls, seen, offenders =>
    duplicateLoop key calls (Function.update seen (key call) (some call.id))
      (match seen (key call) with
        | some other =>
          offenders ++ [(key call).val ++ " in " ++ other.val ++ " and " ++ call.id.val]
        | none => offenders)

/-- The violation of one kind of party, if there is one. -/
def duplicateViolation (name : String) (key : Call → DocId) (activeCalls : List Call) :
    List InvariantViolation :=
  let offenders := duplicateLoop key activeCalls (fun _ => none) []
  if offenders = [] then []
  else [{
    name, detail := toString offenders.length ++ " duplicate bindings detected"
    offendingIds := offenders }]

/-- `_check_duplicate_bindings`. -/
def checkDuplicateBindings (activeCalls : List Call) : List InvariantViolation :=
  duplicateViolation "agent_bound_to_two_active_calls" Call.agentId activeCalls
    ++ duplicateViolation "borrower_in_two_active_calls" Call.borrowerId activeCalls

/-- The agents who are neither offline nor paused. -/
def usableAgents (agentCounts : AgentState → Nat) : Nat :=
  ((AgentState.all.filter fun s => s ≠ .OFFLINE ∧ s ≠ .PAUSED).map agentCounts).sum

/-- `_check_capacity`. -/
def checkCapacity (activeCalls : List Call) (agentCounts : AgentState → Nat) :
    List InvariantViolation :=
  if activeCalls.length ≤ usableAgents agentCounts then []
  else [{
    name := "agent_bound_calls_exceed_usable_agents"
    detail := toString activeCalls.length ++ " agent-bound calls for "
      ++ toString (usableAgents agentCounts) ++ " usable agents"
    offendingIds := activeCalls.map fun call => call.id.val }]

/-- `_check_final_state`. -/
def checkFinalState (settings : Settings) (campaignId : DocId) (agentCounts : AgentState → Nat) :
    PlatformPy F (List InvariantViolation) := do
  let now ← dialer F (call .utcNow)
  let stale ← dialer F
    (call (.findStaleCalls (now - seconds settings.CALL_STALE_TIMEOUT_SECONDS) 50))
  let stale := stale.filter fun call => call.campaignId = campaignId
  let staleViolations : List InvariantViolation :=
    if stale = [] then []
    else [{
      name := "non_terminal_call_older_than_stale_timeout"
      detail := toString stale.length ++ " calls stayed non-terminal past the stale timeout"
      offendingIds := stale.map fun call => call.id.val }]
  let stuckViolations : List InvariantViolation :=
    if agentCounts .RESERVED = 0 then []
    else [{
      name := "agent_left_reserved"
      detail := toString (agentCounts .RESERVED) ++ " agents left RESERVED" }]
  pure (staleViolations ++ stuckViolations)

/-- `check`. -/
def check (settings : Settings) (campaignId : DocId) (final : Bool) :
    PlatformPy F (List InvariantViolation) := do
  let activeCalls ← ask (.findActive campaignId 5000)
  let agentCounts ← dialer F (call (.countAgentsByState campaignId))
  let violations := checkDuplicateBindings activeCalls ++ checkCapacity activeCalls agentCounts
  if final then do
    let finalViolations ← checkFinalState settings campaignId agentCounts
    pure (violations ++ finalViolations)
  else pure violations

end InvariantChecker

/-! ## What a silent checker has seen

The loop remembers, of every party, the call it has seen last. Two lemmas go through it with that as
their invariant (`Seen`): one counts the reports, the other says what each of them is. -/

namespace InvariantChecker

/-- Two calls in a row of those with one key, in the words of the report. -/
def report (key : Call → DocId) (x y : Call) : String :=
  (key y).val ++ " in " ++ x.id.val ++ " and " ++ y.id.val

/-- What the loop remembers of the calls it has gone through: the last one of every key. -/
structure Seen (key : Call → DocId) (past : List Call) (seen : DocId → Option DocId) : Prop where
  new : ∀ k, seen k = none → ∀ z ∈ past, key z ≠ k
  last : ∀ k i, seen k = some i →
    ∃ l x m, past = l ++ x :: m ∧ key x = k ∧ x.id = i ∧ ∀ z ∈ m, key z ≠ k

variable {key : Call → DocId}

theorem Seen.push {past : List Call} {seen : DocId → Option DocId} (h : Seen key past seen)
    (call : Call) :
    Seen key (past ++ [call]) (Function.update seen (key call) (some call.id)) where
  new := fun k hk z hz => by
    by_cases hkey : k = key call
    · rw [hkey, Function.update_self] at hk
      cases hk
    · rw [Function.update_of_ne hkey] at hk
      rcases List.mem_append.mp hz with hz | hz
      · exact h.new k hk z hz
      · rw [List.mem_singleton.mp hz]
        exact fun heq => hkey heq.symm
  last := fun k i hi => by
    by_cases hkey : k = key call
    · rw [hkey, Function.update_self] at hi
      exact ⟨past, call, [], rfl, hkey.symm, Option.some.inj hi,
        fun z hz => absurd hz List.not_mem_nil⟩
    · rw [Function.update_of_ne hkey] at hi
      obtain ⟨l, x, m, rfl, hx, hid, hm⟩ := h.last k i hi
      refine ⟨l, x, m ++ [call], by simp, hx, hid, fun z hz => ?_⟩
      rcases List.mem_append.mp hz with hz | hz
      · exact hm z hz
      · rw [List.mem_singleton.mp hz]
        exact fun heq => hkey heq.symm

/-- Every call is either the first of its key or a report. By induction on the list, for any number
of calls that have been seen: each call is new, which raises the number of distinct keys, or makes a
report. -/
theorem length_duplicateLoop (calls : List Call) :
    ∀ (past : List Call) (seen : DocId → Option DocId) (offenders : List String),
    Seen key past seen →
    (duplicateLoop key calls seen offenders).length + ((past ++ calls).map key).toFinset.card
      = offenders.length + calls.length + (past.map key).toFinset.card := by
  -- on the calls: each is the first of its party, or is reported
  induction calls with
  | nil =>
    intro past seen offenders _
    simp [duplicateLoop]
  | cons call calls ih =>
    intro past seen offenders hseen
    have hkeys : ((past ++ [call]).map key).toFinset
        = insert (key call) (past.map key).toFinset := by
      ext k
      simp
    -- the rest of the loop, whatever has been reported
    have hnext := fun offenders => ih (past ++ [call]) _ offenders (hseen.push call)
    simp only [List.append_assoc, List.singleton_append, hkeys] at hnext
    rw [duplicateLoop, List.length_cons]
    cases hk : seen (key call) with
    | none =>
      have hnew : key call ∉ (past.map key).toFinset := by
        rw [List.mem_toFinset, List.mem_map]
        exact fun ⟨z, hz, heq⟩ => hseen.new _ hk z hz heq
      rw [hnext, Finset.card_insert_of_notMem hnew]
      dsimp only
      omega
    | some i =>
      obtain ⟨l, x, m, rfl, hx, -, -⟩ := hseen.last _ i hk
      have hold : key call ∈ ((l ++ x :: m).map key).toFinset := by
        rw [List.mem_toFinset, List.mem_map]
        exact ⟨x, by simp, hx⟩
      rw [hnext, Finset.insert_eq_of_mem hold, List.length_append, List.length_singleton]
      omega

/-- Every report is about two calls of one key with none of that key in between. -/
theorem mem_duplicateLoop (calls : List Call) :
    ∀ (past : List Call) (seen : DocId → Option DocId) (offenders : List String),
    Seen key past seen → ∀ s ∈ duplicateLoop key calls seen offenders, s ∈ offenders
      ∨ ∃ l x m y n, past ++ calls = l ++ x :: m ++ y :: n ∧ key x = key y
        ∧ (∀ z ∈ m, key z ≠ key y) ∧ s = report key x y := by
  -- on the calls: a report names the call that was seen last
  induction calls with
  | nil => exact fun past seen offenders _ s hs => Or.inl hs
  | cons call calls ih =>
    intro past seen offenders hseen s hs
    unfold duplicateLoop at hs
    have hnext := ih (past ++ [call]) _ _ (hseen.push call) s hs
    rw [List.append_assoc, List.singleton_append] at hnext
    refine hnext.elim (fun hs => ?_) Or.inr
    cases hk : seen (key call) with
    | none =>
      rw [hk] at hs
      exact Or.inl hs
    | some i =>
      rw [hk] at hs
      rcases List.mem_append.mp hs with hs | hs
      · exact Or.inl hs
      · obtain ⟨l, x, m, rfl, hx, rfl, hm⟩ := hseen.last _ i hk
        exact Or.inr ⟨l, x, m, call, calls, rfl, hx, hm, List.mem_singleton.mp hs⟩

theorem Seen.nothing : Seen key [] fun _ => none :=
  ⟨fun _ _ _ hz => absurd hz List.not_mem_nil, fun _ _ hi => absurd hi (Option.some_ne_none _).symm⟩

/-- **The reports of the checker**: one for every call that is not the first of its agent (or
borrower), each naming that call and the one of the same party before it. -/
theorem duplicateLoop_exact (key : Call → DocId) (calls : List Call) :
    (duplicateLoop key calls (fun _ => none) []).length + (calls.map key).toFinset.card
        = calls.length
      ∧ ∀ s ∈ duplicateLoop key calls (fun _ => none) [],
        ∃ l x m y n, calls = l ++ x :: m ++ y :: n ∧ key x = key y
          ∧ (∀ z ∈ m, key z ≠ key y) ∧ s = report key x y := by
  refine ⟨?_, fun s hs => (mem_duplicateLoop calls [] _ _ Seen.nothing s hs).resolve_left
    List.not_mem_nil⟩
  have hseen : Seen key [] fun _ => none := Seen.nothing
  have hlength := length_duplicateLoop calls [] _ [] hseen
  simpa using hlength

theorem duplicateLoop_eq_nil {calls : List Call} :
    duplicateLoop key calls (fun _ => none) [] = [] ↔ (calls.map key).Nodup := by
  have hseen : Seen key [] fun _ => none := Seen.nothing
  have hlength := length_duplicateLoop calls [] _ [] hseen
  rw [← List.length_eq_zero_iff]
  have hcard := List.toFinset_card_le (calls.map key)
  rw [← Multiset.coe_nodup, ← Multiset.toFinset_card_eq_card_iff_nodup]
  show _ ↔ (calls.map key).toFinset.card = (calls.map key).length
  rw [List.length_map] at hcard ⊢
  simp only [List.nil_append, List.length_nil, List.map_nil, List.toFinset_nil,
    Finset.card_empty] at hlength
  omega

/-- Nothing is reported when no two calls share an agent or a borrower. -/
theorem checkDuplicateBindings_eq_nil {calls : List Call} (hagents : (calls.map Call.agentId).Nodup)
    (hborrowers : (calls.map Call.borrowerId).Nodup) : checkDuplicateBindings calls = [] := by
  unfold checkDuplicateBindings duplicateViolation
  dsimp only
  rw [duplicateLoop_eq_nil.mpr hagents, duplicateLoop_eq_nil.mpr hborrowers]
  rfl

/-! ## The count of the usable agents

The counts by state are summed over the usable states, which comes to counting usable agents. -/

/-- An agent who counts as usable. -/
def usable (g : Agent) : Prop := g.state ≠ .OFFLINE ∧ g.state ≠ .PAUSED

instance (g : Agent) : Decidable (usable g) := inferInstanceAs (Decidable (_ ∧ _))

theorem usableAgents_eq (campaignId : DocId) (agents : Agents) :
    usableAgents (AgentRepo.countByState campaignId agents)
      = (agents.find fun g => g.campaignId = campaignId ∧ usable g).length := by
  unfold usableAgents AgentRepo.countByState Collection.find
  simp only [← List.countP_eq_length_filter]
  induction agents.docs with
  | nil => rfl
  | cons g docs ih =>
    simp only [List.countP_cons, List.sum_map_add, ih, decide_eq_true_eq]
    congr 1
    -- every agent is counted under one state
    by_cases hcampaign : g.campaignId = campaignId <;> cases hstate : g.state <;>
      simp [hcampaign, hstate, usable, AgentState.all]

end InvariantChecker

end SmartDialer
