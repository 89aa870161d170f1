import SmartDialer.Calls.Evolution

/-!
# The lifecycle of a call

`transition_call` filters on `terminal` and on `state_rank` alone, and only the event processor
looks at `CALL_TRANSITIONS`, on a state that may be out of date. `call_lifecycle` says that the
table is nevertheless respected in every run.

A run is an infinite sequence of worlds, so that a statement about two of its moments can be put as
one about two numbers. The second half of the module is the cast of the concrete runs that this
development uses: one campaign, one agent and one borrower, or two of each.
-/

namespace SmartDialer

open DocStore Concurrent

/-- What one operation does to the state of a call: nothing, or one edge of the table. -/
theorem exec_moves {σ : Store} {st : Nat → Stage} (h : CallFacts σ st) {p : Nat} {o : Op}
    {env : Env} (hemits : Emits (st p) o) {c : DocId} {d d' : Call}
    (hd : σ.calls.get? c = some d) (hd' : (exec env o σ).2.calls.get? c = some d') :
    d'.state = d.state ∨ CallSm.canTransition d.state d'.state = true := by
  rcases exec_store env o σ with hstore | hstore
  · rw [hstore, hd] at hd'
    cases hd'
    exact Or.inl rfl
  · rw [hstore] at hd'
    obtain ⟨e, he, hcases⟩ := apply_call_cases env o hd
    cases he.symm.trans hd'
    rcases hcases with rfl | ⟨t, reason, rfl, hfilter, rfl⟩ | ⟨q, -, -, rfl⟩
    · exact Or.inl rfl
    · exact Or.inr (canTransition_of_emits h hemits hd hfilter)
    · exact Or.inl rfl

/-- The same for one action of the scheduler. -/
theorem act_moves {cfg : Config} {R : SystemRegime} {σ₀ : Store} {w : SystemWorld}
    (h₀ : CallsSound σ₀.calls) (h : Reachable (system cfg) R (World.fresh σ₀) w)
    (a : Action Job Env) {c : DocId} {d d' : Call} (hd : w.store.calls.get? c = some d)
    (hd' : (w.act (system cfg) a).store.calls.get? c = some d') :
    d'.state = d.state ∨ CallSm.canTransition d.state d'.state = true := by
  rcases w.act_cases (M := system cfg) a with heq | ⟨p, job, -, -, heq⟩ | ⟨p, t, -, -, heq⟩
    | ⟨p, env, t, o, k, -, ht, -, hprog, heq⟩
  · rw [heq] at hd'
    cases hd.symm.trans hd'
    exact Or.inl rfl
  · rw [heq] at hd'
    cases hd.symm.trans hd'
    exact Or.inl rfl
  · rw [heq] at hd'
    cases hd.symm.trans hd'
    exact Or.inl rfl
  · have hfollow := (h.obeys system_conforms (World.Obeys.fresh _ σ₀)).follows p t ht
    rw [hprog, ← World.lastStage_eq (M := system cfg) ht] at hfollow
    rw [heq] at hd'
    exact exec_moves (callFacts_of_reachable h₀ h) hfollow.1 hd hd'

/-- No action undoes anything about a call. -/
theorem act_evolves (cfg : Config) (w : SystemWorld) (a : Action Job Env) :
    CallsEvolve w.store.calls (w.act (system cfg) a).store.calls := by
  rcases w.act_cases (M := system cfg) a with heq | ⟨p, job, -, -, heq⟩ | ⟨p, t, -, -, heq⟩
    | ⟨p, env, t, o, k, -, -, -, -, heq⟩
  · rw [heq]
    exact .refl _
  · rw [heq]
    exact .refl _
  · rw [heq]
    exact .refl _
  · rw [heq]
    exact exec_evolves env o w.store

theorem run_evolves {cfg : Config} {R : SystemRegime} {w₀ : SystemWorld}
    (run : Run (system cfg) R w₀) {m n : Nat} (hmn : m ≤ n) :
    CallsEvolve (run.world m).store.calls (run.world n).store.calls :=
  run.stable (P := fun w => CallsEvolve (run.world m).store.calls w.store.calls)
    (fun w a h => h.trans (act_evolves cfg w a)) hmn (.refl _)

/-- At instant `n` call `c` moves from an unfinished state into a terminal one. -/
def EndsAt {cfg : Config} {R : SystemRegime} {w₀ : SystemWorld} (run : Run (system cfg) R w₀)
    (c : DocId) (n : Nat) : Prop :=
  ∃ d d', (run.world n).store.calls.get? c = some d ∧ CallSm.isTerminal d.state = false
    ∧ (run.world (n + 1)).store.calls.get? c = some d' ∧ CallSm.isTerminal d'.state = true

/-- **Call lifecycle conformance**, in every run: changes of state are edges of the table and
raise the rank; rank, terminal flag and provider id fit the state; a call ends at most once, and
then its state, end and failure reason are final. -/
theorem call_lifecycle {cfg : Config} {σ₀ : Store} (h₀ : CallsSound σ₀.calls)
    (run : Run (system cfg) SystemRegime.anything (World.fresh σ₀)) :
    (∀ n c d d', (run.world n).store.calls.get? c = some d →
      (run.world (n + 1)).store.calls.get? c = some d' → d'.state ≠ d.state →
      CallSm.canTransition d.state d'.state = true ∧ CallSm.rank d.state < CallSm.rank d'.state)
    ∧ (∀ n c d, (run.world n).store.calls.get? c = some d →
      d.stateRank = CallSm.rank d.state ∧ d.terminal = CallSm.isTerminal d.state
        ∧ (d.providerCallId ≠ none → CallSm.rank .INITIATED ≤ CallSm.rank d.state))
    ∧ (∀ c m n, EndsAt run c m → EndsAt run c n → m = n)
    ∧ (∀ m n c d, m ≤ n → (run.world m).store.calls.get? c = some d → d.terminal = true →
      ∃ d', (run.world n).store.calls.get? c = some d' ∧ d'.terminal = true
        ∧ d'.state = d.state ∧ d'.endedAt = d.endedAt ∧ d'.failureReason = d.failureReason) := by
  have hsound : ∀ n, CallsSound (run.world n).store.calls := fun n =>
    (callFacts_of_reachable h₀ (run.reachable n)).sound
  have hfrozen : ∀ m n c d, m ≤ n → (run.world m).store.calls.get? c = some d →
      d.terminal = true → ∃ d', (run.world n).store.calls.get? c = some d' ∧ d'.terminal = true
        ∧ d'.state = d.state ∧ d'.endedAt = d.endedAt ∧ d'.failureReason = d.failureReason := by
    intro m n c d hmn hd hterm
    obtain ⟨d', hd', hev⟩ := run_evolves run hmn c d hd
    exact ⟨d', hd', hev.frozen hterm⟩
  -- the earlier of two ends would leave a finished call that is unfinished at the later one
  have hlt : ∀ c m n, EndsAt run c m → EndsAt run c n → ¬ m < n := by
    rintro c m n ⟨-, d, -, -, hd, hterm⟩ ⟨e, -, he, hopen, -, -⟩ hmn
    rw [← (hsound _ c d hd).terminal] at hterm
    obtain ⟨d', hd', hterm', -⟩ := hfrozen (m + 1) n c d hmn hd hterm
    rw [he] at hd'
    cases hd'
    rw [(hsound n c e he).terminal, hopen] at hterm'
    cases hterm'
  refine ⟨fun n c d d' hd hd' hne => ?_, fun n c d hd => ?_, fun c m n hm hn => ?_, hfrozen⟩
  · rw [run.step] at hd'
    have hedge := (act_moves h₀ (run.reachable n) _ hd hd').resolve_left hne
    exact ⟨hedge, CallSm.rank_lt_of_canTransition hedge⟩
  · have hd := hsound n c d hd
    exact ⟨hd.rank, hd.terminal, hd.attached⟩
  · have h₁ := hlt c m n hm hn
    have h₂ := hlt c n m hn hm
    omega

/-! The theorem at a run: one allocator dials the only borrower through the only agent, and the
provider reports the call completed. -/

/-- A campaign that dials through the first provider. -/
def demoCampaign : Campaign := { id := ⟨"k", by decide⟩, providerName := "mock_a" }

/-- Her agent is available. -/
def demoAgent : Agent := { id := ⟨"a", by decide⟩, campaignId := demoCampaign.id, state := .AVAILABLE }

/-- Her borrower has not been called yet. -/
def demoBorrower : Borrower :=
  { id := ⟨"b", by decide⟩, campaignId := demoCampaign.id, phoneNumber := "1" }

/-- Nothing but these two. -/
def demoStore : Store where
  agents := ⟨[demoAgent], by decide⟩
  borrowers := ⟨[demoBorrower], by decide⟩
  calls := .empty
  events := ∅

theorem demoStore_sound : CallsSound demoStore.calls := fun _ _ hd => by cases hd

/-- The call is over for the provider. -/
def demoEvent : ProviderEvent :=
  { providerName := "mock_a", providerEventId := "e", providerCallId := "p",
    eventType := "COMPLETED" }

/-- The provider accepts the call, and the new call draws the id `c`. -/
def demoEnv : Env where
  newId := ⟨"c", by decide⟩
  originateResult := { accepted := true, latencyMs := 0, providerCallId := some "p" }

/-- The worker comes first, then the event. -/
def demoActions (n : Nat) : Action Job Env :=
  if n = 0 then .spawn 0 (.allocate demoCampaign 1 "w")
  else if n = 1 then .spawn 1 (.processEvent demoEvent)
  else if n < 20 then .perform 0 demoEnv
  else .perform 1 demoEnv

/-- The run that goes on for ever. -/
def demoRun : Run (system {}) SystemRegime.anything (World.fresh demoStore) :=
  .ofActions _ _ _ demoActions (anything_allows {})

theorem call_lifecycle_demo : ∃ d d', (demoRun.world 8).store.calls.get? demoEnv.newId = some d
    ∧ (demoRun.world 9).store.calls.get? demoEnv.newId = some d'
    ∧ CallSm.canTransition d.state d'.state = true ∧ CallSm.rank d.state < CallSm.rank d'.state := by
  have hreserved : ((demoRun.world 8).store.calls.get? demoEnv.newId).map Call.state
      = some .RESERVED := by decide +kernel
  have hinitiated : ((demoRun.world 9).store.calls.get? demoEnv.newId).map Call.state
      = some .INITIATED := by decide +kernel
  obtain ⟨d, hd, hstate⟩ := Option.map_eq_some_iff.mp hreserved
  obtain ⟨d', hd', hstate'⟩ := Option.map_eq_some_iff.mp hinitiated
  have hne : d'.state ≠ d.state := by
    rw [hstate, hstate']
    decide
  exact ⟨d, d', hd, hd', (call_lifecycle demoStore_sound demoRun).1 8 demoEnv.newId d d' hd hd' hne⟩

/-! The same dial up to the answer of the provider, and the call it leaves. -/

/-- More operations than the worker needs: what is left over does nothing. -/
def attachedActions : List (Action Job Env) :=
  .spawn 0 (.allocate demoCampaign 1 "w") :: List.replicate 20 (.perform 0 demoEnv)

/-- The call is with the provider, and the worker is done. -/
def attached : SystemWorld := (World.fresh demoStore).acts (system {}) attachedActions

/-- An event of the same call. -/
def eventOf (id eventType : String) : ProviderEvent :=
  { providerName := "mock_a", providerEventId := id, providerCallId := "p", eventType }

/-- The lease of both parties. -/
def demoLease : LeaseFields := buildLeaseFields "w" 30 0

/-- The call as it is stored then. -/
def demoCall : Call where
  id := demoEnv.newId
  campaignId := demoCampaign.id
  agentId := demoAgent.id
  borrowerId := demoBorrower.id
  state := .INITIATED
  stateRank := 2
  providerName := "mock_a"
  providerCallId := some "p"
  idempotencyKey := "k:a:b:1"
  createdByWorker := "w"
  initiatedAt := some 0

/-- The borrower as he is stored then. -/
def heldBorrower : Borrower :=
  { demoBorrower with toLeaseFields := demoLease, status := .RESERVED, stateVersion := 1 }

/-! Two workers side by side. There is an agent and a borrower for each of them, but both list the
same agents in the same order, so the second one loses his first claim and takes the next. -/

/-- Two agents for one borrower. -/
def twoAgents : Store :=
  { demoStore with
    agents := ⟨[demoAgent, { demoAgent with id := .ofString "a2" }], by decide⟩ }

/-- Two agents and two borrowers. -/
def twoPairs : Store :=
  { twoAgents with
    borrowers := ⟨[demoBorrower, { demoBorrower with id := .ofString "b2" }], by decide⟩ }

theorem twoPairs_sound : CallsSound twoPairs.calls := fun _ _ hd => by cases hd

/-- The second worker's call draws the id `c2`, and the provider names it `p2`. -/
def secondEnv : Env where
  newId := .ofString "c2"
  originateResult := { accepted := true, latencyMs := 0, providerCallId := some "p2" }

/-- The workers take turns, operation by operation, `n` each. -/
def sideBySideActions (n : Nat) : List (Action Job Env) :=
  [.spawn 0 (.allocate demoCampaign 1 "v"), .spawn 1 (.allocate demoCampaign 1 "w")]
    ++ (List.replicate n [.perform 0 demoEnv, .perform 1 secondEnv]).flatten

end SmartDialer
