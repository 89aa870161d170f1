import SmartDialer.Metrics.Utilization
import SmartDialer.System.Effects

/-!
# Where an agent's time goes

An account collects the time spent in some states: the stored counters credit it when a state is
left. Two of the writes set `state_changed_at` without crediting anything, so what the agent spent
in the state they end is lost to every account. Everything else is conserved.

For one operation the balance is an equation between integers, `account_step`, with a term for what
is lost. Summed up over a sequence it is `account_run`, and `timeConserved_iff` says when the lost
terms vanish, given that the report reads exactly what the accounts have.
-/

namespace SmartDialer

open DocStore Concurrent HostFloat

namespace Utilization

/-! ## Accounts

The three totals of a report as accounts: each has a stored part, and a pending part while the agent
is in one of its states. -/

inductive Account where
  /-- `AVAILABLE` and the busy states. -/
  | counted
  | connected
  | wrapUp

/-- The states the account is for. -/
def Account.covers : Account → AgentState → Bool
  | .counted, s => s ∈ denominatorStates
  | .connected, s => s = .CONNECTED
  | .wrapUp, s => s = .WRAP_UP

/-- What the stored counters have of it. -/
def Account.stored : Account → Agent → Int
  | .counted, g => g.busyTimeMs + g.availableTimeMs
  | .connected, g => g.connectedTimeMs
  | .wrapUp, g => g.wrapUpTimeMs

/-- The time since the last state change, if the state is one of the account's. -/
def Account.pending (k : Account) (g : Agent) (t : Time) : Int :=
  if k.covers g.state then t - g.stateChangedAt else 0

theorem Account.pending_self (k : Account) (g : Agent) (t : Time) (h : g.stateChangedAt = t) :
    k.pending g t = 0 := by
  subst h
  simp [Account.pending]

theorem elapsed_eq {g : Agent} {t : Time} (h : g.stateChangedAt ≤ t) :
    AgentRepo.elapsed t g = t - g.stateChangedAt :=
  max_eq_right (sub_nonneg.mpr h)

/-- Leaving a state credits every account the state belongs to. -/
theorem Account.stored_timeAccountingUpdates (k : Account) {g : Agent} {t : Time}
    (h : g.stateChangedAt ≤ t) :
    k.stored (AgentRepo.timeAccountingUpdates g.state t g) = k.stored g + k.pending g t := by
  unfold AgentRepo.timeAccountingUpdates AgentRepo.creditTime
  cases k <;> cases hs : g.state <;>
    simp [Account.stored, Account.pending, Account.covers, denominatorStates,
      AgentRepo.timeAccountingFields, hs, elapsed_eq h] <;> ring

/-! ## One operation

What a write credits is what was pending, so stored and pending part together do not jump. The two
writes that credit nothing are the exceptions. -/

/-- The instant an operation writes into `state_changed_at`. -/
def moment (env : Env) : Op → Time
  | .releaseExpiredAgentLease _ now => now
  | _ => env.now

/-- The operations whose update document credits nothing. -/
def Uncrediting : Op → Prop
  | .tryReserveAgent .. | .releaseExpiredAgentLease .. => True
  | _ => False

instance : DecidablePred Uncrediting := fun o => by
  cases o <;> first | exact .isTrue trivial | exact .isFalse id

/-- The time an operation takes out of the account. -/
def Account.lost (k : Account) (o : Op) (g g' : Agent) (t : Time) : Int :=
  if Uncrediting o ∧ g'.stateVersion ≠ g.stateVersion then k.pending g t else 0

/-- **One operation**: what an account has, stored and pending, changes by what is lost. The clock
must not be before the last state change, or `_elapsed` would cut a negative difference at zero. -/
theorem account_step (k : Account) {env : Env} {o : Op} {g g' : Agent}
    (hwrite : AgentWrite env.now o g g') (h : g.stateChangedAt ≤ moment env o) :
    k.stored g' + k.pending g' (moment env o) + k.lost o g g' (moment env o)
        = k.stored g + k.pending g (moment env o)
      ∧ g'.stateChangedAt ≤ moment env o := by
  cases hwrite with
  | unchanged o g => exact ⟨by simp [Account.lost], h⟩
  -- without credit what was pending is lost
  | reserve workerId ttl hstate =>
    refine ⟨?_, le_refl _⟩
    have hlost : k.lost (.tryReserveAgent g.campaignId g.id workerId ttl) g
        (AgentRepo.reserveUpdate env.now workerId ttl g) env.now = k.pending g env.now :=
      if_pos ⟨trivial, Nat.succ_ne_self _⟩
    show _ + k.pending _ env.now + k.lost _ g _ env.now = _ + k.pending g env.now
    rw [k.pending_self (AgentRepo.reserveUpdate env.now workerId ttl g) env.now rfl, hlost]
    cases k <;> simp [Account.stored, AgentRepo.reserveUpdate]
  -- what is pending is credited, and the new state starts with nothing
  | @release g workerId t actor hworker hstate =>
    refine ⟨?_, le_refl _⟩
    have hcredit : k.stored (AgentRepo.releaseUpdate env.now t actor g)
        = k.stored (AgentRepo.timeAccountingUpdates g.state env.now g) := by
      cases k <;> simp [Account.stored, AgentRepo.releaseUpdate, AgentRepo.conditionalAccounting,
        hstate]
    have h : g.stateChangedAt ≤ env.now := h
    show _ + k.pending _ env.now + k.lost _ g _ env.now = _ + k.pending g env.now
    rw [k.pending_self (AgentRepo.releaseUpdate env.now t actor g) env.now rfl, hcredit,
      k.stored_timeAccountingUpdates h]
    simp [Account.lost, Uncrediting]
  | @transition g t actor =>
    refine ⟨?_, le_refl _⟩
    have hcredit : k.stored (AgentRepo.transitionUpdate env.now g.state t g)
        = k.stored (AgentRepo.timeAccountingUpdates g.state env.now g) := by
      cases k <;> rfl
    have h : g.stateChangedAt ≤ env.now := h
    show _ + k.pending _ env.now + k.lost _ g _ env.now = _ + k.pending g env.now
    rw [k.pending_self (AgentRepo.transitionUpdate env.now g.state t g) env.now rfl, hcredit,
      k.stored_timeAccountingUpdates h]
    simp [Account.lost, Uncrediting]
  -- these two leave state and clock alone
  | bind callId hworker =>
    refine ⟨?_, h⟩
    cases k <;> simp [Account.lost, Uncrediting, Account.stored, Account.pending]
  | @reclaim g candidate sweep t hid hstate hversion hlease hexpired =>
    refine ⟨?_, le_refl _⟩
    have hlost : k.lost (.releaseExpiredAgentLease candidate sweep) g
        (AgentRepo.leaseReclaimUpdate sweep g) sweep = k.pending g sweep :=
      if_pos ⟨trivial, Nat.succ_ne_self _⟩
    show _ + k.pending _ sweep + k.lost _ g _ sweep = _ + k.pending g sweep
    rw [k.pending_self (AgentRepo.leaseReclaimUpdate sweep g) sweep rfl, hlost]
    cases k <;> simp [Account.stored, AgentRepo.leaseReclaimUpdate]
  | beat g =>
    refine ⟨?_, h⟩
    cases k <;> simp [Account.lost, Uncrediting, Account.stored, Account.pending]

/-- An operation that takes effect on the state stamps its moment; any other leaves state, stamp
and version alone. -/
theorem agentWrite_changed {env : Env} {o : Op} {g g' : Agent} (hwrite : AgentWrite env.now o g g') :
    (g'.stateVersion ≠ g.stateVersion ∧ g'.stateChangedAt = moment env o
      ∧ (Uncrediting o → g'.state ∈ denominatorStates))
    ∨ (g'.stateVersion = g.stateVersion ∧ g'.state = g.state
      ∧ g'.stateChangedAt = g.stateChangedAt) := by
  cases hwrite with
  | unchanged o g => exact Or.inr ⟨rfl, rfl, rfl⟩
  | reserve workerId ttl hstate =>
    exact Or.inl ⟨Nat.succ_ne_self _, rfl, fun _ => by simp [AgentRepo.reserveUpdate, denominatorStates]⟩
  | release hworker hstate =>
    refine Or.inl ⟨?_, rfl, False.elim⟩
    exact Nat.succ_ne_self _
  | transition t actor => exact Or.inl ⟨Nat.succ_ne_self _, rfl, False.elim⟩
  | bind callId hworker => exact Or.inr ⟨rfl, rfl, rfl⟩
  | reclaim hid hstate hversion hlease hexpired =>
    exact Or.inl ⟨Nat.succ_ne_self _, rfl,
      fun _ => by simp [AgentRepo.leaseReclaimUpdate, denominatorStates]⟩
  | beat g => exact Or.inr ⟨rfl, rfl, rfl⟩

/-! ## Sequences of operations

The operations are those of the repository, in any order and of any actor, on one store. Each
happens at its moment: the clock reading that it writes, which for a lease reclaim is that of the
sweep. -/

section Runs

variable (k : Account) (a : DocId)

/-- The store after a sequence of operations. -/
def after (σ : Store) (ops : List (Env × Op)) : Store :=
  ops.foldl (fun σ x => (exec x.1 x.2 σ).2) σ

/-- The moment of the last operation. -/
def lastMoment (since : Time) (ops : List (Env × Op)) : Time :=
  ops.foldl (fun _ x => moment x.1 x.2) since

/-- The operations come at nondecreasing moments, none of them before `since`. -/
def Ordered (since : Time) (ops : List (Env × Op)) : Prop :=
  (since :: ops.map fun x => moment x.1 x.2).IsChain (· ≤ ·)

/-- The agent is in one of the states of the account. -/
def Account.holds (σ : Store) : Bool := (σ.agents.get? a).any fun g => k.covers g.state

/-- **The time the agent has spent** in the states of the account from `since` to `t`, when the
operations came at their moments. -/
def spent : Store → Time → List (Env × Op) → Time → Int
  | σ, since, [], t => if k.holds a σ then t - since else 0
  | σ, since, x :: rest, t =>
    (if k.holds a σ then moment x.1 x.2 - since else 0)
      + spent (exec x.1 x.2 σ).2 (moment x.1 x.2) rest t

/-- What one operation takes out of the account of this agent. -/
def lostAt (σ : Store) (x : Env × Op) : Int :=
  match σ.agents.get? a, (exec x.1 x.2 σ).2.agents.get? a with
  | some g, some g' => k.lost x.2 g g' (moment x.1 x.2)
  | _, _ => 0

def lostAlong : Store → List (Env × Op) → Int
  | _, [] => 0
  | σ, x :: rest => lostAt k a σ x + lostAlong (exec x.1 x.2 σ).2 rest

theorem lostAlong_append (σ : Store) (pre : List (Env × Op)) (x : Env × Op) :
    lostAlong k a σ (pre ++ [x]) = lostAlong k a σ pre + lostAt k a (after σ pre) x := by
  induction pre generalizing σ with
  | nil => simp [lostAlong, after]
  | cons y pre ih =>
    rw [List.cons_append, lostAlong, lostAlong, ih, add_assoc]
    rfl

variable {k a}

/-- While nothing happens, the pending part grows with the clock if the agent is in one of the
states of the account. -/
theorem pending_add {σ : Store} {g : Agent} (hg : σ.agents.get? a = some g) (since t : Time) :
    k.pending g t = k.pending g since + if k.holds a σ then t - since else 0 := by
  unfold Account.pending Account.holds
  rw [hg]
  simp only [Option.any_some]
  split <;> ring

/-- **A sequence of operations**: what the account has, and what was lost on the way, is what it had
and the time spent since. The induction is on the operations, with the store, the agent and the
start generalized: the first operation makes the store that the others start from. -/
theorem account_run {σ : Store} {g : Agent} {since : Time} {ops : List (Env × Op)}
    (hg : σ.agents.get? a = some g) (hsince : g.stateChangedAt ≤ since)
    (hordered : Ordered since ops) :
    ∃ g', (after σ ops).agents.get? a = some g' ∧ g'.stateChangedAt ≤ lastMoment since ops
      ∧ ∀ k t, k.stored g' + k.pending g' t + lostAlong k a σ ops
        = k.stored g + k.pending g since + spent k a σ since ops t := by
  induction ops generalizing σ g since with
  | nil =>
    refine ⟨g, hg, hsince, fun k t => ?_⟩
    rw [pending_add hg since t]
    simp [lostAlong, spent, add_assoc]
  | cons x ops ih =>
    obtain ⟨hle, hrest⟩ := List.isChain_cons_cons.mp hordered
    obtain ⟨g₁, hg₁, hwrite⟩ := exec_agent x.1 x.2 hg
    have hstep := fun k => account_step k hwrite (hsince.trans hle)
    obtain ⟨g', hg', hsince', hrun⟩ := ih hg₁ (hstep .counted).2 hrest
    refine ⟨g', hg', hsince', fun k t => ?_⟩
    -- up to the operation the pending part grows, the operation settles it, the rest follows
    have hlost : lostAt k a σ x = k.lost x.2 g g₁ (moment x.1 x.2) := by
      simp only [lostAt, hg, hg₁]
    have hpending := pending_add (k := k) hg since (moment x.1 x.2)
    have hone := (hstep k).1
    have hmany := hrun k t
    rw [lostAlong, spent, hlost]
    linarith

end Runs

/-! ## The reported totals

A report adds the time in the present state to the stored counters, through a conversion of a time
difference to seconds and back that floats may make inexact. -/

section Totals

variable (F : Type) [FloatOps F]

/-- The totals report every account, where the time in the present state converts exactly. -/
theorem liveTotals_of_exact {g : Agent} {t : Time}
    (hexact : g.state ∈ denominatorStates →
      wholeMillis F (t - g.stateChangedAt) = some (t - g.stateChangedAt)) :
    liveTotals F g t = some (Account.connected.stored g + Account.connected.pending g t,
      Account.connected.stored g + Account.connected.pending g t
        + (Account.wrapUp.stored g + Account.wrapUp.pending g t),
      Account.counted.stored g + Account.counted.pending g t) := by
  unfold liveTotals elapsedInCurrentStateMs
  by_cases hs : g.state ∈ denominatorStates
  · rw [if_neg (not_not.mpr hs), hexact hs]
    simp [Account.stored, Account.pending, Account.covers, hs]
  · rw [if_pos hs]
    have hconnected : g.state ≠ .CONNECTED := fun h => hs (by rw [h]; decide)
    have hwrap : g.state ≠ .WRAP_UP := fun h => hs (by rw [h]; decide)
    simp [Account.stored, Account.pending, Account.covers, hs, hconnected, hwrap]

/-- The counted total, whatever the conversion makes of the time in the present state. -/
theorem counted_of_liveTotals {g : Agent} {t c p n : Int}
    (h : liveTotals F g t = some (c, p, n)) (hs : g.state ∈ denominatorStates) :
    wholeMillis F (t - g.stateChangedAt) = some (n - Account.counted.stored g) := by
  unfold liveTotals elapsedInCurrentStateMs at h
  rw [if_neg (not_not.mpr hs)] at h
  obtain ⟨e, he, htotals⟩ := Option.map_eq_some_iff.mp h
  rw [he]
  simp only [Prod.mk.injEq] at htotals
  simp only [Account.stored, Option.some.injEq]
  omega

variable (a : DocId) (σ : Store) (since : Time)

/-- At instant `t` after the operations, the totals are the times spent. -/
def Conserved (ops : List (Env × Op)) (t : Time) : Prop :=
  ∃ g, (after σ ops).agents.get? a = some g
    ∧ liveTotals F g t = some (spent .connected a σ since ops t,
        spent .connected a σ since ops t + spent .wrapUp a σ since ops t,
        spent .counted a σ since ops t)

/-- `t` lies between the last of the operations done and the first of those to come. -/
def Between (done rest : List (Env × Op)) (t : Time) : Prop :=
  lastMoment since done ≤ t ∧ ∀ x ∈ rest.head?, t ≤ moment x.1 x.2

/-- At every instant of the sequence the totals are the times spent. -/
def TimeConserved (ops : List (Env × Op)) : Prop :=
  ∀ done rest, ops = done ++ rest → ∀ t, Between since done rest t → Conserved F a σ since done t

/-- Every reservation and every lease reclaim that takes effect on a counted agent does so in the
millisecond of its last state change. -/
def Prompt (ops : List (Env × Op)) : Prop :=
  ∀ done x rest, ops = done ++ x :: rest → Uncrediting x.2 →
    ∀ g g', (after σ done).agents.get? a = some g →
      (after σ (done ++ [x])).agents.get? a = some g' → g'.stateVersion ≠ g.stateVersion →
      g.state ∈ denominatorStates → g.stateChangedAt = moment x.1 x.2

/-- The conversion of the time in the present state to whole milliseconds is exact at every
instant. -/
def ExactlyConverted (ops : List (Env × Op)) : Prop :=
  ∀ done rest, ops = done ++ rest → ∀ t, Between since done rest t →
    ∀ g, (after σ done).agents.get? a = some g → g.state ∈ denominatorStates →
      wholeMillis F (t - g.stateChangedAt) = some (t - g.stateChangedAt)

/-- An agent as it is created. -/
structure Created (g : Agent) (since : Time) : Prop where
  busy : g.busyTimeMs = 0
  available : g.availableTimeMs = 0
  connected : g.connectedTimeMs = 0
  wrapUp : g.wrapUpTimeMs = 0
  changed : g.stateChangedAt = since

variable {F a σ since}

theorem Created.stored {g : Agent} (h : Created g since) (k : Account) : k.stored g = 0 := by
  cases k with
  | counted => simp [Account.stored, h.busy, h.available]
  | connected => exact h.connected
  | wrapUp => exact h.wrapUp

/-- The accounts of an agent since its creation. -/
theorem account_since {g : Agent} {ops : List (Env × Op)} (hg : σ.agents.get? a = some g)
    (hcreated : Created g since) (hordered : Ordered since ops) :
    ∃ g', (after σ ops).agents.get? a = some g' ∧ g'.stateChangedAt ≤ lastMoment since ops
      ∧ ∀ k t, k.stored g' + k.pending g' t + lostAlong k a σ ops = spent k a σ since ops t := by
  obtain ⟨g', hg', hsince, hrun⟩ := account_run hg hcreated.changed.le hordered
  refine ⟨g', hg', hsince, fun k t => ?_⟩
  rw [hrun k t, hcreated.stored k, k.pending_self g since hcreated.changed]
  ring

theorem Ordered.of_append {done rest : List (Env × Op)} (h : Ordered since (done ++ rest)) :
    Ordered since done := by
  unfold Ordered at h ⊢
  rw [List.map_append, ← List.cons_append] at h
  exact h.left_of_append

theorem mem_getLast_lastMoment (since : Time) (done : List (Env × Op)) :
    lastMoment since done ∈ (since :: done.map fun x => moment x.1 x.2).getLast? := by
  induction done generalizing since with
  | nil => exact Option.mem_some_self since
  | cons x done ih => exact ih (moment x.1 x.2)

/-- The moment of the last operation is an instant at which nothing more has come. -/
theorem Ordered.between {done rest : List (Env × Op)} (h : Ordered since (done ++ rest)) :
    Between since done rest (lastMoment since done) := by
  refine ⟨le_refl _, fun x hx => ?_⟩
  unfold Ordered at h
  rw [List.map_append, ← List.cons_append] at h
  refine (List.isChain_append.mp h).2.2 _ (mem_getLast_lastMoment since done) _ ?_
  rw [List.head?_map]
  exact Option.mem_map_of_mem _ hx

/-- Prompt operations lose nothing. An operation loses only what is pending, and a prompt one comes
when nothing is. -/
theorem Prompt.lostAlong {ops done rest : List (Env × Op)} (h : Prompt a σ ops)
    (hsplit : ops = done ++ rest) (k : Account) : lostAlong k a σ done = 0 := by
  -- on the operations done, from the back: `Prompt` speaks of the store before the last one
  induction done using List.reverseRecOn generalizing rest with
  | nil => rfl
  | append_singleton done x ih =>
    have hsplit' : ops = done ++ x :: rest := by rw [hsplit, List.append_assoc]; rfl
    rw [lostAlong_append, ih hsplit', zero_add]
    unfold lostAt
    split
    · next g g' hg hg' =>
      refine (ite_eq_right_iff.mpr fun ⟨hop, hversion⟩ => ?_)
      unfold Account.pending
      refine ite_eq_right_iff.mpr fun hcovers => ?_
      -- every account is for some of the counted states
      have hs : g.state ∈ denominatorStates := by
        cases k <;> simp only [Account.covers, decide_eq_true_eq] at hcovers
        · exact hcovers
        · rw [hcovers]
          decide
        · rw [hcovers]
          decide
      have hafter : (after σ (done ++ [x])).agents.get? a = some g' := by
        rw [← hg']
        simp [after]
      rw [h done x rest hsplit' hop g g' hg hafter hversion hs, sub_self]
    · rfl

/-- At the moment of the last operation the counted total lacks what has been lost. -/
theorem Conserved.counted {done : List (Env × Op)} {t : Time} {g : Agent}
    (h : Conserved F a σ since done t) (hg : (after σ done).agents.get? a = some g)
    (hs : g.state ∈ denominatorStates)
    (haccount : Account.counted.stored g + Account.counted.pending g t + lostAlong .counted a σ done
      = spent .counted a σ since done t) :
    wholeMillis F (t - g.stateChangedAt)
      = some (Account.counted.pending g t + lostAlong .counted a σ done) := by
  obtain ⟨g', hg', htotals⟩ := h
  cases hg.symm.trans hg'
  rw [counted_of_liveTotals F htotals hs]
  exact congrArg some (by linarith)

/-- Where time is conserved throughout, nothing has been lost, and no time converts to no time. By
induction on the operations done. Right after one that loses something, the new state has lasted no
time, so the report would have to lack what was lost. -/
theorem TimeConserved.nothing_lost {g₀ : Agent} {ops done rest : List (Env × Op)}
    (h : TimeConserved F a σ since ops) (hg₀ : σ.agents.get? a = some g₀)
    (hcreated : Created g₀ since) (hordered : Ordered since ops) (hsplit : ops = done ++ rest) :
    lostAlong .counted a σ done = 0
      ∧ ∀ g, (after σ done).agents.get? a = some g → g.state ∈ denominatorStates →
        wholeMillis F 0 = some 0 := by
  induction done using List.reverseRecOn generalizing rest with
  | nil =>
    refine ⟨rfl, fun g hg hs => ?_⟩
    cases hg₀.symm.trans hg
    have hnow := h [] rest hsplit since (hsplit ▸ hordered).between
    have hcounted := hnow.counted hg hs (by
      have hnone : Ordered since [] := List.isChain_singleton since
      obtain ⟨g', hg', -, haccount⟩ := account_since hg₀ hcreated hnone
      cases hg.symm.trans hg'
      exact haccount .counted since)
    rwa [hcreated.changed, sub_self, Account.pending_self _ _ _ hcreated.changed] at hcounted
  -- what an uncrediting operation loses shows at once, as no time in the new state hides it
  | append_singleton done x ih =>
    have hsplit' : ops = done ++ x :: rest := by rw [hsplit, List.append_assoc]; rfl
    obtain ⟨hlost, hzero⟩ := ih hsplit'
    obtain ⟨g, hg, -, -⟩ := account_since hg₀ hcreated (Ordered.of_append (hsplit' ▸ hordered))
    obtain ⟨g', hg', -, haccount⟩ := account_since hg₀ hcreated
      (Ordered.of_append (hsplit ▸ hordered))
    have hafter : after σ (done ++ [x]) = (exec x.1 x.2 (after σ done)).2 := by simp [after]
    obtain ⟨g'', hg'', hwrite⟩ := exec_agent x.1 x.2 hg
    rw [hafter] at hg'
    cases hg''.symm.trans hg'
    have hlost' : lostAlong .counted a σ (done ++ [x])
        = Account.counted.lost x.2 g g' (moment x.1 x.2) := by
      rw [lostAlong_append, hlost, zero_add]
      simp only [lostAt, hg, hg']
    rcases agentWrite_changed hwrite with ⟨hversion, hstamp, hstate⟩ | ⟨hversion, hstate, -⟩
    · have hlast : lastMoment since (done ++ [x]) = moment x.1 x.2 := by simp [lastMoment]
      have hbetween := (hsplit ▸ hordered : Ordered since ((done ++ [x]) ++ rest)).between
      -- right after the operation the present state has lasted no time
      have hcounted : g'.state ∈ denominatorStates →
          wholeMillis F 0 = some (lostAlong .counted a σ (done ++ [x])) := by
        intro hs'
        have := (h (done ++ [x]) rest hsplit _ hbetween).counted (hafter ▸ hg') hs'
          (haccount .counted _)
        rwa [hlast, hstamp, sub_self, Account.pending_self _ _ _ hstamp, zero_add] at this
      have hnothing : lostAlong .counted a σ (done ++ [x]) = 0 := by
        by_cases hop : Uncrediting x.2
        · by_cases hs : g.state ∈ denominatorStates
          · exact (Option.some.inj ((hzero g hg hs).symm.trans (hcounted (hstate hop)))).symm
          · rw [hlost']
            simp [Account.lost, Account.pending, Account.covers, hs]
        · rw [hlost']
          exact if_neg fun h => hop h.1
      refine ⟨hnothing, fun g₁ hg₁ hs₁ => ?_⟩
      rw [hafter] at hg₁
      cases hg'.symm.trans hg₁
      rw [hcounted hs₁, hnothing]
    · refine ⟨by rw [hlost']; exact if_neg fun h => h.2 hversion, fun g₁ hg₁ hs₁ => ?_⟩
      rw [hafter] at hg₁
      cases hg'.symm.trans hg₁
      exact hzero g hg (hstate ▸ hs₁)

/-- **Where an agent's time goes.** From its creation on and at every instant, the connected, the
productive and the counted total of an agent are the times it has spent in those states exactly
when every reservation and every lease reclaim comes in the millisecond of the agent's last state
change, and the time in the present state converts exactly to whole milliseconds. -/
theorem timeConserved_iff {g₀ : Agent} {ops : List (Env × Op)} (hg₀ : σ.agents.get? a = some g₀)
    (hcreated : Created g₀ since) (hordered : Ordered since ops) :
    TimeConserved F a σ since ops ↔ Prompt a σ ops ∧ ExactlyConverted F a σ since ops := by
  constructor
  · intro h
    have hnothing := fun {done rest : List (Env × Op)} (hsplit : ops = done ++ rest) =>
      (h.nothing_lost hg₀ hcreated hordered hsplit).1
    refine ⟨fun done x rest hsplit hop g g' hg hg' hversion hs => ?_,
      fun done rest hsplit t hbetween g hg hs => ?_⟩
    · have hsplit' : ops = (done ++ [x]) ++ rest := by rw [hsplit, List.append_assoc]; rfl
      have hlost := hnothing hsplit'
      have hafter : after σ (done ++ [x]) = (exec x.1 x.2 (after σ done)).2 := by simp [after]
      rw [hafter] at hg'
      rw [lostAlong_append, hnothing hsplit, zero_add] at hlost
      simp only [lostAt, hg, hg', Account.lost, hop, hversion, ne_eq, not_false_eq_true, and_self,
        if_true, Account.pending, Account.covers, hs, decide_true] at hlost
      linarith
    -- nothing has been lost, so what is missing was lost in the conversion
    · obtain ⟨g', hg', -, haccount⟩ := account_since hg₀ hcreated
        (Ordered.of_append (hsplit ▸ hordered))
      cases hg.symm.trans hg'
      rw [(h done rest hsplit t hbetween).counted hg hs (haccount .counted t), hnothing hsplit]
      simp [Account.pending, Account.covers, hs]
  -- with nothing lost the accounts are the times spent, and the report reads them exactly
  · rintro ⟨hprompt, hexact⟩ done rest hsplit t hbetween
    obtain ⟨g, hg, -, haccount⟩ := account_since hg₀ hcreated
      (Ordered.of_append (hsplit ▸ hordered))
    refine ⟨g, hg, ?_⟩
    rw [liveTotals_of_exact F fun hs => hexact done rest hsplit t hbetween g hg hs]
    have htotal := fun k => haccount k t
    simp only [hprompt.lostAlong hsplit, add_zero] at htotal
    rw [htotal .connected, htotal .wrapUp, htotal .counted]

/-- With exact arithmetic every conversion is exact. -/
theorem exactlyConverted_rat {g₀ : Agent} {ops : List (Env × Op)} (hg₀ : σ.agents.get? a = some g₀)
    (hcreated : Created g₀ since) (hordered : Ordered since ops) :
    ExactlyConverted ℚ a σ since ops := by
  intro done rest hsplit t hbetween g hg _
  obtain ⟨g', hg', hsince, -⟩ := account_since hg₀ hcreated (Ordered.of_append (hsplit ▸ hordered))
  cases hg.symm.trans hg'
  exact wholeMillis_rat (sub_nonneg.mpr (hsince.trans hbetween.1))

end Totals

/-! The theorem at two short histories: an agent that is reserved five seconds after it has become
available has spent five seconds that no counter knows of; one that is reserved at once has not. -/

def timedAgent : Agent where
  id := .ofString "a"
  campaignId := .ofString "k"
  state := .OFFLINE

def timedStore : Store where
  agents := ⟨[timedAgent], by decide⟩
  borrowers := ∅
  calls := .empty
  events := ∅

/-- The agent logs in at 1 s and is reserved at `t`. -/
def loginThenReserved (t : Time) : List (Env × Op) :=
  [({ now := 1000 }, .transitionAgent timedAgent.id .OFFLINE .AVAILABLE .AGENT 0),
    ({ now := t }, .tryReserveAgent timedAgent.campaignId timedAgent.id "w" 30)]

theorem created_timedAgent : Created timedAgent 0 := ⟨rfl, rfl, rfl, rfl, rfl⟩

theorem time_not_conserved :
    spent .counted timedAgent.id timedStore 0 (loginThenReserved 6000) 6000 = 5000
    ∧ (((after timedStore (loginThenReserved 6000)).agents.get? timedAgent.id).bind fun g =>
        liveTotals ℚ g 6000) = some (0, 0, 0)
    ∧ ¬ TimeConserved ℚ timedAgent.id timedStore 0 (loginThenReserved 6000) := by
  have hspent : spent .counted timedAgent.id timedStore 0 (loginThenReserved 6000) 6000 = 5000 := by
    decide +kernel
  have htotals : (((after timedStore (loginThenReserved 6000)).agents.get? timedAgent.id).bind
      fun g => liveTotals ℚ g 6000) = some (0, 0, 0) := by
    decide +kernel
  refine ⟨hspent, htotals, fun h => ?_⟩
  obtain ⟨g, hg, hlive⟩ := h (loginThenReserved 6000) [] rfl 6000 ⟨le_refl _, by simp⟩
  rw [hg, Option.bind_some, hlive, hspent] at htotals
  simp at htotals

theorem timeConserved_iff_at_once :
    TimeConserved ℚ timedAgent.id timedStore 0 (loginThenReserved 1000) := by
  have hstored : timedStore.agents.get? timedAgent.id = some timedAgent := by decide
  have hordered : Ordered 0 (loginThenReserved 1000) := by
    simp [Ordered, loginThenReserved, moment]
  refine (timeConserved_iff hstored created_timedAgent hordered).mpr
    ⟨?_, exactlyConverted_rat hstored created_timedAgent hordered⟩
  rintro done x rest hsplit hop g g' hg - - -
  -- the reservation is the second operation, and the login before it has stamped the agent
  rcases done with _ | ⟨y, _ | ⟨z, done⟩⟩
  · cases hsplit
    exact hop.elim
  · cases hsplit
    have hstamp : ((after timedStore [({ now := 1000 },
        .transitionAgent timedAgent.id .OFFLINE .AVAILABLE .AGENT 0)]).agents.get?
          timedAgent.id).map Agent.stateChangedAt = some 1000 := by decide
    rw [hg] at hstamp
    exact Option.some.inj hstamp
  · exact absurd (congrArg List.length hsplit) (by simp [loginThenReserved])

end Utilization

end SmartDialer
