import SmartDialer.Recovery.Pace
import SmartDialer.System.Effects

/-!
# Recovery and a dial under way

`check_recovery_timeout_invariant` is there so that recovery does not take calls away from a dial
that is still setting them up. It compares the stale timeout with the sum of the other two and
leaves open how these compare with each other. What protects a dial is that the lease of its agent
and its borrower outlasts the wait for the provider.

This module has the facts, about one dial and about one pass; `Protection` puts them together.

* `Secured`, `Safe.next`: the leases of a dial and the age of its call, from one step to the next.
* `Fair.next`, `Pass.PassesBy.next`: what a pass reads, and that a dial's call is not among it.
* `deadline`: where the settings come in.
-/

namespace SmartDialer

open DocStore Concurrent Machine

/-- `check_recovery_timeout_invariant`; `none` is the `ValueError`. -/
def Settings.checkRecoveryTimeoutInvariant (self : Settings) : Option Settings :=
  let minimum : ℚ := self.PROVIDER_TIMEOUT_SECONDS + self.RESERVATION_TTL_SECONDS
  if self.CALL_STALE_TIMEOUT_SECONDS ≤ minimum then none else some self

theorem Settings.accepted_iff {s : Settings} : s.checkRecoveryTimeoutInvariant = some s
    ↔ s.PROVIDER_TIMEOUT_SECONDS + s.RESERVATION_TTL_SECONDS < s.CALL_STALE_TIMEOUT_SECONDS := by
  unfold checkRecoveryTimeoutInvariant
  rw [← not_le]
  dsimp only
  split
  · next hle => exact ⟨nofun, fun h => absurd hle h⟩
  · next hlt => exact ⟨fun _ => hlt, fun _ => rfl⟩

/-- The leases outlast the wait for the provider, and no call is stale at once. -/
structure Settings.CoversSetup (s : Settings) : Prop where
  wait : s.PROVIDER_TIMEOUT_SECONDS ≤ s.RESERVATION_TTL_SECONDS
  ttl : 0 ≤ s.RESERVATION_TTL_SECONDS
  stale : 0 ≤ s.CALL_STALE_TIMEOUT_SECONDS

/-! ## A dial under way

A dial counts as under way from the reservation of its agent to the release of its borrower or to
the attached call. -/

/-- The agent a dial has reserved, and its borrower once there is one. -/
def Stage.reserved : Stage → Option (Agent × Option Borrower)
  | .agentClaimed _ _ agent => some (agent, none)
  | .pairClaimed _ pair | .callQueued _ pair _ | .callInitiated _ pair _ | .callOriginated _ pair _
  | .agentReturned _ pair => some (pair.agent, some pair.borrower)
  | _ => none

theorem Stage.reserved_of_dialing {s : Stage} {pair : ReservationPair} (h : s.dialing = some pair) :
    s.reserved = some (pair.agent, some pair.borrower) := by
  cases s with
  | pairClaimed | callQueued | callInitiated | callOriginated | agentReturned => cases h; rfl
  | _ => cases h

/-- The call that the current dial has inserted. -/
def Pace.made : Pace → Option DocId
  | .allocating made _ => made
  | _ => none

/-- The provider's id was refused, and the dial has to hang up. -/
def Pace.hungUp : Pace → Bool
  | .allocating _ hungUp => hungUp
  | _ => false

/-! ## What a run is assumed to meet

Time passes between the operations of a dial, and nothing in the source bounds how much. `Timely`
allows it the time that it waits for the provider. `Untangled` is about a refused provider id, after
which one more question to the provider is open, and about workers that reserve again what recovery
is about to release in their name. -/

/-- How long a set-up may last, in milliseconds: the wait for the provider. A negative timeout is over
at once. -/
def setupLimit (s : Settings) : ℚ := max 0 s.PROVIDER_TIMEOUT_SECONDS * 1000

/-- Only the wait for the provider takes time between the reservation of an agent and the end of
the dial, and no agent misses his heartbeats. -/
structure Timely (settings : Settings) (σ : Store) (live : Nat → Stage × Pace) (o : Op) (env : Env) :
    Prop where
  setup : ∀ q x t, (live q).1.reserved = some x → x.1.reservedAt = some t →
    (live q).2.hungUp = false → (env.now : ℚ) ≤ t + setupLimit settings
  beating : ∀ olderThan limit, o = .findHeartbeatExpired olderThan limit →
    AgentRepo.findHeartbeatExpired olderThan limit σ.agents = []

/-- A hang-up is answered before the lease runs out and the call is stale, and what recovery gives
back for a call it has ended, the creator of that call has not reserved again for a dial under way. -/
structure Untangled (settings : Settings) (live : Nat → Stage × Pace) (p : Nat) (o : Op) (env : Env) :
    Prop where
  hangUp : ∀ q x t, (live q).1.reserved = some x → x.1.reservedAt = some t →
    (live q).2.hungUp = true → env.now ≤ t + seconds settings.RESERVATION_TTL_SECONDS
      ∧ env.now ≤ t + seconds settings.CALL_STALE_TIMEOUT_SECONDS
  agent : ∀ stale, (live p).1 = .sweeping stale → ∀ a w t actor, o = .releaseAgent a w t actor →
    ∀ q pair, (live q).1.dialing = some pair → pair.agent.id = a → pair.workerId ≠ w
  borrower : ∀ stale, (live p).1 = .sweeping stale → ∀ b w outcome m backoff,
    o = .releaseBorrower b w outcome m backoff →
    ∀ q pair, (live q).1.dialing = some pair → pair.borrower.id = b → pair.workerId ≠ w

/-- A regime may look at the pace of a thread beside its stage. -/
abbrev PacedRegime := Regime Job Op Store Env (Stage × Pace)

abbrev PacedWorld := World Job Op Res Exn Store Env Outcome (Stage × Pace)

/-- Dials are in time and agents are heard. -/
def timely (settings : Settings) : PacedRegime where
  admits := fun _ => True
  guard := fun σ live _ o env => Timely settings σ live o env

/-- The regime of the theorem. -/
def untangled (settings : Settings) : PacedRegime where
  admits := fun _ => True
  guard := fun σ live p o env => Timely settings σ live o env ∧ Untangled settings live p o env

/-- The clock that everybody shares does not go back. -/
def Forward (tr : Trace) : Prop := tr.Pairwise fun e e' => e.env.now ≤ e'.env.now

theorem Forward.append {tr : Trace} {e : Entry Op Res Exn Env} (h : Forward (tr ++ [e])) :
    Forward tr ∧ ∀ e' ∈ tr, e'.env.now ≤ e.env.now := by
  obtain ⟨htr, -, hlast⟩ := List.pairwise_append.mp h
  exact ⟨htr, fun e' he' => hlast e' he' e (List.mem_singleton_self e)⟩

/-- **The settings keep every dial inside its lease and its call fresh.** While a thread has parties
in hand the guard bounds the clock by its set-up time, which the lease covers; and the stale timeout
exceeds the lease, by the validator. -/
theorem deadline {settings : Settings}
    (haccepted : settings.checkRecoveryTimeoutInvariant = some settings)
    (hcovers : settings.CoversSetup) {σ : Store} {live : Nat → Stage × Pace} {p : Nat} {o : Op}
    {env : Env} (hguard : (untangled settings).guard σ live p o env) {q : Nat}
    {x : Agent × Option Borrower} {t : Time} (hx : (live q).1.reserved = some x)
    (ht : x.1.reservedAt = some t) :
    env.now ≤ t + seconds settings.RESERVATION_TTL_SECONDS
      ∧ env.now ≤ t + seconds settings.CALL_STALE_TIMEOUT_SECONDS := by
  -- an open hang-up has its own clause
  cases hhung : (live q).2.hungUp with
  | true => exact hguard.2.hangUp q x t hx ht hhung
  | false =>
    have hnow := hguard.1.setup q x t hx ht hhung
    have hstale := Settings.accepted_iff.mp haccepted
    have hwait := hcovers.wait
    have httl : (0 : ℚ) ≤ settings.RESERVATION_TTL_SECONDS := by exact_mod_cast hcovers.ttl
    have hzero : (0 : ℚ) ≤ settings.CALL_STALE_TIMEOUT_SECONDS := by exact_mod_cast hcovers.stale
    have hleTtl : max 0 settings.PROVIDER_TIMEOUT_SECONDS ≤ settings.RESERVATION_TTL_SECONDS :=
      max_le httl hwait
    have hleStale : max 0 settings.PROVIDER_TIMEOUT_SECONDS ≤ settings.CALL_STALE_TIMEOUT_SECONDS :=
      max_le hzero (by linarith)
    unfold setupLimit at hnow
    unfold seconds
    constructor
    · have hlimit : (env.now : ℚ) ≤ t + settings.RESERVATION_TTL_SECONDS * 1000 := by linarith
      exact_mod_cast hlimit
    · have hlimit : (env.now : ℚ) ≤ t + settings.CALL_STALE_TIMEOUT_SECONDS * 1000 := by linarith
      exact_mod_cast hlimit

/-! ## Leases

A lease is known by the time since when it runs. Reservations start one, nothing shortens one, and
releases clear it, after which there is none that could run out. -/

/-- No lease that was set at `t` or later ends before this. -/
def LeasedFrom (settings : Settings) (t : Time) (l : LeaseFields) : Prop :=
  ∀ e ∈ l.leaseExpiresAt, t + seconds settings.RESERVATION_TTL_SECONDS ≤ e

section Leases

variable {settings : Settings} {t now : Time} {o : Op}

theorem leasedFrom_cleared : LeasedFrom settings t clearedLeaseFields := fun _ he => by cases he

theorem leasedFrom_build {ttl : Int} (hnow : t ≤ now) (httl : ttl = settings.RESERVATION_TTL_SECONDS)
    (workerId : WorkerId) : LeasedFrom settings t (buildLeaseFields workerId ttl now) := by
  rintro e he
  obtain rfl : now + seconds ttl = e := Option.some.inj he
  rw [httl]
  exact Int.add_le_add_right hnow _

/-- Reservations are made for the time the settings say. -/
theorem Pace.Emits.ttl_eq {s : Pace} (h : Pace.Emits settings s o) :
    ∀ ttl ∈ Pace.claimsFor o, ttl = settings.RESERVATION_TTL_SECONDS := by
  cases s with
  | other =>
    intro ttl httl
    have hnone : Pace.claimsFor o = none := h
    rw [hnone] at httl
    cases httl
  | allocating => exact h
  | sweeping pass =>
    cases o with
    | tryReserveAgent | tryReserveBorrower => exact h.elim
    | _ => exact fun _ httl => by cases httl

/-- Whatever is written at `t` or later sets no lease that ends earlier. -/
theorem AgentWrite.leasedFrom {g g' : Agent} (h : AgentWrite now o g g') (hnow : t ≤ now)
    (httl : ∀ ttl ∈ Pace.claimsFor o, ttl = settings.RESERVATION_TTL_SECONDS)
    (hleased : LeasedFrom settings t g.toLeaseFields) : LeasedFrom settings t g'.toLeaseFields := by
  cases h with
  | unchanged | transition | bind | beat => exact hleased
  | reserve workerId ttl => exact leasedFrom_build hnow (httl ttl rfl) workerId
  | release | reclaim => exact leasedFrom_cleared

theorem BorrowerWrite.leasedFrom {g g' : Borrower} (h : BorrowerWrite now o g g') (hnow : t ≤ now)
    (httl : ∀ ttl ∈ Pace.claimsFor o, ttl = settings.RESERVATION_TTL_SECONDS)
    (hleased : LeasedFrom settings t g.toLeaseFields) : LeasedFrom settings t g'.toLeaseFields := by
  cases h with
  | unchanged => exact hleased
  | reserve workerId ttl => exact leasedFrom_build hnow (httl ttl rfl) workerId
  | release outcome => cases outcome <;> exact leasedFrom_cleared
  | reclaim => exact leasedFrom_cleared

end Leases

/-! ## What a dial has in hand

By the operation. Only three bring a dial something new, and each of them has its own lemma; in all
other cases what was secured stays so. -/

/-- What a dial has in hand since `t`: neither lease ends early, and the call is no older. -/
structure Secured (settings : Settings) (σ : Store) (made : Option DocId)
    (x : Agent × Option Borrower) (t : Time) : Prop where
  agent : ∀ g, σ.agents.get? x.1.id = some g → LeasedFrom settings t g.toLeaseFields
  borrower : ∀ b ∈ x.2, ∀ g, σ.borrowers.get? b.id = some g → LeasedFrom settings t g.toLeaseFields
  call : ∀ c ∈ made, ∃ d, σ.calls.get? c = some d ∧ t ≤ d.updatedAt ∧ d.agentId = x.1.id

/-- Whatever a dial has in hand is secured since its agent was reserved. -/
def Safe (settings : Settings) (σ : Store) (tr : Trace) (s : Stage × Pace) : Prop :=
  ∀ x, s.1.reserved = some x → ∃ t, x.1.reservedAt = some t ∧ (∃ e ∈ tr, e.env.now = t)
    ∧ Secured settings σ s.2.made x t

theorem reserved_of_not_allocates {s : Stage} (hs : s.allocates = false) : s.reserved = none := by
  cases s with
  | allocating | agentClaimed | pairClaimed | callQueued | callInitiated | callOriginated
  | agentReturned | compensating => cases hs
  | _ => rfl

theorem reserved_struck (pair : ReservationPair) (e : Exn) : (pair.struck e).reserved = none := by
  cases e <;> rfl

section Step

variable {settings : Settings} {σ : Store} {tr : Trace} {o : Op} {env : Env}

/-- A call is written to at the clock of the step. -/
theorem updatedAt_after_exec {t : Time} {c : DocId} {d : Call} (hnow : t ≤ env.now)
    (hd : σ.calls.get? c = some d) (ht : t ≤ d.updatedAt) :
    ∃ d', (exec env o σ).2.calls.get? c = some d' ∧ t ≤ d'.updatedAt ∧ d'.agentId = d.agentId := by
  rcases exec_store env o σ with hstore | hstore
  · rw [hstore]
    exact ⟨d, hd, ht, rfl⟩
  · obtain ⟨d', hd', hcases⟩ := apply_call_cases env o hd
    rw [hstore]
    refine ⟨d', hd', ?_⟩
    rcases hcases with rfl | ⟨target, reason, -, hfilter, rfl⟩ | ⟨id, -, -, rfl⟩
    · exact ⟨ht, rfl⟩
    · exact ⟨hnow, (CallRepo.transitionUpdate_evolves hfilter).agentId⟩
    · exact ⟨hnow, rfl⟩

/-- What is secured stays so, whoever does what. -/
theorem Secured.after_exec {made : Option DocId} {x : Agent × Option Borrower} {t : Time}
    (h : Secured settings σ made x t) (hnow : t ≤ env.now)
    (httl : ∀ ttl ∈ Pace.claimsFor o, ttl = settings.RESERVATION_TTL_SECONDS) :
    Secured settings (exec env o σ).2 made x t where
  agent := fun g' hg' => by
    obtain ⟨g, hg, hwrite⟩ := exec_agent_before hg'
    exact hwrite.leasedFrom hnow httl (h.agent g hg)
  borrower := fun b hb g' hg' => by
    obtain ⟨g, hg, hwrite⟩ := exec_borrower_before hg'
    exact hwrite.leasedFrom hnow httl (h.borrower b hb g hg)
  call := fun c hc => by
    obtain ⟨d, hd, ht, hagent⟩ := h.call c hc
    obtain ⟨d', hd', ht', hagent'⟩ := updatedAt_after_exec hnow hd ht
    exact ⟨d', hd', ht', hagent'.trans hagent⟩

theorem Safe.after_exec {s : Stage × Pace} (h : Safe settings σ tr s)
    (hforward : ∀ e ∈ tr, e.env.now ≤ env.now)
    (httl : ∀ ttl ∈ Pace.claimsFor o, ttl = settings.RESERVATION_TTL_SECONDS)
    (e : Entry Op Res Exn Env) : Safe settings (exec env o σ).2 (tr ++ [e]) s := by
  intro x hx
  obtain ⟨t, ht, ⟨e', he', hnow⟩, hsecured⟩ := h x hx
  exact ⟨t, ht, ⟨e', List.mem_append_left _ he', hnow⟩, hsecured.after_exec (hnow ▸ hforward e' he') httl⟩

theorem Safe.of_none {s : Stage × Pace} (h : s.1.reserved = none) : Safe settings σ tr s := by
  intro x hx
  rw [h] at hx
  cases hx

/-- A dial that has in hand what it had. -/
theorem Safe.of_eq {s s' : Stage × Pace} (h : Safe settings σ tr s)
    (hreserved : s'.1.reserved = s.1.reserved) (hmade : s'.2.made = s.2.made) :
    Safe settings σ tr s' := by
  intro x hx
  rw [hmade]
  exact h x (hreserved ▸ hx)

/-- Only an insertion and a new reservation change which call the dial has made. -/
theorem Pace.made_next (s : Pace) {o : Op} (r : Except Exn (Res o))
    (hinsert : ∀ draft, o ≠ .insertCall draft) (hreserve : ∀ c a w ttl, o ≠ .tryReserveAgent c a w ttl) :
    (s.next o r).made = s.made := by
  cases s with
  | other => rfl
  | sweeping pass =>
    show (nextSweeping pass o r).made = none
    unfold nextSweeping
    split <;> rfl
  | allocating made hungUp =>
    show (nextAllocating made hungUp o r).made = made
    unfold nextAllocating
    split
    · exact absurd rfl (hreserve _ _ _ _)
    · exact absurd rfl (hinsert _)
    · rfl
    · rfl

theorem Pace.made_reserve (s : Pace) {c a : DocId} {w : WorkerId} {ttl : Int}
    (r : Except Exn (Res (.tryReserveAgent c a w ttl))) : (s.next _ r).made = none := by
  cases s with
  | other | allocating => rfl
  | sweeping => cases r <;> rfl

/-- What an insertion has made is the call that it answers. -/
theorem Pace.made_insert (s : Pace) {draft : CallRepo.CallDraft} {created : Call} {c : DocId}
    (h : c ∈ (s.next (.insertCall draft) (.ok created)).made) : c = created.id := by
  cases s with
  | other | sweeping => cases h
  | allocating => exact (Option.some.inj h).symm

theorem reserveAgent_lease {campaignId a : DocId} {w : WorkerId} {ttl : Int} {agent : Agent}
    (hr : (exec env (.tryReserveAgent campaignId a w ttl) σ).1 = .ok (some agent)) :
    agent.toLeaseFields = buildLeaseFields w ttl env.now := by
  rw [exec_of_ok hr] at hr
  rcases Collection.findOneAndUpdate_cases σ.agents a
      (fun d => d.campaignId = campaignId ∧ d.state = .AVAILABLE)
      (AgentRepo.reserveUpdate env.now w ttl) (fun _ => rfl)
    with ⟨g, -, -, hans, -⟩ | ⟨-, hnone, -⟩
  · cases (Except.ok.inj hr).symm.trans hans
    rfl
  · cases (Except.ok.inj hr).symm.trans hnone

theorem reserveBorrower_lease {campaignId b : DocId} {w : WorkerId} {ttl : Int} {borrower : Borrower}
    (hr : (exec env (.tryReserveBorrower campaignId b w ttl) σ).1 = .ok (some borrower)) :
    borrower.toLeaseFields = buildLeaseFields w ttl env.now := by
  rw [exec_of_ok hr] at hr
  rcases Collection.findOneAndUpdate_cases σ.borrowers b
      (fun d => d.campaignId = campaignId ∧ d.status = .PENDING ∧ d.nextEligibleAt ≤ env.now)
      (BorrowerRepo.reserveUpdate env.now w ttl) (fun _ => rfl)
    with ⟨g, -, -, hans, -⟩ | ⟨-, hnone, -⟩
  · cases (Except.ok.inj hr).symm.trans hans
    rfl
  · cases (Except.ok.inj hr).symm.trans hnone

theorem reserved_taken (campaign : Campaign) (pair : ReservationPair) (created : Call) :
    (Stage.nextPairClaimed.taken campaign pair created).reserved
      = some (pair.agent, some pair.borrower) := by
  unfold Stage.nextPairClaimed.taken
  split <;> rfl

/-- **Only a reservation and an insertion bring a dial something new**: after every other step it has
in hand what it had, or nothing. -/
theorem reserved_next_of_ne {s : Stage} (hemits : Emits s o)
    (hagent : ∀ c a w ttl, o ≠ .tryReserveAgent c a w ttl)
    (hborrower : ∀ c b w ttl, o ≠ .tryReserveBorrower c b w ttl)
    (hinsert : ∀ draft, o ≠ .insertCall draft) (r : Except Exn (Res o)) :
    (s.next o r).reserved = none ∨ (s.next o r).reserved = s.reserved := by
  -- by the stage; each has its own step function
  cases s with
  | allocating =>
    cases hemits with
    | claimableAgents => exact Or.inl rfl
    | reserveAgent a ttl => exact absurd rfl (hagent _ _ _ _)
  | agentClaimed =>
    cases hemits with
    | claimableBorrowers => exact Or.inr rfl
    | returnLoneAgent => exact Or.inl rfl
    | reserveBorrower b ttl => exact absurd rfl (hborrower _ _ _ _)
  | pairClaimed campaign pair =>
    cases hemits with
    | createCall => exact absurd rfl (hinsert _)
    | retryClock | retryGate | returnAgent =>
      cases r with
      | error e => exact Or.inl (reserved_struck pair e)
      | ok => exact Or.inr rfl
    | findExisting =>
      rcases r with e | (_ | existing)
      · exact Or.inl (reserved_struck pair e)
      · exact Or.inr rfl
      · exact Or.inr (reserved_taken campaign pair existing)
  | callQueued campaign pair c =>
    show (Stage.nextCallQueued campaign pair c o r).reserved = none
      ∨ (Stage.nextCallQueued campaign pair c o r).reserved = some (pair.agent, some pair.borrower)
    unfold Stage.nextCallQueued
    split
    -- a refused transition takes the call from the dial, never the pair
    · exact Or.inr rfl
    · exact Or.inr rfl
    · exact Or.inr rfl
    · exact Or.inl (reserved_struck pair _)
  | callInitiated campaign pair c =>
    show (Stage.nextCallInitiated campaign pair c o r).reserved = none
      ∨ (Stage.nextCallInitiated campaign pair c o r).reserved = some (pair.agent, some pair.borrower)
    unfold Stage.nextCallInitiated
    split
    · exact Or.inr rfl
    · exact Or.inr rfl
    · exact Or.inl (reserved_struck pair _)
  | callOriginated campaign pair c =>
    show (Stage.nextCallOriginated campaign pair c o r).reserved = none
      ∨ (Stage.nextCallOriginated campaign pair c o r).reserved = some (pair.agent, some pair.borrower)
    unfold Stage.nextCallOriginated
    split
    · exact Or.inl rfl
    · exact Or.inr rfl
    · exact Or.inl rfl
    · exact Or.inr rfl
    · exact Or.inl rfl
    · exact Or.inr rfl
    · exact Or.inr rfl
    · exact Or.inl (reserved_struck pair _)
  | agentReturned campaign pair =>
    cases r with
    | ok => exact Or.inl rfl
    | error e => exact Or.inl (reserved_struck pair e)
  | compensating => exact Or.inl rfl
  | idle | eventReceived | eventRecorded | eventMatched | eventApplied | eventAgentReturned
  | eventClosing | eventDuplicate | eventFailed | sweeping | acting | wrapping =>
    exact Or.inl (reserved_of_not_allocates (Stage.allocates_next rfl o r))

theorem Safe.next_of_same {p : Nat} {s : Stage × Pace} (h : Safe settings σ tr s)
    (hpace : Pace.Emits settings s.2 o) (hforward : ∀ e ∈ tr, e.env.now ≤ env.now)
    (hinsert : ∀ draft, o ≠ .insertCall draft) (hreserve : ∀ c a w ttl, o ≠ .tryReserveAgent c a w ttl)
    {r : Except Exn (Res o)}
    (hsame : (s.1.next o r).reserved = none ∨ (s.1.next o r).reserved = s.1.reserved) :
    Safe settings (exec env o σ).2 (tr ++ [⟨p, o, env, (exec env o σ).1⟩])
      (s.1.next o r, s.2.next o r) := by
  rcases hsame with hnone | hsame
  · exact .of_none hnone
  · exact (h.after_exec hforward hpace.ttl_eq _).of_eq hsame (s.2.made_next r hinsert hreserve)

/-- The agent that `try_reserve` brings: his lease starts now, and no call has been made for him. If
nobody was won the dial has nothing in hand, and nothing is asked of it. -/
theorem Safe.next_reserveAgent {p : Nat} {campaign : Campaign} {workerId : WorkerId} {pace : Pace}
    {a : DocId} {ttl : Int}
    (hpace : Pace.Emits settings pace (.tryReserveAgent campaign.id a workerId ttl)) :
    Safe settings (exec env (.tryReserveAgent campaign.id a workerId ttl) σ).2
      (tr ++ [⟨p, .tryReserveAgent campaign.id a workerId ttl, env, (exec env _ σ).1⟩])
      ((Stage.allocating campaign workerId).next _
          (exec env (.tryReserveAgent campaign.id a workerId ttl) σ).1,
        pace.next _ (exec env (.tryReserveAgent campaign.id a workerId ttl) σ).1) := by
  rcases hr : (exec env (.tryReserveAgent campaign.id a workerId ttl) σ).1 with e | (_ | agent)
  · exact .of_none rfl
  · exact .of_none rfl
  · have hlease := reserveAgent_lease hr
    obtain ⟨hid, -, -, hget, -⟩ := reserveAgent_ok hr
    intro x hx
    obtain rfl : (agent, none) = x := Option.some.inj hx
    have hat : agent.reservedAt = some env.now := by rw [hlease]; rfl
    refine ⟨env.now, hat, ⟨_, List.mem_append_right _ (List.mem_singleton_self _), rfl⟩,
      fun g hg => ?_, fun b hb => (by cases hb), fun c hc => ?_⟩
    · obtain rfl : agent = g := by
        rw [hid] at hg
        exact Option.some.inj (hget.symm.trans hg)
      rw [hlease]
      exact leasedFrom_build (Int.le_refl _) (hpace.ttl_eq ttl rfl) workerId
    · have hc : c ∈ (pace.next (.tryReserveAgent campaign.id a workerId ttl)
        (.ok (some agent))).made := hc
      rw [Pace.made_reserve] at hc
      cases hc

/-- The borrower that `try_reserve` brings: his lease starts now, the agent's has started before. -/
theorem Safe.next_reserveBorrower {p : Nat} {campaign : Campaign} {workerId : WorkerId} {agent : Agent}
    {pace : Pace} {b : DocId} {ttl : Int}
    (h : Safe settings σ tr (.agentClaimed campaign workerId agent, pace))
    (hpace : Pace.Emits settings pace (.tryReserveBorrower campaign.id b workerId ttl))
    (hforward : ∀ e ∈ tr, e.env.now ≤ env.now) :
    Safe settings (exec env (.tryReserveBorrower campaign.id b workerId ttl) σ).2
      (tr ++ [⟨p, .tryReserveBorrower campaign.id b workerId ttl, env, (exec env _ σ).1⟩])
      ((Stage.agentClaimed campaign workerId agent).next _
          (exec env (.tryReserveBorrower campaign.id b workerId ttl) σ).1,
        pace.next _ (exec env (.tryReserveBorrower campaign.id b workerId ttl) σ).1) := by
  have hmade : ∀ r, (pace.next (.tryReserveBorrower campaign.id b workerId ttl) r).made = pace.made :=
    fun r => pace.made_next r nofun nofun
  have hkept := h.after_exec hforward hpace.ttl_eq
    ⟨p, .tryReserveBorrower campaign.id b workerId ttl, env, (exec env _ σ).1⟩
  rcases hr : (exec env (.tryReserveBorrower campaign.id b workerId ttl) σ).1 with e | (_ | borrower)
  · rw [hr] at hkept
    exact hkept.of_eq rfl (hmade _)
  · rw [hr] at hkept
    exact hkept.of_eq rfl (hmade _)
  · rw [hr] at hkept
    -- the borrower's lease starts now, which is not before the agent's
    have hlease := reserveBorrower_lease hr
    obtain ⟨hid, -, -, hget, -⟩ := reserveBorrower_ok hr
    obtain ⟨t₀, ht₀, ⟨e, he, hnow₀⟩, -⟩ := h _ rfl
    obtain ⟨t, ht, hentry, hsecured⟩ := hkept _ rfl
    obtain rfl : t₀ = t := Option.some.inj (ht₀.symm.trans ht)
    intro x hx
    obtain rfl : (agent, some borrower) = x := Option.some.inj hx
    refine ⟨t₀, ht, hentry, hsecured.agent, fun b' hb' g hg => ?_, fun c hc => ?_⟩
    · obtain rfl : borrower = b' := Option.some.inj hb'
      obtain rfl : borrower = g := by
        rw [hid] at hg
        exact Option.some.inj (hget.symm.trans hg)
      rw [hlease]
      exact leasedFrom_build (hnow₀ ▸ hforward e he) (hpace.ttl_eq ttl rfl) workerId
    · have hc : c ∈ (pace.next (.tryReserveBorrower campaign.id b workerId ttl)
        (.ok (some borrower))).made := hc
      rw [hmade] at hc
      exact hsecured.call c hc

/-- The call that a dial inserts is as old as this step. Its `updated_at` is the reading of this
step, which is not before the reservation. -/
theorem Safe.next_createCall {p : Nat} {campaign : Campaign} {pair : ReservationPair} {pace : Pace}
    (h : Safe settings σ tr (.pairClaimed campaign pair, pace))
    (hpace : Pace.Emits settings pace (.insertCall (CallAllocator.callDraft campaign pair)))
    (hforward : ∀ e ∈ tr, e.env.now ≤ env.now) :
    Safe settings (exec env (.insertCall (CallAllocator.callDraft campaign pair)) σ).2
      (tr ++ [⟨p, .insertCall (CallAllocator.callDraft campaign pair), env, (exec env _ σ).1⟩])
      ((Stage.pairClaimed campaign pair).next _
          (exec env (.insertCall (CallAllocator.callDraft campaign pair)) σ).1,
        pace.next _ (exec env (.insertCall (CallAllocator.callDraft campaign pair)) σ).1) := by
  have hkept := h.after_exec hforward hpace.ttl_eq
    ⟨p, .insertCall (CallAllocator.callDraft campaign pair), env, (exec env _ σ).1⟩
  rcases hr : (exec env (.insertCall (CallAllocator.callDraft campaign pair)) σ).1 with e | created
  · rw [hr] at hkept
    cases e with
    | duplicateKey =>
      -- the dial goes on to look for the call that has its key
      refine hkept.of_eq rfl ?_
      cases pace <;> rfl
    | _ => exact .of_none rfl
  · rw [hr] at hkept
    obtain ⟨t₀, ht₀, ⟨e, he, hnow₀⟩, -⟩ := h _ rfl
    obtain ⟨t, ht, hentry, hsecured⟩ := hkept _ rfl
    obtain rfl : t₀ = t := Option.some.inj (ht₀.symm.trans ht)
    obtain ⟨hcreated, -, hget⟩ := insertCall_ok hr
    intro x hx
    obtain rfl : (pair.agent, some pair.borrower) = x :=
      Option.some.inj ((reserved_taken campaign pair created).symm.trans hx)
    refine ⟨t₀, ht, hentry, hsecured.agent, hsecured.borrower, fun c hc => ?_⟩
    obtain rfl := pace.made_insert hc
    refine ⟨created, hget, ?_, ?_⟩
    · rw [hcreated]
      exact hnow₀ ▸ hforward e he
    · rw [hcreated]
      rfl

/-- **One step of a dial**: what it has in hand afterwards is secured. The three operations that
bring something new, and all others. -/
theorem Safe.next {p : Nat} {s : Stage × Pace} (h : Safe settings σ tr s) (hemits : Emits s.1 o)
    (hpace : Pace.Emits settings s.2 o) (hforward : ∀ e ∈ tr, e.env.now ≤ env.now) :
    Safe settings (exec env o σ).2 (tr ++ [⟨p, o, env, (exec env o σ).1⟩])
      (s.1.next o (exec env o σ).1, s.2.next o (exec env o σ).1) := by
  obtain ⟨s, pace⟩ := s
  by_cases hagent : ∃ c a w ttl, o = .tryReserveAgent c a w ttl
  · obtain ⟨c, a, w, ttl, rfl⟩ := hagent
    cases hemits
    exact .next_reserveAgent hpace
  by_cases hborrower : ∃ c b w ttl, o = .tryReserveBorrower c b w ttl
  · obtain ⟨c, b, w, ttl, rfl⟩ := hborrower
    cases hemits
    exact .next_reserveBorrower h hpace hforward
  by_cases hinsert : ∃ draft, o = .insertCall draft
  · obtain ⟨draft, rfl⟩ := hinsert
    cases hemits
    exact .next_createCall h hpace hforward
  -- nothing new comes into its hands
  have hagent : ∀ c a w ttl, o ≠ .tryReserveAgent c a w ttl :=
    fun c a w ttl ho => hagent ⟨c, a, w, ttl, ho⟩
  have hborrower : ∀ c b w ttl, o ≠ .tryReserveBorrower c b w ttl :=
    fun c b w ttl ho => hborrower ⟨c, b, w, ttl, ho⟩
  have hinsert : ∀ draft, o ≠ .insertCall draft := fun draft ho => hinsert ⟨draft, ho⟩
  exact h.next_of_same hpace hforward hinsert hagent
    (reserved_next_of_ne hemits hagent hborrower hinsert _)

/-! ## What a pass has read

A pass comes upon a call through the agent who is bound to it or through the query for stale calls.
`Reads` lists how its memory changes; every fact about passes is by cases on it. -/

/-- An agent is bound to a call about him. -/
def AgentsBound (σ : Store) : Prop :=
  ∀ a g, σ.agents.get? a = some g → ∀ c ∈ g.currentCallId,
    ∃ d, σ.calls.get? c = some d ∧ d.agentId = a

theorem Emits.of_bindCall {s : Stage} {a : DocId} {w : WorkerId} {c : DocId}
    (h : Emits s (.bindCall a w c)) :
    ∃ campaign pair, s = .callInitiated campaign pair c ∧ a = pair.agent.id := by
  cases h
  exact ⟨_, _, rfl, rfl⟩

/-- One operation: the binding of a dial is to a call about its agent, and calls keep their
agent. -/
theorem AgentsBound.after_exec {s : Stage} (h : AgentsBound σ) (hknows : s.Knows σ.calls)
    (hemits : Emits s o) : AgentsBound (exec env o σ).2 := by
  intro a g' hg' c hc
  obtain ⟨g, hg, hwrite⟩ := exec_agent_before hg'
  have hkey : g.id = a := Collection.key_of_get? hg
  have hcall : ∃ d, σ.calls.get? c = some d ∧ d.agentId = a := by
    cases hwrite with
    | unchanged | reserve | transition | beat => exact h a _ hg c hc
    | release | reclaim => cases hc
    | bind callId hworker =>
      -- a dial binds the agent its call is about
      obtain rfl : callId = c := Option.some.inj hc
      obtain ⟨campaign, pair, rfl, hid⟩ := hemits.of_bindCall
      obtain ⟨d, hd, hfor, -⟩ := hknows
      exact ⟨d, hd, hfor.agentId.trans (hid.symm.trans hkey)⟩
  obtain ⟨d, hd, hagent⟩ := hcall
  obtain ⟨d', hd', hev⟩ := exec_evolves env o σ c d hd
  exact ⟨d', hd', hev.agentId.trans hagent⟩

/-- What a pass makes of an answer. -/
inductive Reads (pass : Pass) : (o : Op) → Except Exn (Res o) → Pass → Prop where
  | nothing (o : Op) (r : Except Exn (Res o)) : Reads pass o r pass
  | clock (now : Time) : Reads pass .utcNow (.ok now) { pass with now := some now }
  | expired (now : Time) (limit : Int) (agents : List Agent) :
      Reads pass (.findExpiredAgentLeases now limit) (.ok agents)
        { pass with bound := Pace.boundCalls agents, ending := [] }
  | silent (olderThan : Time) (limit : Int) (agents : List Agent) :
      Reads pass (.findHeartbeatExpired olderThan limit) (.ok agents)
        { pass with bound := Pace.boundCalls agents, ending := [], silent := !agents.isEmpty }
  | stale (olderThan : Time) (limit : Int) (orphans : List Call) :
      Reads pass (.findStaleCalls olderThan limit) (.ok orphans)
        { pass with bound := [], ending := orphans.map Call.id }
  | bound (callId : DocId) (found : Call) :
      Reads pass (.findCallById callId) (.ok (some found)) { pass with ending := [found.id] }

theorem reads_nextSweeping (pass : Pass) (o : Op) (r : Except Exn (Res o)) :
    ∃ pass', Pace.nextSweeping pass o r = .sweeping pass' ∧ Reads pass o r pass' := by
  unfold Pace.nextSweeping
  split
  · exact ⟨_, rfl, .clock _⟩
  · exact ⟨_, rfl, .expired _ _ _⟩
  · exact ⟨_, rfl, .silent _ _ _⟩
  · exact ⟨_, rfl, .stale _ _ _⟩
  · exact ⟨_, rfl, .bound _ _⟩
  · exact ⟨_, rfl, .nothing _ _⟩

/-- The instant of a pass is a past one, it has found nobody silent, and the calls it has come upon
exist. -/
structure Fair (σ : Store) (tr : Trace) (pass : Pass) : Prop where
  now : ∀ t ∈ pass.now, ∃ e ∈ tr, e.env.now = t
  silent : pass.silent = false
  known : ∀ c, c ∈ pass.bound ∨ c ∈ pass.ending → ∃ d, σ.calls.get? c = some d

/-- The pass has not come upon the call. -/
def Pass.PassesBy (pass : Pass) (c : DocId) : Prop := c ∉ pass.bound ∧ c ∉ pass.ending

theorem Fair.after_exec {pass : Pass} (h : Fair σ tr pass) (e : Entry Op Res Exn Env) :
    Fair (exec env o σ).2 (tr ++ [e]) pass where
  now := fun t ht => by
    obtain ⟨e', he', hnow⟩ := h.now t ht
    exact ⟨e', List.mem_append_left _ he', hnow⟩
  silent := h.silent
  known := fun c hc => by
    obtain ⟨d, hd⟩ := h.known c hc
    obtain ⟨d', hd', -⟩ := exec_evolves env o σ c d hd
    exact ⟨d', hd'⟩

/-- The agents of a query that are bound to `c`. -/
theorem mem_boundCalls_iff {agents : List Agent} {c : DocId} :
    c ∈ Pace.boundCalls agents ↔ ∃ g ∈ agents, c ∈ g.currentCallId := by
  unfold Pace.boundCalls
  rw [List.mem_filterMap]
  exact Iff.rfl

theorem findExpired_ok {now : Time} {limit : Int} {agents : List Agent}
    (hr : (exec env (.findExpiredAgentLeases now limit) σ).1 = .ok agents) {g : Agent}
    (hg : g ∈ agents) : σ.agents.get? g.id = some g ∧ AgentRepo.leaseExpired now g := by
  rw [exec_of_ok hr] at hr
  cases hr
  exact Collection.mem_find.mp (limited_subset hg)

theorem findStale_ok {olderThan : Time} {limit : Int} {orphans : List Call}
    (hr : (exec env (.findStaleCalls olderThan limit) σ).1 = .ok orphans) {c : DocId}
    (hc : c ∈ orphans.map Call.id) :
    ∃ d, σ.calls.get? c = some d ∧ CallRepo.stale olderThan d := by
  rw [exec_of_ok hr] at hr
  cases hr
  obtain ⟨orphan, horphan, rfl⟩ := List.mem_map.mp hc
  obtain ⟨d, hd, hstale, rfl⟩ := CallRepo.mem_findStaleCalls horphan
  exact ⟨d, hd, hstale⟩

theorem findBound_ok {callId : DocId} {found : Call}
    (hr : (exec env (.findCallById callId) σ).1 = .ok (some found)) :
    found.id = callId ∧ ∃ d, σ.calls.get? callId = some d := by
  rw [exec_of_ok hr] at hr
  obtain ⟨d, hd, rfl⟩ := Option.map_eq_some_iff.mp (Except.ok.inj hr)
  have hid : d.id = callId := Calls.id_of_get? hd
  exact ⟨hid, d, hd⟩

/-- **One step of a pass**: what it has come upon afterwards exists. What it reads it finds in the
store, and calls are never removed. -/
theorem Fair.next {p : Nat} {pass pass' : Pass} (h : Fair σ tr pass) (hbound : AgentsBound σ)
    (hbeating : ∀ olderThan limit, o = .findHeartbeatExpired olderThan limit →
      AgentRepo.findHeartbeatExpired olderThan limit σ.agents = [])
    (hreads : Reads pass o (exec env o σ).1 pass') :
    Fair (exec env o σ).2 (tr ++ [⟨p, o, env, (exec env o σ).1⟩]) pass' := by
  have hkept : Fair (exec env o σ).2 (tr ++ [⟨p, o, env, (exec env o σ).1⟩]) pass :=
    h.after_exec _
  generalize hr : (exec env o σ).1 = r at hreads hkept ⊢
  -- the pass knows only calls that exist, whichever query it has them from
  cases hreads with
  | nothing => exact hkept
  | clock now =>
    refine ⟨fun t ht => ⟨_, List.mem_append_right _ (List.mem_singleton_self _), ?_⟩, hkept.silent,
      hkept.known⟩
    rw [exec_of_ok hr] at hr
    cases hr
    exact Option.some.inj ht
  | expired now limit agents =>
    refine ⟨hkept.now, hkept.silent, fun c hc => ?_⟩
    obtain ⟨g, hg, hc⟩ := mem_boundCalls_iff.mp (hc.resolve_right List.not_mem_nil)
    obtain ⟨d, hd, -⟩ := hbound g.id g (findExpired_ok hr hg).1 c hc
    obtain ⟨d', hd', -⟩ := exec_evolves env (.findExpiredAgentLeases now limit) σ c d hd
    exact ⟨d', hd'⟩
  | silent olderThan limit agents =>
    have hnobody : agents = [] := by
      rw [exec_of_ok hr] at hr
      exact (Except.ok.inj hr).symm.trans (hbeating olderThan limit rfl)
    subst hnobody
    exact ⟨hkept.now, rfl, fun c hc => absurd hc (not_or.mpr ⟨List.not_mem_nil, List.not_mem_nil⟩)⟩
  | stale olderThan limit orphans =>
    refine ⟨hkept.now, hkept.silent, fun c hc => ?_⟩
    obtain ⟨d, hd, -⟩ := findStale_ok hr (hc.resolve_left List.not_mem_nil)
    obtain ⟨d', hd', -⟩ := exec_evolves env (.findStaleCalls olderThan limit) σ c d hd
    exact ⟨d', hd'⟩
  | bound callId found =>
    refine ⟨hkept.now, hkept.silent, fun c hc => ?_⟩
    obtain ⟨hid, d, hd⟩ := findBound_ok hr
    rcases hc with hc | hc
    · exact hkept.known c (Or.inl hc)
    · obtain rfl : c = found.id := List.mem_singleton.mp hc
      obtain ⟨d', hd', -⟩ := exec_evolves env (.findCallById callId) σ _ d hd
      exact ⟨d', hid ▸ hd'⟩

/-- **A pass does not come upon the call of a dial under way**: neither through its agent, whose
lease has not run out, nor as a stale call. -/
theorem Pass.PassesBy.next {pass pass' : Pass} {made : Option DocId} {x : Agent × Option Borrower}
    {t : Time} {c : DocId} (h : pass.PassesBy c) (hsecured : Secured settings σ made x t)
    (hc : c ∈ made) (hbound : AgentsBound σ)
    (hbeating : ∀ olderThan limit, o = .findHeartbeatExpired olderThan limit →
      AgentRepo.findHeartbeatExpired olderThan limit σ.agents = [])
    (hemits : Pace.EmitsSweeping settings pass o) (hnow : ∀ now ∈ pass.now, now ≤ env.now)
    (hdeadline : env.now ≤ t + seconds settings.RESERVATION_TTL_SECONDS
      ∧ env.now ≤ t + seconds settings.CALL_STALE_TIMEOUT_SECONDS)
    (hreads : Reads pass o (exec env o σ).1 pass') : pass'.PassesBy c := by
  generalize hr : (exec env o σ).1 = r at hreads
  obtain ⟨d, hd, hupdated, hagent⟩ := hsecured.call c hc
  -- a query that found the call would have found it expired or stale, and it is neither
  cases hreads with
  | nothing | clock => exact h
  | expired now limit agents =>
    refine ⟨fun hmem => ?_, List.not_mem_nil⟩
    obtain ⟨g, hg, hcall⟩ := mem_boundCalls_iff.mp hmem
    obtain ⟨hget, -, -, e, he, hlt⟩ := findExpired_ok hr hg
    obtain ⟨d', hd', hagent'⟩ := hbound g.id g hget c hcall
    obtain rfl : d = d' := Option.some.inj (hd.symm.trans hd')
    have hid : g.id = x.1.id := hagent'.symm.trans hagent
    have hleased := hsecured.agent g (hid ▸ hget) e he
    exact absurd (Int.lt_of_lt_of_le hlt ((hnow now hemits).trans (hdeadline.1.trans hleased)))
      (Int.lt_irrefl e)
  | silent olderThan limit agents =>
    have hnobody : agents = [] := by
      rw [exec_of_ok hr] at hr
      exact (Except.ok.inj hr).symm.trans (hbeating olderThan limit rfl)
    subst hnobody
    exact ⟨List.not_mem_nil, List.not_mem_nil⟩
  | stale olderThan limit orphans =>
    refine ⟨List.not_mem_nil, fun hmem => ?_⟩
    obtain ⟨d', hd', -, hlt⟩ := findStale_ok hr hmem
    obtain rfl : d = d' := Option.some.inj (hd.symm.trans hd')
    obtain ⟨now, hpass, rfl⟩ := hemits
    have hle := hnow now hpass
    have hlate := hdeadline.2
    have hlt : d.updatedAt < now - seconds settings.CALL_STALE_TIMEOUT_SECONDS := hlt
    linarith
  | bound callId found =>
    refine ⟨h.1, fun hmem => ?_⟩
    have hcall : c = callId := (List.mem_singleton.mp hmem).trans (findBound_ok hr).1
    exact h.1 (hcall ▸ hemits)

end Step

end SmartDialer
