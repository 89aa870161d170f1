import SmartDialer.Recovery.Setup

/-!
# No sweep interferes with a dial

The invariant over the facts of `Setup`: every dial under way is secured, and no pass of the sweeps
has come upon its call. From it, no step of a sweep changes what the dial has in hand.

* `SetupSafe.op`, `SetupSafe.preserves`: the invariant, step by step.
* `SetupSafe.protected`: what it says about one step of a sweep.
* `setup_protected`: every run.
* `sweep_cancels_setup`: settings that the validator accepts, and a call that a sweep cancels all
  the same.
-/

namespace SmartDialer

open DocStore Concurrent Machine

/-! ## Every reachable world

Besides what `Setup` says of each dial and each pass, the invariant says how the two go together: no
pass has come upon a call that a dial under way has made. A step can break this from both ends, by a
pass reading something or by a dial making a call. -/

/-- A dial has something in hand from the reservation of its agent on. -/
theorem reserved_next {s : Stage} {o : Op} {r : Except Exn (Res o)} {x : Agent × Option Borrower}
    (h : (s.next o r).reserved = some x) :
    (∃ c a w ttl, o = .tryReserveAgent c a w ttl) ∨ ∃ y, s.reserved = some y := by
  cases s with
  | allocating campaign workerId =>
    revert h
    show (Stage.nextAllocating campaign workerId o r).reserved = some x → _
    unfold Stage.nextAllocating
    split
    · exact fun _ => Or.inl ⟨_, _, _, _, rfl⟩
    · exact nofun
  | agentClaimed | pairClaimed | callQueued | callInitiated | callOriginated | agentReturned =>
    exact Or.inr ⟨_, rfl⟩
  | compensating pair => cases h
  | idle | eventReceived | eventRecorded | eventMatched | eventApplied | eventAgentReturned
  | eventClosing | eventDuplicate | eventFailed | sweeping | acting | wrapping =>
    rw [reserved_of_not_allocates (Stage.allocates_next rfl o r)] at h
    cases h

/-- Where the call of a dial comes from: it has just been inserted, or it was the dial's before. -/
theorem Pace.made_cases {s : Pace} {o : Op} {r : Except Exn (Res o)} {c : DocId}
    (h : c ∈ (s.next o r).made) :
    (∃ draft created, (⟨o, r⟩ : Σ o, Except Exn (Res o)) = ⟨.insertCall draft, .ok created⟩
      ∧ c = created.id)
    ∨ c ∈ s.made ∧ ∀ k a w ttl, o ≠ .tryReserveAgent k a w ttl := by
  by_cases hinsert : ∃ draft, o = .insertCall draft
  · obtain ⟨draft, rfl⟩ := hinsert
    cases r with
    | error e => cases s <;> exact Or.inr ⟨h, nofun⟩
    | ok created => exact Or.inl ⟨draft, created, rfl, made_insert s h⟩
  by_cases hreserve : ∃ k a w ttl, o = .tryReserveAgent k a w ttl
  · -- a new reservation drops the call of the dial before
    obtain ⟨k, a, w, ttl, rfl⟩ := hreserve
    rw [made_reserve] at h
    cases h
  · have hother : ∀ k a w ttl, o ≠ .tryReserveAgent k a w ttl :=
      fun k a w ttl ho => hreserve ⟨k, a, w, ttl, ho⟩
    rw [made_next s r (fun draft ho => hinsert ⟨draft, ho⟩) hother] at h
    exact Or.inr ⟨h, hother⟩

theorem Pace.sweeping_of_next {s : Pace} {o : Op} {r : Except Exn (Res o)} {pass' : Pass}
    (h : s.next o r = .sweeping pass') : ∃ pass, s = .sweeping pass ∧ Reads pass o r pass' := by
  cases s with
  | other => cases h
  | allocating made hungUp =>
    revert h
    show Pace.nextAllocating made hungUp o r = _ → _
    unfold Pace.nextAllocating
    split <;> exact nofun
  | sweeping pass =>
    obtain ⟨found, hfound, hreads⟩ := reads_nextSweeping pass o r
    have hsame : found = pass' := Pace.sweeping.inj (hfound.symm.trans h)
    exact ⟨pass, rfl, hsame ▸ hreads⟩

/-- Every dial under way is secured, and no pass of the sweeps has come upon its call. -/
structure SetupSafe (settings : Settings) (σ : Store) (tr : Trace) (st : Nat → Stage × Pace) :
    Prop where
  facts : CallFacts σ fun q => (st q).1
  bound : AgentsBound σ
  safe : ∀ q, Safe settings σ tr (st q)
  fair : ∀ p pass, (st p).2 = .sweeping pass → Fair σ tr pass
  apart : ∀ p q pass, (st p).2 = .sweeping pass → ∀ x, (st q).1.reserved = some x →
    ∀ c ∈ (st q).2.made, pass.PassesBy c

namespace SetupSafe

variable {settings : Settings} {σ : Store} {tr : Trace} {st : Nat → Stage × Pace}

/-- A thread may be replaced by one that has nothing in hand and has read nothing. -/
theorem set (h : SetupSafe settings σ tr st) (p : Nat) {s : Stage × Pace}
    (hknows : s.1.Knows σ.calls) (hreserved : s.1.reserved = none)
    (hpass : ∀ pass, s.2 = .sweeping pass → pass = {}) :
    SetupSafe settings σ tr (Function.update st p s) where
  facts := by
    rw [fst_update]
    exact h.facts.set p hknows
  bound := h.bound
  -- the thread holds nothing now, so nothing is asked of it
  safe := fun q => by
    by_cases hq : q = p
    · rw [hq, Function.update_self]
      exact .of_none hreserved
    · rw [Function.update_of_ne hq]
      exact h.safe q
  fair := fun q pass hq => by
    by_cases hqp : q = p
    · rw [hqp, Function.update_self] at hq
      rw [hpass pass hq]
      exact ⟨nofun, rfl, fun c hc => absurd hc (not_or.mpr ⟨List.not_mem_nil, List.not_mem_nil⟩)⟩
    · rw [Function.update_of_ne hqp] at hq
      exact h.fair q pass hq
  apart := fun q q' pass hq x hx c hc => by
    by_cases hq' : q' = p
    · rw [hq', Function.update_self, hreserved] at hx
      cases hx
    · rw [Function.update_of_ne hq'] at hx hc
      by_cases hqp : q = p
      · rw [hqp, Function.update_self] at hq
        rw [hpass pass hq]
        exact ⟨List.not_mem_nil, List.not_mem_nil⟩
      · rw [Function.update_of_ne hqp] at hq
        exact h.apart q q' pass hq x hx c hc

theorem initial (h₀ : CallsSound σ.calls) (hbound : AgentsBound σ) :
    SetupSafe settings σ [] fun _ => (.idle, .other) where
  facts := ⟨h₀, fun _ => trivial⟩
  bound := hbound
  safe := fun _ => .of_none rfl
  fair := fun _ _ hpass => by cases hpass
  apart := fun _ _ _ hpass => by cases hpass

/-- **One step.** Four cases, since what a dial has in hand may be new, and so may what a pass has
read. -/
theorem op (h : SetupSafe settings σ tr st) {p : Nat} {o : Op} {env : Env}
    (haccepted : settings.checkRecoveryTimeoutInvariant = some settings)
    (hcovers : settings.CoversSetup) (hemits : Emits (st p).1 o)
    (hpace : Pace.Emits settings (st p).2 o) (hguard : (untangled settings).guard σ st p o env)
    (hforward : ∀ e ∈ tr, e.env.now ≤ env.now) :
    SetupSafe settings (exec env o σ).2 (tr ++ [⟨p, o, env, (exec env o σ).1⟩])
      (Function.update st p
        ((st p).1.next o (exec env o σ).1, (st p).2.next o (exec env o σ).1)) where
  facts := by
    rw [fst_update]
    exact h.facts.op p env hemits
  bound := h.bound.after_exec (h.facts.knows p) hemits
  safe := fun q => by
    by_cases hq : q = p
    · rw [hq, Function.update_self]
      exact (h.safe p).next hemits hpace hforward
    · rw [Function.update_of_ne hq]
      exact (h.safe q).after_exec hforward hpace.ttl_eq _
  fair := fun q pass hq => by
    by_cases hqp : q = p
    · rw [hqp, Function.update_self] at hq
      obtain ⟨before, hbefore, hreads⟩ := Pace.sweeping_of_next hq
      exact (h.fair p before hbefore).next h.bound hguard.1.beating hreads
    · rw [Function.update_of_ne hqp] at hq
      exact (h.fair q pass hq).after_exec _
  apart := fun q q' pass hq x hx c hc => by
    by_cases hqp : q = p
    · -- the pass reads on, and the dial is another thread's
      rw [hqp, Function.update_self] at hq
      obtain ⟨before, hbefore, hreads⟩ := Pace.sweeping_of_next hq
      by_cases hq' : q' = p
      · rw [hq', Function.update_self] at hc
        have hnone : ((st p).2.next o (exec env o σ).1).made = none := by
          rw [show (st p).2.next o (exec env o σ).1 = .sweeping pass from hq]
          rfl
        rw [hnone] at hc
        cases hc
      · rw [Function.update_of_ne hq'] at hx hc
        obtain ⟨t, ht, -, hsecured⟩ := h.safe q' x hx
        have hsweeps : Pace.EmitsSweeping settings before o := by
          rw [hbefore] at hpace
          exact hpace
        -- as long as the dial is within its deadline, the pass reads neither its agent nor its call
        -- as due
        refine (h.apart p q' before hbefore x hx c hc).next hsecured hc h.bound hguard.1.beating
          hsweeps (fun now hnow => ?_) (deadline haccepted hcovers hguard hx ht) hreads
        obtain ⟨e, he, hat⟩ := (h.fair p before hbefore).now now hnow
        exact hat ▸ hforward e he
    · rw [Function.update_of_ne hqp] at hq
      by_cases hq' : q' = p
      · -- a call that is made now is new to every pass
        rw [hq', Function.update_self] at hx hc
        rcases Pace.made_cases hc with ⟨draft, created, hmade, rfl⟩ | ⟨hold, hnot⟩
        · obtain ⟨rfl, hr⟩ := Sigma.mk.inj hmade
          obtain ⟨-, hnew, -⟩ := insertCall_ok (eq_of_heq hr)
          have hunknown : ∀ {l : List DocId}, (∀ c ∈ l, ∃ d, σ.calls.get? c = some d) →
              created.id ∉ l := by
            intro l hl hmem
            obtain ⟨d, hd⟩ := hl _ hmem
            cases hnew.symm.trans hd
          have hknown := (h.fair q pass hq).known
          exact ⟨hunknown fun c hc => hknown c (Or.inl hc), hunknown fun c hc => hknown c (Or.inr hc)⟩
        · rcases reserved_next hx with ⟨k, a, w, ttl, rfl⟩ | ⟨y, hy⟩
          · exact absurd rfl (hnot k a w ttl)
          · exact h.apart q p pass hq y hy c hold
      · rw [Function.update_of_ne hq'] at hx hc
        exact h.apart q q' pass hq x hx c hc

/-- The invariant of a run. The clock is assumed to go forward, which every prefix of the run
inherits. -/
theorem preserves {cfg : Config}
    (haccepted : cfg.settings.checkRecoveryTimeoutInvariant = some cfg.settings)
    (hcovers : cfg.settings.CoversSetup) :
    (pacing cfg).PreservesRunning (untangled cfg.settings) fun σ tr st =>
      Forward tr → SetupSafe cfg.settings σ tr st where
  spawn := by
    intro σ tr st p job h _ _ hforward
    refine (h hforward).set p (CallFacts.knows_start _ job) ?_ fun pass hpass => ?_
    · cases job <;> rfl
    · cases job with
      | runSweeps => exact (Pace.sweeping.inj hpass).symm
      | _ => cases hpass
  op := by
    intro σ tr st p o env h hemits hguard hforward
    exact (h hforward.append.1).op haccepted hcovers hemits.1 hemits.2 hguard hforward.append.2
  drop := by
    intro σ tr st p h hforward
    exact (h hforward).set p trivial rfl nofun

end SetupSafe

/-! ## No sweep interferes

A step of a sweep writes to a row only if the pass has come upon it, or by an expired lease. For
what a dial has in hand neither can be. -/

/-- A step leaves the call of a dial as it is, and also its agent and its borrower as long as the
dial's worker holds them. -/
structure Protected (σ σ' : Store) (pair : ReservationPair) (made : Option DocId) : Prop where
  call : ∀ c ∈ made, σ'.calls.get? c = σ.calls.get? c
  agent : ∀ g, σ.agents.get? pair.agent.id = some g → g.state.busy = true →
    g.reservedBy = some pair.workerId → σ'.agents.get? pair.agent.id = some g
  borrower : ∀ b, σ.borrowers.get? pair.borrower.id = some b →
    b.reservedBy = some pair.workerId → σ'.borrowers.get? pair.borrower.id = some b

theorem Protected.refl (σ : Store) (pair : ReservationPair) (made : Option DocId) :
    Protected σ σ pair made :=
  ⟨fun _ _ => rfl, fun _ hg _ _ => hg, fun _ hb _ => hb⟩

/-- **A step of a sweep** leaves every dial under way alone. A write of a sweep is due to an expired
lease or a stale call that the pass has read, and neither the lease nor the call of the dial can be
that old. -/
theorem SetupSafe.protected {settings : Settings} {σ : Store} {tr : Trace}
    {st : Nat → Stage × Pace} (h : SetupSafe settings σ tr st) {p : Nat} {o : Op} {env : Env}
    (haccepted : settings.checkRecoveryTimeoutInvariant = some settings)
    (hcovers : settings.CoversSetup) {stale : List Call} {pass : Pass}
    (hstage : st p = (.sweeping stale, .sweeping pass)) (hemits : Emits (.sweeping stale) o)
    (hpace : Pace.EmitsSweeping settings pass o) (hguard : (untangled settings).guard σ st p o env)
    (hforward : ∀ e ∈ tr, e.env.now ≤ env.now) {q : Nat} {pair : ReservationPair}
    (hq : (st q).1.dialing = some pair) : Protected σ (exec env o σ).2 pair (st q).2.made := by
  have hreserved := Stage.reserved_of_dialing hq
  have hfair := h.fair p pass (by rw [hstage])
  obtain ⟨t, ht, -, hsecured⟩ := h.safe q _ hreserved
  have hdeadline := deadline haccepted hcovers hguard hreserved ht
  have hstale : (st p).1 = .sweeping stale := by rw [hstage]
  -- a lease that the sweep takes for expired is not one of this dial
  have hvalid : ∀ {l : LeaseFields} {e now : Time}, LeasedFrom settings t l →
      l.leaseExpiresAt = some e → pass.now = some now → ¬ e < now := by
    intro l e now hleased he hnow hlt
    obtain ⟨entry, hentry, hat⟩ := hfair.now now hnow
    have hlate : now ≤ env.now := hat ▸ hforward entry hentry
    exact absurd (Int.lt_of_lt_of_le hlt (hlate.trans (hdeadline.1.trans (hleased e he))))
      (Int.lt_irrefl e)
  refine ⟨fun c hc => ?_, fun g hg hbusy hheld => ?_, fun b hb hheld => ?_⟩
  · obtain ⟨d, hd, -⟩ := hsecured.call c hc
    have hpassed := h.apart p q pass (by rw [hstage]) _ hreserved c hc
    rcases exec_store env o σ with hstore | hstore
    · rw [hstore]
    · rw [hstore, hd]
      obtain ⟨d', hd', rfl | ⟨target, reason, rfl, -, -⟩ | ⟨id, rfl, -, -⟩⟩ := apply_call_cases env o hd
      · exact hd'
      · exact absurd hpace hpassed.2
      · cases hemits
  · obtain ⟨g', hg', hwrite⟩ := exec_agent env o hg
    have hkey : g.id = pair.agent.id := Collection.key_of_get? hg
    have hleased := hsecured.agent g hg
    rw [hg']
    cases hwrite with
    | unchanged => rfl
    | reserve => exact hpace.elim
    | release hworker hstate =>
      exact absurd (Option.some.inj (hheld.symm.trans hworker))
        (hguard.2.agent stale hstale _ _ _ _ rfl q pair hq hkey.symm)
    | transition target actor =>
      cases hemits with
      | moveAgent _ hmove hkind =>
        rcases hkind with rfl | hwrap
        · have hsilent : pass.silent = true := hpace
          rw [hfair.silent] at hsilent
          cases hsilent
        · rw [hwrap] at hbusy
          cases hbusy
    | bind => cases hemits
    | reclaim _ _ _ hlease hexpired => exact absurd hexpired (hvalid hleased hlease hpace)
    | beat => cases hemits
  · obtain ⟨b', hb', hwrite⟩ := exec_borrower env o hb
    have hkey : b.id = pair.borrower.id := Collection.key_of_get? hb
    have hleased := hsecured.borrower pair.borrower rfl b hb
    rw [hb']
    cases hwrite with
    | unchanged => rfl
    | reserve => exact hpace.elim
    | release outcome m backoff hworker =>
      exact absurd (Option.some.inj (hheld.symm.trans hworker))
        (hguard.2.borrower stale hstale _ _ _ _ _ rfl q pair hq hkey.symm)
    | reclaim _ _ _ hlease hexpired => exact absurd hexpired (hvalid hleased hlease hpace)

/-- The sweeps are the threads of the recovery worker. -/
theorem stage_of_runSweeps {cfg : Config} {R : PacedRegime} {σ₀ : Store} {w : PacedWorld}
    (h : Reachable (pacing cfg) R (World.fresh σ₀) w) {p : Nat}
    {t : Thread Job Op Res Exn Outcome (Stage × Pace)} (ht : w.threads p = some t)
    (hjob : t.job = .runSweeps) : ∃ stale pass, t.stage = (.sweeping stale, .sweeping pass) := by
  refine h.threads (P := fun job s => job = .runSweeps →
    ∃ stale pass, s = (.sweeping stale, .sweeping pass)) ?_ ?_ (fun p t ht => by cases ht) p t ht hjob
  · rintro job rfl
    exact ⟨[], {}, rfl⟩
  · intro job s o r hs hjob
    obtain ⟨stale, pass, rfl⟩ := hs hjob
    obtain ⟨pass', hpass', -⟩ := reads_nextSweeping pass o r
    have hnext : ∃ stale', Stage.nextSweeping stale o r = .sweeping stale' := by
      unfold Stage.nextSweeping
      split <;> exact ⟨_, rfl⟩
    obtain ⟨stale', hstale'⟩ := hnext
    exact ⟨stale', pass', Prod.ext hstale' hpass'⟩

/-- **Recovery leaves a dial alone.** With settings that the validator accepts and whose leases cover
the set-up, in every run in which the dials are in time and recovery gives nothing back that is
reserved again: no step of a sweep touches the call that a dial under way has made, or the agent and
the borrower it holds. -/
theorem setup_protected {cfg : Config}
    (haccepted : cfg.settings.checkRecoveryTimeoutInvariant = some cfg.settings)
    (hcovers : cfg.settings.CoversSetup) {σ₀ : Store} (h₀ : CallsSound σ₀.calls)
    (hbound : AgentsBound σ₀) {w : PacedWorld}
    (h : Reachable (pacing cfg) (untangled cfg.settings) (World.fresh σ₀) w) {p : Nat} {env : Env}
    (hok : (untangled cfg.settings).allows (pacing cfg) w (.perform p env))
    (hforward : Forward (w.act (pacing cfg) (.perform p env)).trace)
    {t : Thread Job Op Res Exn Outcome (Stage × Pace)} (ht : w.threads p = some t)
    (hjob : t.job = .runSweeps) :
    ∀ q pair, (w.stageOf (pacing cfg) q).1.dialing = some pair →
      Protected w.store (w.act (pacing cfg) (.perform p env)).store pair
        (w.stageOf (pacing cfg) q).2.made := by
  intro q pair hq
  rcases w.act_cases (M := pacing cfg) (.perform p env) with heq | ⟨_, _, ha, -⟩ | ⟨_, _, ha, -⟩
    | ⟨p', env', t', o, k, ha, ht', hc, hprog, heq⟩
  · rw [heq]
    exact .refl _ _ _
  · cases ha
  · cases ha
  -- the sweep performs an operation: its stage and its pass are live
  · cases ha
    cases ht.symm.trans ht'
    obtain ⟨stale, pass, hstage⟩ := stage_of_runSweeps h ht hjob
    have hlive : w.stageOf (pacing cfg) p = (.sweeping stale, .sweeping pass) := by
      rw [← hstage]
      unfold World.stageOf
      rw [ht]
      simp [Thread.running, hprog, hc]
    have hguard := hok t o k ht hc hprog
    rw [heq] at hforward ⊢
    obtain ⟨hpast, hlast⟩ := hforward.append
    have hinv := h.invariant_running (pacing_conforms cfg) (SetupSafe.preserves haccepted hcovers)
      (World.Obeys.fresh _ σ₀)
      (fun _ => .initial h₀ hbound) hpast
    have hfollows := (h.obeys (pacing_conforms cfg) (World.Obeys.fresh _ σ₀)).follows p t ht
    rw [hprog, hstage] at hfollows
    exact hinv.protected haccepted hcovers hlive hfollows.1.1 hfollows.1.2 hguard hlast hq

/-! The theorem at a sweep that runs while the provider is asked, and the same sweep under settings
that the validator accepts although the lease is shorter than the wait. -/

/-- One worker dials and waits for the provider, and four seconds later the sweeps begin. -/
def waitingActions : List (Action Job Env) :=
  .spawn 0 (.allocate demoCampaign 1 "w") :: List.replicate 10 (.perform 0 demoEnv)
    ++ .spawn 1 .runSweeps :: List.replicate 3 (.perform 1 { demoEnv with now := 4000 })

/-- The world in which the sweeps have begun. -/
def waiting (cfg : Config) : PacedWorld := (World.fresh demoStore).acts (pacing cfg) waitingActions

/-- Nothing given back, nobody asked for heartbeats. -/
def quiet : Op → Bool
  | .releaseAgent .. | .releaseBorrower .. | .findHeartbeatExpired .. => false
  | _ => true

/-- At most four seconds after the reservation, a quiet operation. -/
def early (cfg : Config) (w : PacedWorld) : Action Job Env → Bool
  | .perform p env => env.now ≤ 4000
    && [0, 1].all (fun q => ((w.stageOf (pacing cfg) q).1.reserved).all fun x =>
      x.1.reservedAt = some 0)
    && (w.threads p).all fun t => match t.prog with
      | .op o _ => quiet o
      | _ => true
  | _ => true

theorem early_reserved {cfg : Config} {w : PacedWorld} {p : Nat} {env : Env}
    (hidle : ∀ q ∉ [0, 1], w.stageOf (pacing cfg) q = (pacing cfg).idle)
    (hearly : early cfg w (.perform p env) = true) :
    env.now ≤ 4000 ∧ ∀ q x t, (w.stageOf (pacing cfg) q).1.reserved = some x →
      x.1.reservedAt = some t → t = 0 := by
  simp only [early, Bool.and_eq_true, decide_eq_true_eq, List.all_eq_true] at hearly
  obtain ⟨⟨hnow, hreserved⟩, -⟩ := hearly
  refine ⟨hnow, fun q x t hx ht => ?_⟩
  by_cases hq : q ∈ [0, 1]
  · have hat := hreserved q hq
    rw [hx] at hat
    have hat : x.1.reservedAt = some 0 := of_decide_eq_true hat
    exact Option.some.inj (ht.symm.trans hat)
  · rw [hidle q hq] at hx
    cases hx

theorem early_quiet {cfg : Config} {w : PacedWorld} {p : Nat} {env : Env}
    (hearly : early cfg w (.perform p env) = true)
    {t : Thread Job Op Res Exn Outcome (Stage × Pace)} {o : Op} {k : Except Exn (Res o) → Py Outcome}
    (ht : w.threads p = some t) (hprog : t.prog = .op o k) : quiet o = true := by
  simp only [early, Bool.and_eq_true] at hearly
  have hquiet := hearly.2
  rw [ht] at hquiet
  simpa [hprog] using hquiet

/-- Four seconds are within the time that a set-up may take by default. -/
theorem timely_of_early {cfg : Config} (hwait : cfg.settings.PROVIDER_TIMEOUT_SECONDS = 5)
    {w : PacedWorld} {p : Nat} {env : Env}
    (hidle : ∀ q ∉ [0, 1], w.stageOf (pacing cfg) q = (pacing cfg).idle)
    (hearly : early cfg w (.perform p env) = true) {o : Op} (hquiet : quiet o = true) :
    Timely cfg.settings w.store (w.stageOf (pacing cfg)) o env where
  setup := fun q x t hx ht _ => by
    obtain ⟨hnow, hreserved⟩ := early_reserved hidle hearly
    rw [hreserved q x t hx ht]
    unfold setupLimit
    rw [hwait, max_eq_right (by norm_num)]
    have hlate : (env.now : ℚ) ≤ 4000 := by exact_mod_cast hnow
    push_cast
    linarith
  beating := fun olderThan limit ho => by
    rw [ho] at hquiet
    cases hquiet

/-- A quiet operation meets the regime. -/
theorem untangled_of_early {w : PacedWorld} {a : Action Job Env}
    (hidle : ∀ q ∉ [0, 1], w.stageOf (pacing {}) q = (pacing {}).idle) (hearly : early {} w a = true) :
    (untangled {}).allows (pacing {}) w a := by
  cases a with
  | spawn p job => trivial
  | crash p => trivial
  | perform p env =>
    intro t o k ht _ hprog
    have hquiet := early_quiet hearly ht hprog
    refine ⟨timely_of_early rfl hidle hearly hquiet, ?_, ?_, ?_⟩
    · intro q x t hx ht _
      obtain ⟨hnow, hreserved⟩ := early_reserved hidle hearly
      rw [hreserved q x t hx ht]
      exact ⟨hnow.trans (by decide), hnow.trans (by decide)⟩
    · intro _ _ _ _ _ _ ho
      rw [ho] at hquiet
      cases hquiet
    · intro _ _ _ _ _ _ _ ho
      rw [ho] at hquiet
      cases hquiet

/-- The threads of the run. -/
theorem waitingActions_spawn : ∀ p job, Action.spawn p job ∈ waitingActions → p ∈ [0, 1] :=
  Action.mem_of_startsAmong (by decide)

theorem waiting_idle (cfg : Config) :
    ∀ q ∉ [0, 1], (waiting cfg).stageOf (pacing cfg) q = (pacing cfg).idle := by
  intro q hq
  have hnone : (waiting cfg).threads q = none := by
    unfold waiting
    refine World.acts_threads_none ?_ fun job hjob => hq (waitingActions_spawn q job hjob)
    rfl
  unfold World.stageOf
  rw [hnone]

theorem waiting_reachable :
    Reachable (pacing {}) (untangled {}) (World.fresh demoStore) (waiting {}) :=
  Reachable.of_checked_among [0, 1] (early {}) (fun _ _ => untangled_of_early) waitingActions_spawn
    (fun _ _ => rfl) .refl (by decide +kernel)

theorem waiting_bound : AgentsBound demoStore := by
  intro a g hg c hc
  obtain rfl : g = demoAgent := List.mem_singleton.mp (Collection.mem_of_get? hg)
  cases hc

/-- Whether a job is a pass of recovery. -/
def Job.sweeps : Job → Bool
  | .runSweeps => true
  | _ => false

theorem sweeper_of_waiting (cfg : Config)
    (h : ((waiting cfg).threads 1).map (fun t => t.job.sweeps) = some true) :
    ∃ t, (waiting cfg).threads 1 = some t ∧ t.job = .runSweeps := by
  obtain ⟨t, ht, hsweeps⟩ := Option.map_eq_some_iff.mp h
  refine ⟨t, ht, ?_⟩
  generalize t.job = job at hsweeps
  cases job with
  | runSweeps => rfl
  | _ => cases hsweeps

/-- The next step of the sweep. -/
def sweepOn (cfg : Config) : PacedWorld :=
  (waiting cfg).act (pacing cfg) (.perform 1 { demoEnv with now := 4000 })

/-- The sweep goes on, and the call of the dial stays as it is. -/
theorem setup_protected_demo :
    (sweepOn {}).store.calls.get? demoEnv.newId = (waiting {}).store.calls.get? demoEnv.newId := by
  obtain ⟨t, ht, hjob⟩ := sweeper_of_waiting {} (by decide +kernel)
  have hmade : ((waiting {}).stageOf (pacing {}) 0).2.made = some demoEnv.newId := by decide +kernel
  have hdials : ((waiting {}).stageOf (pacing {}) 0).1.dialing.isSome = true := by decide +kernel
  obtain ⟨pair, hpair⟩ := Option.isSome_iff_exists.mp hdials
  have hforward : Forward (sweepOn {}).trace := by
    unfold Forward
    decide +kernel
  have hprotected := setup_protected (Settings.accepted_iff.mpr (by norm_num))
    ⟨by norm_num, by decide, by decide⟩ demoStore_sound waiting_bound waiting_reachable
    (untangled_of_early (waiting_idle {}) (by decide +kernel)) hforward ht hjob 0 pair hpair
  exact hprotected.call demoEnv.newId hmade

/-- The lease is shorter than the wait for the provider. -/
def hasty : Config where
  settings := { RESERVATION_TTL_SECONDS := 1, CALL_STALE_TIMEOUT_SECONDS := 10 }

/-- The validator accepts these settings, and a sweep cancels the call that is being set up. A lease
of one second with a provider that may take five: the run reserves and creates, and the sweep comes
at four seconds. -/
theorem sweep_cancels_setup : ¬ ∀ (cfg : Config) (σ₀ : Store) (w : PacedWorld) (p : Nat) (env : Env),
    cfg.settings.checkRecoveryTimeoutInvariant = some cfg.settings → CallsSound σ₀.calls →
    AgentsBound σ₀ → Reachable (pacing cfg) (timely cfg.settings) (World.fresh σ₀) w →
    (timely cfg.settings).allows (pacing cfg) w (.perform p env) →
    Forward (w.act (pacing cfg) (.perform p env)).trace →
    ∀ t, w.threads p = some t → t.job = .runSweeps →
    ∀ q pair, (w.stageOf (pacing cfg) q).1.dialing = some pair →
      Protected w.store (w.act (pacing cfg) (.perform p env)).store pair
        (w.stageOf (pacing cfg) q).2.made := by
  intro hclaim
  have hallows : ∀ (w : PacedWorld) (a : Action Job Env),
      (∀ q ∉ [0, 1], w.stageOf (pacing hasty) q = (pacing hasty).idle) → early hasty w a = true →
      (timely hasty.settings).allows (pacing hasty) w a := by
    intro w a hidle hearly
    cases a with
    | spawn p job => trivial
    | crash p => trivial
    | perform p env =>
      exact fun t o k ht _ hprog => timely_of_early rfl hidle hearly (early_quiet hearly ht hprog)
  -- the dial waits for the provider, and a pass has begun
  have hreachable : Reachable (pacing hasty) (timely hasty.settings) (World.fresh demoStore)
      (waiting hasty) :=
    Reachable.of_checked_among [0, 1] (early hasty) hallows waitingActions_spawn (fun _ _ => rfl)
      .refl (by decide +kernel)
  obtain ⟨t, ht, hjob⟩ := sweeper_of_waiting hasty (by decide +kernel)
  have hmade : ((waiting hasty).stageOf (pacing hasty) 0).2.made = some demoEnv.newId := by
    decide +kernel
  have hdials : ((waiting hasty).stageOf (pacing hasty) 0).1.dialing.isSome = true := by
    decide +kernel
  obtain ⟨pair, hpair⟩ := Option.isSome_iff_exists.mp hdials
  have hforward : Forward (sweepOn hasty).trace := by
    unfold Forward
    decide +kernel
  -- the next step of the pass cancels the call that the dial has made
  have hprotected := hclaim hasty demoStore (waiting hasty) 1 { demoEnv with now := 4000 }
    (Settings.accepted_iff.mpr (by norm_num [hasty])) demoStore_sound waiting_bound hreachable
    (hallows _ _ (waiting_idle hasty) (by decide +kernel)) hforward t ht hjob 0 pair hpair
  have hbefore : ((waiting hasty).store.calls.get? demoEnv.newId).map Call.state
      = some .INITIATED := by decide +kernel
  have hafter : ((sweepOn hasty).store.calls.get? demoEnv.newId).map Call.state
      = some .CANCELLED := by decide +kernel
  have hsame : (sweepOn hasty).store.calls.get? demoEnv.newId
      = (waiting hasty).store.calls.get? demoEnv.newId := hprotected.call demoEnv.newId hmade
  rw [hsame, hbefore] at hafter
  cases hafter

end SmartDialer
