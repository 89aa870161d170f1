import SmartDialer.Ownership.Holding

/-!
# One step keeps the ownership invariant

Holdings move in three ways only. A thread keeps what it holds or lets go of some of it; a
thread hands everything over to the call it worked on (the provider's id is recorded, or the
thread ends); a thread takes over the parties of the call that its event has finished. Around
these three, the step lemma `Own.op` goes through the operations of every stage.

The argument is the same for each of the three: a map from holders after the step to holders before
it that is injective, so that two holders of one party after the step would be two before it. For
the first way the map is the identity, for the other two it swaps the thread and the call.
-/

namespace SmartDialer

open DocStore Concurrent Ownership

variable {D : Discipline} {σ σ' : Store} {st : Nat → Stage} {p : Nat} {s' : Stage}

/-! ## Three ways for holdings to move

Each lemma traces a holding of the new state back to one of the old state. A call is a holder only
while it is live and unclaimed, so each of them asks what becomes of the calls: no other call may
come to life, and the thread may drop its claim only on a dead one. -/

/-- A live call of the new store was live before, with the same parties. -/
def LiveBefore (D : Discipline) (σ σ' : Store) (c : DocId) : Prop :=
  ∀ d', σ'.calls.get? c = some d' → D.Live d' →
    ∃ d, σ.calls.get? c = some d ∧ D.Live d ∧ d'.holdings = d.holdings

theorem Holds.call_of_liveBefore {c : DocId} {x : Party} {tag : Option WorkerId}
    {st' : Nat → Stage} (h : Holds D σ' st' (.call c) x tag) (hlive : LiveBefore D σ σ' c)
    (hfree : ∀ q, (st q).claim ≠ some c) : Holds D σ st (.call c) x tag := by
  obtain ⟨htracks, d', hd', hlive', -, w, hw, htag⟩ := h
  obtain ⟨d, hd, hdlive, hsame⟩ := hlive d' hd' hlive'
  exact ⟨htracks, d, hd, hdlive, hfree, w, hsame ▸ hw, htag⟩

theorem claim_of_update {c : DocId} (hfree : ∀ q, (Function.update st p s' q).claim ≠ some c)
    (hp : (st p).claim ≠ some c) (q : Nat) : (st q).claim ≠ some c := by
  by_cases hq : q = p
  · rw [hq]
    exact hp
  · have := hfree q
    rwa [Function.update_of_ne hq] at this

theorem Holds.thread_of_update {q : Nat} {x : Party} {tag : Option WorkerId} (hq : q ≠ p)
    (h : Holds D σ' (Function.update st p s') (.thread q) x tag) :
    Holds D σ st (.thread q) x tag := by
  obtain ⟨htracks, w, hw, htag⟩ := h
  rw [Function.update_of_ne hq] at hw
  exact ⟨htracks, w, hw, htag⟩

/-- The thread keeps some of its holdings, and its claim unless the call is dead. No holder has come
to hold anything, so nothing is traced back but to itself. -/
theorem Holds.keep (hholds : (s' : Stage).holdings ⊆ (st p).holdings)
    (hlive : ∀ c, s'.claim ≠ some c → LiveBefore D σ σ' c)
    (hclaim : ∀ c, (st p).claim = some c → s'.claim ≠ some c →
      ∀ d', σ'.calls.get? c = some d' → ¬ D.Live d') (h : Holder) (x : Party)
    (tag : Option WorkerId) (hh : Holds D σ' (Function.update st p s') h x tag) :
    Holds D σ st h x tag := by
  cases h with
  | thread q =>
    by_cases hq : q = p
    · subst hq
      obtain ⟨htracks, w, hw, htag⟩ := hh
      rw [Function.update_self] at hw
      exact ⟨htracks, w, hholds hw, htag⟩
    · exact hh.thread_of_update hq
  | call c =>
    obtain ⟨-, d', hd', hdlive, hfree, -⟩ := id hh
    have hs' : s'.claim ≠ some c := by
      have := hfree p
      rwa [Function.update_self] at this
    have hp : (st p).claim ≠ some c := fun hp => hclaim c hp hs' d' hd' hdlive
    exact Holds.call_of_liveBefore hh (hlive c hs') (claim_of_update hfree hp)

/-- The thread lets go of everything, and call `c₀` takes over. Whatever the call holds now the
thread has held, so the two change places; all other holders are where they were. -/
theorem Holds.handOver {c₀ : DocId} (hholds : (s' : Stage).holdings = [])
    (hlive : ∀ c, c ≠ c₀ → LiveBefore D σ σ' c)
    (hclaim : ∀ c, (st p).claim = some c → c = c₀)
    (hparties : ∀ d', σ'.calls.get? c₀ = some d' → ∀ x w, (x, w) ∈ d'.holdings →
      ∃ w', (x, w') ∈ (st p).holdings ∧ D.tag w = D.tag w') (h : Holder) (x : Party)
    (tag : Option WorkerId) (hh : Holds D σ' (Function.update st p s') h x tag) :
    Holds D σ st (Equiv.swap (Holder.thread p) (Holder.call c₀) h) x tag := by
  cases h with
  | thread q =>
    by_cases hq : q = p
    -- the thread has nothing left
    · subst hq
      obtain ⟨-, w, hw, -⟩ := hh
      rw [Function.update_self, hholds] at hw
      exact absurd hw List.not_mem_nil
    · rw [Equiv.swap_apply_of_ne_of_ne (by simpa using hq) (by simp)]
      exact hh.thread_of_update hq
  | call c =>
    by_cases hc : c = c₀
    -- the call has the parties that the thread had
    · subst hc
      rw [Equiv.swap_apply_right]
      obtain ⟨htracks, d', hd', -, -, w, hw, htag⟩ := hh
      obtain ⟨w', hw', htag'⟩ := hparties d' hd' x w hw
      exact ⟨htracks, w', hw', htag.trans htag'⟩
    · rw [Equiv.swap_apply_of_ne_of_ne (by simp) (by simpa using hc)]
      obtain ⟨-, -, -, -, hfree, -⟩ := id hh
      exact hh.call_of_liveBefore (hlive c hc)
        (claim_of_update hfree fun hp => hc (hclaim c hp))

/-- The thread takes over the parties of call `c₀`, which is dead from now on. Before, the call was
live and unclaimed, so it was their holder. -/
theorem Holds.takeOver {c₀ : DocId} {d₀ : Call} (hd₀ : σ.calls.get? c₀ = some d₀)
    (hlive₀ : D.Live d₀) (hfree₀ : ∀ q, (st q).claim ≠ some c₀)
    (hdead : ∀ d', σ'.calls.get? c₀ = some d' → ¬ D.Live d')
    (hholds : (s' : Stage).holdings ⊆ d₀.holdings) (hclaim : (st p).claim = none)
    (hlive : ∀ c, c ≠ c₀ → LiveBefore D σ σ' c) (h : Holder) (x : Party)
    (tag : Option WorkerId) (hh : Holds D σ' (Function.update st p s') h x tag) :
    Holds D σ st (Equiv.swap (Holder.thread p) (Holder.call c₀) h) x tag := by
  cases h with
  | thread q =>
    by_cases hq : q = p
    -- what the thread has now, the call had
    · subst hq
      rw [Equiv.swap_apply_left]
      obtain ⟨htracks, w, hw, htag⟩ := hh
      rw [Function.update_self] at hw
      exact ⟨htracks, d₀, hd₀, hlive₀, hfree₀, w, hholds hw, htag⟩
    · rw [Equiv.swap_apply_of_ne_of_ne (by simpa using hq) (by simp)]
      exact hh.thread_of_update hq
  | call c =>
    obtain ⟨-, d', hd', hdlive, hfree, -⟩ := id hh
    by_cases hc : c = c₀
    -- a dead call holds nothing
    · subst hc
      exact absurd hdlive (hdead d' hd')
    · rw [Equiv.swap_apply_of_ne_of_ne (by simp) (by simpa using hc)]
      exact hh.call_of_liveBefore (hlive c hc)
        (claim_of_update hfree (by rw [hclaim]; exact nofun))

/-! ## Claims

A claim makes the thread the only holder of a call's parties, and since a discipline follows agents
or borrowers, two claims of one call would be two holders of one party. So claims are exclusive by
the invariant itself, without any bookkeeping of their own. -/

/-- The holdings of a claimed call are those of the thread that has claimed it: both are the parties
of the pair, for the same worker. -/
theorem Own.claim_holds (hfacts : CallFacts σ st) (h : Own D σ st) {c : DocId}
    (hc : (st p).claim = some c) :
    ∃ d, σ.calls.get? c = some d ∧ d.providerCallId = none ∧ ∀ x w, (x, w) ∈ d.holdings →
      ∃ w', (x, w') ∈ (st p).holdings ∧ D.tag w = D.tag w' := by
  have hparties : ∀ {d : Call} {campaign : Campaign} {pair : ReservationPair},
      d.IsFor campaign pair → D.tag d.createdByWorker = D.tag pair.workerId →
      ∀ x w, (x, w) ∈ d.holdings → ∃ w', (x, w') ∈ pair.holdings ∧ D.tag w = D.tag w' := by
    intro d campaign pair hfor htag x w hw
    simp only [Call.holdings, List.mem_cons, Prod.mk.injEq, List.not_mem_nil, or_false] at hw
    rcases hw with ⟨rfl, rfl⟩ | ⟨rfl, rfl⟩
    · exact ⟨pair.workerId, by simp [ReservationPair.holdings, hfor.agentId], htag⟩
    · exact ⟨pair.workerId, by simp [ReservationPair.holdings, hfor.borrowerId], htag⟩
  have hknows := hfacts.knows p
  have hclaims := h.claims p
  -- a claim on a call exists at three stages, and at each the call is known
  generalize st p = s at hc hknows hclaims
  cases s with
  | callQueued campaign pair c' =>
    cases hc
    obtain ⟨d, hd, hfor⟩ := hknows
    obtain ⟨d', hd', hnone, htag, -⟩ := hclaims
    cases hd.symm.trans hd'
    exact ⟨d, hd, hnone, hparties hfor htag⟩
  | callInitiated campaign pair c' =>
    cases hc
    obtain ⟨d, hd, hfor, -⟩ := hknows
    obtain ⟨d', hd', hnone, htag⟩ := hclaims
    cases hd.symm.trans hd'
    exact ⟨d, hd, hnone, hparties hfor htag⟩
  | callOriginated campaign pair c' =>
    cases hc
    obtain ⟨d, hd, hfor, -⟩ := hknows
    obtain ⟨d', hd', hnone, htag⟩ := hclaims
    cases hd.symm.trans hd'
    exact ⟨d, hd, hnone, hparties hfor htag⟩
  | _ => cases hc

/-- Some party of a call is followed. -/
theorem Call.exists_tracked (D : Discipline) (d : Call) :
    ∃ x, (x, d.createdByWorker) ∈ d.holdings ∧ D.tracks x = true := by
  rcases D.follows with h | h
  · exact ⟨.agent d.agentId, by simp [Call.holdings], h⟩
  · exact ⟨.borrower d.borrowerId, by simp [Call.holdings], h⟩

/-- **At most one thread works on a call.** -/
theorem Own.claim_unique (hfacts : CallFacts σ st) (h : Own D σ st) {q : Nat} {c : DocId}
    (hp : (st p).claim = some c) (hq : (st q).claim = some c) : p = q := by
  obtain ⟨d, hd, -, hholds⟩ := h.claim_holds hfacts hp
  obtain ⟨d', hd', -, hholds'⟩ := h.claim_holds hfacts hq
  cases hd.symm.trans hd'
  obtain ⟨x, hx, htracks⟩ := Call.exists_tracked D d
  obtain ⟨w, hw, -⟩ := hholds x _ hx
  obtain ⟨w', hw', -⟩ := hholds' x _ hx
  have hholdsP : Holds D σ st (.thread p) x (D.tag w) := ⟨htracks, w, hw, rfl⟩
  have hholdsQ : Holds D σ st (.thread q) x (D.tag w') := ⟨htracks, w', hw', rfl⟩
  cases h.owned.exclusive hholdsP hholdsQ
  rfl

/-- A call that an event can find is nobody's claim: claimed calls have no provider id yet. -/
theorem Own.attached_free (hfacts : CallFacts σ st) (h : Own D σ st) {c : DocId} {d : Call}
    (hd : σ.calls.get? c = some d) (hattached : d.providerCallId ≠ none) (q : Nat) :
    (st q).claim ≠ some c := by
  intro hq
  obtain ⟨d', hd', hnone, -⟩ := h.claim_holds hfacts hq
  cases hd.symm.trans hd'
  exact hattached hnone

/-- **Only the thread that works on a call can make it live.** A call comes to life by being
inserted, or, where queued calls do not count, by leaving `QUEUED`; both are operations of an
allocator on the call that he claims. -/
theorem liveBefore_exec (hfacts : CallFacts σ st) {o : Op} {env : Env} (hemits : Emits (st p) o)
    {c : DocId} (hc : (st p).claim ≠ some c)
    (hnew : ∀ draft, o = .insertCall draft → c ≠ env.newId) :
    LiveBefore D σ (exec env o σ).2 c := by
  intro d' hd' hlive
  cases hd : σ.calls.get? c with
  -- the call is new, so this was an insertion with the id that was drawn
  | none =>
    rcases exec_store env o σ with hstore | hstore
    · rw [hstore, hd] at hd'
      cases hd'
    · rw [hstore] at hd'
      obtain ⟨draft, ho, hid, -⟩ := apply_call_new env o hd hd'
      exact absurd hid (hnew draft ho)
  | some d =>
    obtain ⟨d'', hd'', hev⟩ := exec_evolves env o σ c d hd
    cases hd''.symm.trans hd'
    -- a finished call stays finished
    have hopen : d.terminal = false := by
      cases hterm : d.terminal with
      | false => rfl
      | true => exact (hlive.1.symm.trans (hev.frozen hterm).1).symm
    refine ⟨d, rfl, ⟨hopen, fun hD hqueued => ?_⟩, hev.holdings⟩
    have hne := hlive.2 hD
    rcases exec_store env o σ with hstore | hstore
    · rw [hstore] at hd'
      cases hd.symm.trans hd'
      exact hne hqueued
    · rw [hstore] at hd'
      obtain ⟨e, he, hcases⟩ := apply_call_cases env o hd
      cases he.symm.trans hd'
      rcases hcases with rfl | ⟨t, reason, rfl, hfilter, rfl⟩ | ⟨_, -, -, rfl⟩
      · exact hne hqueued
      · have hknows := hfacts.knows p
        have hsound := hfacts.sound c d hd
        generalize st p = s at hc hemits hknows
        -- it was queued before and is not any more: which stages emit such a transition
        cases hemits with
        | reserveCall | initiateCall | failCall => exact hc rfl
        | applyEvent =>
          obtain ⟨d₁, hd₁, -, hid, -⟩ := hknows
          cases hd.symm.trans hd₁
          have hrank := hsound.attached (by simp [hid])
          rw [hqueued] at hrank
          exact absurd hrank (by decide)
        | endCall _ hends =>
          have hopen' : CallSm.isTerminal t = false := hlive.1
          rcases hends with rfl | rfl | ⟨rfl, -⟩ <;> cases hopen'
      · exact hne hqueued

/-- What a thread claims is not touched by the steps of the others. They can end a claimed call,
which the claims allow for, but neither attach it nor move it otherwise. -/
theorem Own.claims_of_other (hfacts : CallFacts σ st) (h : Own D σ st) {o : Op} {env : Env}
    (hemits : Emits (st p) o) {q : Nat} (hq : q ≠ p) :
    (st q).Claims D (exec env o σ).2.calls := by
  -- a claimed call keeps its name and worker, and changes only by being ended
  have hstep : ∀ c d, (st q).claim = some c → σ.calls.get? c = some d → d.providerCallId = none →
      ∃ d', (exec env o σ).2.calls.get? c = some d' ∧ d'.providerCallId = none
        ∧ d'.createdByWorker = d.createdByWorker ∧ (d'.terminal = true ∨ d' = d) := by
    intro c d hc hd hnone
    have hp : (st p).claim ≠ some c := fun hp => hq (h.claim_unique hfacts hc hp)
    rcases exec_store env o σ with hstore | hstore
    · exact ⟨d, by rw [hstore, hd], hnone, rfl, Or.inr rfl⟩
    · rw [hstore]
      obtain ⟨d', hd', rfl | ⟨t, reason, rfl, hfilter, rfl⟩ | ⟨id, rfl, -, -⟩⟩ :=
        apply_call_cases env o hd
      · exact ⟨_, hd', hnone, rfl, Or.inr rfl⟩
      · refine ⟨_, hd', ?_, (CallRepo.transitionUpdate_evolves hfilter).createdByWorker,
          Or.inl ?_⟩
        · unfold CallRepo.transitionUpdate
          obtain ⟨i, r, a, e, hstamp⟩ := CallRepo.stampState_eq t env.now d
          rw [hstamp]
          exact hnone
        · have hknows := hfacts.knows p
          show CallSm.isTerminal t = true
          generalize st p = s at hp hemits hknows
          cases hemits with
          | reserveCall | initiateCall | failCall => exact absurd rfl hp
          | applyEvent =>
            obtain ⟨d₁, hd₁, -, hid, -⟩ := hknows
            cases hd.symm.trans hd₁
            rw [hnone] at hid
            cases hid
          | endCall _ hends => rcases hends with rfl | rfl | ⟨rfl, -⟩ <;> rfl
      · generalize st p = s at hp hemits
        cases hemits with
        | attach => exact absurd rfl hp
  have hclaims := h.claims q
  generalize st q = s at hclaims hstep
  cases s with
  | callQueued campaign pair c =>
    obtain ⟨d, hd, hnone, htag, hrank⟩ := hclaims
    obtain ⟨d', hd', hnone', hworker, hterm | rfl⟩ := hstep c d rfl hd hnone
    · exact ⟨d', hd', hnone', hworker ▸ htag, Or.inl hterm⟩
    · exact ⟨d', hd', hnone', htag, hrank⟩
  | callInitiated campaign pair c =>
    obtain ⟨d, hd, hnone, htag⟩ := hclaims
    obtain ⟨d', hd', hnone', hworker, -⟩ := hstep c d rfl hd hnone
    exact ⟨d', hd', hnone', hworker ▸ htag⟩
  | callOriginated campaign pair c =>
    obtain ⟨d, hd, hnone, htag⟩ := hclaims
    obtain ⟨d', hd', hnone', hworker, -⟩ := hstep c d rfl hd hnone
    exact ⟨d', hd', hnone', hworker ▸ htag⟩
  | _ => exact hclaims

/-! ## The shapes of a step

Every operation of every stage is one of these shapes, and each shape asks only for what its proof
needs: which parties are given back, whether a call is inserted, and the claims of the new stage.
The next module matches the stages against them. -/

section Shapes

variable {o : Op} {env : Env}

theorem Holds.tracked {h : Holder} {x : Party} {tag : Option WorkerId}
    (hh : Holds D σ st h x tag) : D.tracks x = true := by
  cases h with
  | thread q => exact hh.1
  | call c => exact hh.1

/-- The stages of all threads after one of them has moved: its own claims are to be shown, those of
the others are untouched. -/
theorem Own.claims_update (hfacts : CallFacts σ st) (h : Own D σ st) (hemits : Emits (st p) o)
    (hs' : s'.Claims D (exec env o σ).2.calls) (q : Nat) :
    (Function.update st p s' q).Claims D (exec env o σ).2.calls := by
  by_cases hq : q = p
  · rw [hq, Function.update_self]
    exact hs'
  · rw [Function.update_of_ne hq]
    exact h.claims_of_other hfacts hemits hq

/-- Nothing in hand that was not in hand before, and the claim kept, given up on a dead call, or
made. -/
structure Keeps (D : Discipline) (σ σ' : Store) (s s' : Stage) (o : Op) (env : Env) : Prop where
  holdings : s'.holdings ⊆ s.holdings
  claim : ∀ c, s.claim = some c → s'.claim ≠ some c →
    ∀ d', σ'.calls.get? c = some d' → ¬ D.Live d'
  new : ∀ draft, o = .insertCall draft → s'.claim ≠ some env.newId → σ'.calls = σ.calls

theorem Keeps.holds (hfacts : CallFacts σ st) (hemits : Emits (st p) o)
    (hkeeps : Keeps D σ (exec env o σ).2 (st p) s' o env) (h : Holder) (x : Party)
    (tag : Option WorkerId)
    (hh : Holds D (exec env o σ).2 (Function.update st p s') h x tag) : Holds D σ st h x tag := by
  refine Holds.keep hkeeps.holdings (fun c hc => ?_) hkeeps.claim h x tag hh
  by_cases hp : (st p).claim = some c
  · exact fun d' hd' hlive => absurd hlive (hkeeps.claim c hp hc d' hd')
  · by_cases hnew : (∃ draft, o = .insertCall draft) ∧ c = env.newId
    · obtain ⟨⟨draft, ho⟩, rfl⟩ := hnew
      have hcalls := hkeeps.new draft ho hc
      exact fun d' hd' hlive => ⟨d', hcalls ▸ hd', hlive, rfl⟩
    · exact liveBefore_exec hfacts hemits hp fun draft ho hc' => hnew ⟨⟨draft, ho⟩, hc'⟩

/-- A step that gives nothing back. -/
theorem Own.keep_step (hfacts : CallFacts σ st) (h : Own D σ st)
    (hpermits : D.Permits σ st p o env) (hemits : Emits (st p) o)
    (hkeeps : Keeps D σ (exec env o σ).2 (st p) s' o env) (hback : ∀ x, ¬ o.givesBack x)
    (hs' : s'.Claims D (exec env o σ).2.calls) :
    Own D (exec env o σ).2 (Function.update st p s') where
  owned := h.owned.transfer Function.injective_id (hkeeps.holds hfacts hemits)
    fun _ x _ hh hheld => Held.exec hpermits hh.tracked (hback x) hheld
  claims := h.claims_update hfacts hemits hs'

/-- A step by which a thread gives back what it holds. The party given back has no holder any more,
all the others stay held. -/
theorem Own.giveBack_step (hfacts : CallFacts σ st) (h : Own D σ st)
    (hpermits : D.Permits σ st p o env) (hemits : Emits (st p) o)
    (hkeeps : Keeps D σ (exec env o σ).2 (st p) s' o env) {x₀ : Party}
    (hback : ∀ x, o.givesBack x → x = x₀) (hheld : ∃ w, (x₀, w) ∈ (st p).holdings)
    (hgone : ∀ w, (x₀, w) ∉ s'.holdings) (hs' : s'.Claims D (exec env o σ).2.calls) :
    Own D (exec env o σ).2 (Function.update st p s') where
  owned := by
    refine h.owned.transfer Function.injective_id (hkeeps.holds hfacts hemits)
      fun k x tag hh hx => Held.exec hpermits hh.tracked (fun hgive => ?_) hx
    -- whoever holds the party afterwards held it before, so it is this thread
    obtain rfl := hback x hgive
    obtain ⟨w, hw⟩ := hheld
    have hbefore := hkeeps.holds hfacts hemits k x tag hh
    have hthread : Holds D σ st (.thread p) x (D.tag w) := ⟨hh.tracked, w, hw, rfl⟩
    obtain rfl := h.owned.exclusive hbefore hthread
    obtain ⟨-, w', hw', -⟩ := hh
    rw [Function.update_self] at hw'
    exact hgone w' hw'
  claims := h.claims_update hfacts hemits hs'

/-- A step by which recovery frees a party, if it has no holder. Borrowers are not followed where
recovery runs, and for agents the discipline has recovery wait. -/
theorem Own.recovery_step (hfacts : CallFacts σ st) (h : Own D σ st)
    (hpermits : D.Permits σ st p o env) (hemits : Emits (st p) o) {stale : List Call}
    (hs : st p = .sweeping stale)
    (hfrees : ∀ a g g', σ.agents.get? a = some g → o.givesBack (.agent a) →
      AgentWrite env.now o g g' → g' = g ∨ RecoveryFrees σ.agents o a)
    (hnew : ∀ draft, o ≠ .insertCall draft) :
    Own D (exec env o σ).2 (Function.update st p (.sweeping stale)) where
  owned := by
    have hrec : D.recovery = true := by
      have := h.claims p
      rwa [hs] at this
    have hkeeps : Keeps D σ (exec env o σ).2 (st p) (.sweeping stale) o env :=
      ⟨List.nil_subset _, fun c hc => (by rw [hs] at hc; cases hc),
        fun draft ho => absurd ho (hnew draft)⟩
    refine h.owned.transfer Function.injective_id (hkeeps.holds hfacts hemits)
      fun k x tag hh hx => ?_
    have hbefore := hkeeps.holds hfacts hemits k x tag hh
    cases x with
    | borrower b =>
      have htracked : D.borrowers = true := hh.tracked
      rw [(D.recovery_agents hrec).1] at htracked
      cases htracked
    | agent a =>
      -- the sweep frees him only if nobody, thread or call, holds him
      by_cases hgive : o.givesBack (.agent a)
      · cases hlands : env.lands o with
        | false =>
          rw [exec_of_not_lands hlands]
          exact hx
        | true =>
          obtain ⟨g, hg, hbusy, hworker⟩ := hx
          obtain ⟨g', hg', hwrite⟩ := exec_agent env o hg
          rcases hfrees a g g' hg hgive hwrite with rfl | hfree
          · exact ⟨_, hg', hbusy, hworker⟩
          · exact absurd hbefore (hpermits.recovery_waits a hfree hrec hlands k tag)
      · exact Held.exec hpermits hh.tracked hgive hx
  claims := h.claims_update hfacts hemits (by
    have := h.claims p
    rwa [hs] at this)

/-- A thread that ends in the middle of a dial leaves everything to the call it works on, which is
live and unclaimed from then on. -/
theorem Own.handOver_step (hfacts : CallFacts σ st) (h : Own D σ st)
    (hpermits : D.Permits σ st p o env) (hemits : Emits (st p) o) {c₀ : DocId}
    (hc₀ : (st p).claim = some c₀) (hholds : s'.holdings = []) (hback : ∀ x, ¬ o.givesBack x)
    (hnew : ∀ draft, o ≠ .insertCall draft) (hs' : s'.Claims D (exec env o σ).2.calls) :
    Own D (exec env o σ).2 (Function.update st p s') where
  owned := by
    obtain ⟨d, hd, -, hparties⟩ := h.claim_holds hfacts hc₀
    refine h.owned.transfer (Equiv.injective _)
      (Holds.handOver hholds (fun c hc => liveBefore_exec hfacts hemits
          (by rw [hc₀]; exact fun h => hc (Option.some.inj h).symm)
          fun draft ho => absurd ho (hnew draft))
        (fun c hc => Option.some.inj (hc.symm.trans hc₀)) fun d' hd' x w hw => ?_)
      fun _ x _ hh hheld => Held.exec hpermits hh.tracked (hback x) hheld
    obtain ⟨d'', hd'', hev⟩ := exec_evolves env o σ c₀ d hd
    cases hd''.symm.trans hd'
    rw [hev.holdings] at hw
    exact hparties x w hw
  claims := h.claims_update hfacts hemits hs'

/-- A thread that ends, wherever it is, when it has not just inserted a call. Either it has claimed
a call, which takes over, or what it held is nobody's from now on. -/
theorem Own.end_step (hfacts : CallFacts σ st) (h : Own D σ st)
    (hpermits : D.Permits σ st p o env) (hemits : Emits (st p) o) (hholds : s'.holdings = [])
    (hback : ∀ x, ¬ o.givesBack x) (hnew : ∀ draft, o ≠ .insertCall draft)
    (hs' : s'.Claims D (exec env o σ).2.calls) :
    Own D (exec env o σ).2 (Function.update st p s') := by
  cases hc : (st p).claim with
  | none =>
    refine h.keep_step hfacts hpermits hemits ⟨by rw [hholds]; exact List.nil_subset _,
      fun c hc' => ?_, fun draft ho => absurd ho (hnew draft)⟩ hback hs'
    rw [hc] at hc'
    cases hc'
  | some c₀ => exact h.handOver_step hfacts hpermits hemits hc hholds hback hnew hs'

/-- A step by which a thread takes a party that was free. The reservation of the source is
conditional on just that, so nobody can have held it. -/
theorem Own.acquire_step (hfacts : CallFacts σ st) (h : Own D σ st)
    (hpermits : D.Permits σ st p o env) (hemits : Emits (st p) o) (x₀ : Party) (w₀ : WorkerId)
    (hholds : ∀ y ∈ s'.holdings, y ∈ (st p).holdings ∨ y = (x₀, w₀))
    (hclaim : (st p).claim = none) (hcalls : (exec env o σ).2.calls = σ.calls)
    (hback : ∀ x, ¬ o.givesBack x) (hfree : ∀ tag, ¬ Held σ x₀ tag)
    (hnew : Held (exec env o σ).2 x₀ (D.tag w₀)) (hs' : s'.Claims D (exec env o σ).2.calls) :
    Own D (exec env o σ).2 (Function.update st p s') where
  owned := by
    refine h.owned.acquire (.thread p) x₀ (D.tag w₀) (fun k x tag hh => ?_)
      hfree hnew fun _ x _ hh hheld => Held.exec hpermits hh.tracked (hback x) hheld
    -- only the thread itself can have gained a holding
    cases k with
    | thread q =>
      by_cases hq : q = p
      · subst hq
        obtain ⟨htracks, w, hw, rfl⟩ := hh
        rw [Function.update_self] at hw
        rcases hholds _ hw with hold | hnew
        · exact Or.inl ⟨htracks, w, hold, rfl⟩
        · cases hnew
          exact Or.inr ⟨rfl, rfl, rfl⟩
      · exact Or.inl (hh.thread_of_update hq)
    | call c =>
      obtain ⟨-, -, -, -, hfreeCall, -⟩ := id hh
      refine Or.inl (hh.call_of_liveBefore (fun d' hd' hlive => ⟨d', hcalls ▸ hd', hlive, rfl⟩)
        (claim_of_update hfreeCall ?_))
      rw [hclaim]
      exact nofun
  claims := h.claims_update hfacts hemits hs'

theorem Keeps.refl {s : Stage} (hnew : ∀ draft, o ≠ .insertCall draft) :
    Keeps D σ σ' s s o env :=
  ⟨List.Subset.refl _, fun _ hc hc' => absurd hc hc', fun draft ho => absurd ho (hnew draft)⟩

theorem Keeps.of_no_claim {s s' : Stage} (hclaim : s.claim = none)
    (hholds : s'.holdings ⊆ s.holdings) (hnew : ∀ draft, o ≠ .insertCall draft) :
    Keeps D σ σ' s s' o env :=
  ⟨hholds, fun c hc => (by rw [hclaim] at hc; cases hc), fun draft ho => absurd ho (hnew draft)⟩

theorem exec_calls_eq (σ : Store) (hinsert : ∀ draft, o ≠ .insertCall draft)
    (htransition : ∀ c t reason, o ≠ .transitionCall c t reason)
    (hattach : ∀ c q, o ≠ .attachProviderCallId c q) : (exec env o σ).2.calls = σ.calls := by
  rcases exec_store env o σ with h | h
  · rw [h]
  · rw [h]
    cases o with
    | insertCall draft => exact absurd rfl (hinsert draft)
    | transitionCall c t reason => exact absurd rfl (htransition c t reason)
    | attachProviderCallId c q => exact absurd rfl (hattach c q)
    | _ => rfl

/-- A thread that stays where it is, in an operation that touches no call and gives nothing
back. -/
theorem Own.stay_step (hfacts : CallFacts σ st) (h : Own D σ st)
    (hpermits : D.Permits σ st p o env) (hemits : Emits (st p) o) {s : Stage} (hs : st p = s)
    (hback : ∀ x, ¬ o.givesBack x)
    (hinsert : ∀ draft, o ≠ .insertCall draft)
    (htransition : ∀ c t reason, o ≠ .transitionCall c t reason)
    (hattach : ∀ c q, o ≠ .attachProviderCallId c q) :
    Own D (exec env o σ).2 (Function.update st p s) := by
  subst hs
  refine h.keep_step hfacts hpermits hemits (.refl hinsert) hback ?_
  rw [exec_calls_eq σ hinsert htransition hattach]
  exact h.claims p

end Shapes

/-! ## The step lemma

What an exception means in a permitted operation. The fault may be the scheduler's, which the
discipline restricts, or the answer of the operation, and the only operation that answers by an
exception is the insertion of a duplicate. -/

section Op

variable {env : Env}

/-- An exception that strikes a permitted operation of a dial is not a cancellation. -/
theorem Discipline.Permits.error_ne_cancelled {o : Op} (hpermits : D.Permits σ st p o env)
    {pair : ReservationPair} (hdials : (st p).dialing = some pair) {e : Exn}
    (he : (exec env o σ).1 = .error e) : e ≠ .cancelled := by
  rcases exec_cases env o σ with h | ⟨f, hf, -, h⟩
  · rw [h] at he
    intro hc
    subst hc
    cases o with
    | insertCall draft =>
      simp only [apply] at he
      cases hins : CallRepo.insertCall draft env.newId env.now σ.calls with
      | none =>
        rw [hins] at he
        cases he
      | some r =>
        rw [hins] at he
        cases he
    | _ => cases he
  · rw [h] at he
    cases he
    refine hpermits.not_cancelled ?_ f hf
    rw [hdials]
    exact Option.some_ne_none pair

theorem ReservationPair.struck_eq_idle {pair : ReservationPair} {e : Exn} (he : e ≠ .cancelled) :
    pair.struck e = .idle := by
  cases e with
  | cancelled => exact absurd rfl he
  | _ => rfl

end Op

end SmartDialer
