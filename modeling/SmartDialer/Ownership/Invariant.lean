import SmartDialer.Ownership.Step

/-!
# The ownership invariant

One lemma for each component that moves holdings, and `Own.op`, which puts them together for
every operation of every stage.

The lemmas follow the functions of the source: `Own.op_allocating` and `Own.op_agentClaimed` are
`reserve_pair`, `Own.op_pairClaimed` to `Own.op_agentReturned` are `_dial`, the `Own.op_event…`
lemmas are `process_event`, `Own.op_sweeping` is a pass of recovery. Each of them goes through the
operations that its stage emits and names the shape of the step.

* `Own.found_free`: a queued call that a dial finds under its own key belongs to nobody.
* `Own.op_createCall`: the insertion of a call, also one that raises after it has been written.
* `Own.op_eventMatched`: an event that finishes a call makes its thread the holder.
* `Own.op`, `Own.spawn`, `Own.drop`: every action of a run.
* `own_of_reachable`: the invariant in every reachable world.
-/

namespace SmartDialer

open DocStore Concurrent Ownership

variable {D : Discipline} {σ : Store} {st : Nat → Stage} {p : Nat} {env : Env}

/-! ## The allocator looking for a pair

`reserve_pair` lists candidates and tries to reserve one after another. A list changes nothing; a
reservation that is refused changes nothing either; one that succeeds found its party free. -/

theorem Discipline.mem_tag {w w' : WorkerId} (h : w' ∈ D.tag w) : w' = w := by
  unfold Discipline.tag at h
  split at h
  · exact (Option.some.inj h).symm
  · cases h

/-- Looking for an agent. Nothing is held so far. If `try_reserve_agent` wins, the agent was
available, so nobody else holds him. -/
theorem Own.op_allocating (hfacts : CallFacts σ st) (h : Own D σ st) {o : Op}
    (hpermits : D.Permits σ st p o env) (hemits : Emits (st p) o) {campaign : Campaign}
    {w : WorkerId} (hs : st p = .allocating campaign w) :
    Own D (exec env o σ).2
      (Function.update st p (Stage.nextAllocating campaign w o (exec env o σ).1)) := by
  have hcopy := hemits
  rw [hs] at hcopy
  cases hcopy with
  | claimableAgents n =>
    exact h.stay_step hfacts hpermits hemits hs (fun _ hx => hx) nofun nofun nofun
  | reserveAgent a ttl =>
    rcases hr : (exec env (.tryReserveAgent campaign.id a w ttl) σ).1 with e | (_ | agent)
    · exact h.stay_step hfacts hpermits hemits hs (fun _ hx => hx) nofun nofun nofun
    · exact h.stay_step hfacts hpermits hemits hs (fun _ hx => hx) nofun nofun nofun
    · obtain ⟨hid, hstate, hworker, hget, g, hg, havailable⟩ := reserveAgent_ok hr
      refine h.acquire_step hfacts hpermits hemits (.agent agent.id) w ?_ ?_
        (exec_calls_eq σ nofun nofun nofun) (fun _ hx => hx) ?_ ?_ trivial
      · exact fun y hy => Or.inr (List.mem_singleton.mp hy)
      · rw [hs]
        rfl
      -- he was available, so nobody held him
      · rintro tag ⟨g', hg', hbusy, -⟩
        rw [hid, hg] at hg'
        cases hg'
        rw [havailable] at hbusy
        cases hbusy
      · exact ⟨agent, hid ▸ hget, by rw [hstate]; rfl,
          fun w' hw' => by rw [Discipline.mem_tag hw', hworker]⟩

/-- Looking for a borrower, with an agent in hand. If there is none the agent is given back. A
borrower who is won was pending, so nobody else holds him; then the thread holds the pair. -/
theorem Own.op_agentClaimed (hfacts : CallFacts σ st) (h : Own D σ st) {o : Op}
    (hpermits : D.Permits σ st p o env) (hemits : Emits (st p) o) {campaign : Campaign}
    {w : WorkerId} {agent : Agent} (hs : st p = .agentClaimed campaign w agent) :
    Own D (exec env o σ).2
      (Function.update st p (Stage.nextAgentClaimed campaign w agent o (exec env o σ).1)) := by
  have hcopy := hemits
  rw [hs] at hcopy
  cases hcopy with
  | claimableBorrowers n =>
    exact h.stay_step hfacts hpermits hemits hs (fun _ hx => hx) nofun nofun nofun
  | returnLoneAgent =>
    refine h.giveBack_step hfacts hpermits hemits (.of_no_claim (by rw [hs]; rfl)
      (List.nil_subset _) nofun) (fun x hx => hx) ⟨w, ?_⟩ (fun _ => List.not_mem_nil) trivial
    rw [hs]
    exact List.mem_singleton_self _
  | reserveBorrower b ttl =>
    rcases hr : (exec env (.tryReserveBorrower campaign.id b w ttl) σ).1 with e | (_ | borrower)
    · exact h.stay_step hfacts hpermits hemits hs (fun _ hx => hx) nofun nofun nofun
    · exact h.stay_step hfacts hpermits hemits hs (fun _ hx => hx) nofun nofun nofun
    · obtain ⟨hid, hstatus, hworker, hget, g, hg, hpending⟩ := reserveBorrower_ok hr
      refine h.acquire_step hfacts hpermits hemits (.borrower borrower.id) w ?_ ?_
        (exec_calls_eq σ nofun nofun nofun) (fun _ hx => hx) ?_ ?_ trivial
      · intro y hy
        rw [hs]
        rcases List.mem_cons.mp hy with rfl | hy
        · exact Or.inl (List.mem_singleton_self _)
        · exact Or.inr (List.mem_singleton.mp hy)
      · rw [hs]
        rfl
      -- he was pending, so nobody held him
      · rintro tag ⟨g', hg', hreserved, -⟩
        rw [hid, hg] at hg'
        cases hg'
        rw [hpending] at hreserved
        cases hreserved
      · exact ⟨borrower, hid ▸ hget, hstatus,
          fun w' hw' => by rw [Discipline.mem_tag hw', hworker]⟩

/-! ## The allocator with a pair

The thread holds both of the pair and has no call yet. `create_call` inserts one, which the thread
then claims; where the idempotency key is taken, it reads the call back and may take it on. -/

/-- A queued call found under the key of a dial is nobody's: else its holder and the thread
that holds the pair would share a party. If queued calls count as holders there is no such
call at all. -/
theorem Own.found_free (hfacts : CallFacts σ st) (h : Own D σ st) {campaign : Campaign}
    {pair : ReservationPair} (hs : st p = .pairClaimed campaign pair) {d : Call}
    (hd : σ.calls.get? d.id = some d) (hfor : d.IsFor campaign pair) (hqueued : d.state = .QUEUED) :
    (∀ q, (st q).claim ≠ some d.id) ∧ D.queuedHolds = false := by
  -- the thread holds a followed party of the call
  have hmine : ∀ x w, (x, w) ∈ d.holdings → (x, pair.workerId) ∈ (st p).holdings := by
    intro x w hw
    rw [hs]
    simp only [Call.holdings, List.mem_cons, Prod.mk.injEq, List.not_mem_nil, or_false] at hw
    rcases hw with ⟨rfl, -⟩ | ⟨rfl, -⟩
    · simp [Stage.holdings, ReservationPair.holdings, hfor.agentId]
    · simp [Stage.holdings, ReservationPair.holdings, hfor.borrowerId]
  obtain ⟨x, hx, htracks⟩ := Call.exists_tracked D d
  have hholdsP : Holds D σ st (.thread p) x (D.tag pair.workerId) :=
    ⟨htracks, pair.workerId, hmine x _ hx, rfl⟩
  -- a thread that had claimed it would be a second holder
  have hfree : ∀ q, (st q).claim ≠ some d.id := by
    intro q hq
    obtain ⟨d', hd', -, hparties⟩ := h.claim_holds hfacts hq
    cases hd.symm.trans hd'
    obtain ⟨w', hw', -⟩ := hparties x _ hx
    have hholdsQ : Holds D σ st (.thread q) x (D.tag w') := ⟨htracks, w', hw', rfl⟩
    cases h.owned.exclusive hholdsP hholdsQ
    rw [hs] at hq
    cases hq
  refine ⟨hfree, ?_⟩
  -- and so would be the call itself
  by_contra hsealed
  have hopen : d.terminal = false := by
    rw [(hfacts.sound _ d hd).terminal, hqueued]
    rfl
  have hholdsC : Holds D σ st (.call d.id) x (D.tag d.createdByWorker) :=
    ⟨htracks, d, hd, ⟨hopen, fun hD => absurd hD hsealed⟩, hfree, _, hx, rfl⟩
  cases h.owned.exclusive hholdsP hholdsC

/-- An exception in the middle of a dial ends the thread. A permitted one is no cancellation, so
there is no compensation, and what the thread held passes to its call or to the leases. -/
theorem Own.struck_step (hfacts : CallFacts σ st) (h : Own D σ st) {o : Op}
    (hpermits : D.Permits σ st p o env) (hemits : Emits (st p) o) {pair : ReservationPair}
    (hdials : (st p).dialing = some pair) {e : Exn} (he : (exec env o σ).1 = .error e)
    (hback : ∀ x, ¬ o.givesBack x)
    (hnew : ∀ draft, o ≠ .insertCall draft) :
    Own D (exec env o σ).2 (Function.update st p (pair.struck e)) := by
  rw [ReservationPair.struck_eq_idle (hpermits.error_ne_cancelled hdials he)]
  exact h.end_step hfacts hpermits hemits rfl hback hnew trivial

/-- A thread whose insertion has raised reads the call back where the key is taken, and ends
otherwise. -/
theorem Stage.next_createCall_error {e : Exn} (he : e ≠ .cancelled) (campaign : Campaign)
    (pair : ReservationPair) (draft : CallRepo.CallDraft) :
    nextPairClaimed campaign pair (.insertCall draft) (.error e)
      = if e = .duplicateKey then .pairClaimed campaign pair else .idle := by
  cases e with
  | cancelled => exact absurd rfl he
  | _ => rfl

section CreateCall

variable {campaign : Campaign} {pair : ReservationPair}
  (hfacts : CallFacts σ st) (h : Own D σ st) (hs : st p = .pairClaimed campaign pair)
  (hpermits : D.Permits σ st p (.insertCall (CallAllocator.callDraft campaign pair)) env)
  (hemits : Emits (st p) (.insertCall (CallAllocator.callDraft campaign pair)))

include hfacts h hs hpermits hemits

/-- An insertion that raises and writes nothing: the thread stays with its pair, or leaves it to
its leases. -/
theorem Own.createCall_unwritten {e : Exn}
    (he : (exec env (.insertCall (CallAllocator.callDraft campaign pair)) σ).1 = .error e)
    (hcalls : (exec env (.insertCall (CallAllocator.callDraft campaign pair)) σ).2.calls
      = σ.calls) :
    Own D (exec env (.insertCall (CallAllocator.callDraft campaign pair)) σ).2
      (Function.update st p (Stage.nextPairClaimed campaign pair
        (.insertCall (CallAllocator.callDraft campaign pair))
        (exec env (.insertCall (CallAllocator.callDraft campaign pair)) σ).1)) := by
  have hclaim : (st p).claim = none := by rw [hs]; rfl
  have hkeep : ∀ s' : Stage, s'.holdings ⊆ (st p).holdings → s'.Claims D σ.calls →
      Own D (exec env (.insertCall (CallAllocator.callDraft campaign pair)) σ).2
        (Function.update st p s') := by
    intro s' hholds hclaims
    refine h.keep_step hfacts hpermits hemits ⟨hholds, fun c hc => ?_, fun _ _ _ => hcalls⟩
      (fun _ hx => hx) (hcalls ▸ hclaims)
    rw [hclaim] at hc
    cases hc
  have hne : e ≠ .cancelled := hpermits.error_ne_cancelled (by rw [hs]; rfl) he
  rw [he, Stage.next_createCall_error hne]
  split
  · refine hkeep _ ?_ trivial
    rw [hs]
    exact List.Subset.refl _
  · exact hkeep _ (List.nil_subset _) trivial

variable {r : Call × Calls}
  (hins : CallRepo.insertCall (CallAllocator.callDraft campaign pair) env.newId env.now σ.calls
    = some r)

include hins

/-- An insertion that goes through: the thread claims the call it has created. -/
theorem Own.createCall_answered
    (hexec : exec env (.insertCall (CallAllocator.callDraft campaign pair)) σ
      = (.ok r.1, { σ with calls := r.2 })) :
    Own D (exec env (.insertCall (CallAllocator.callDraft campaign pair)) σ).2
      (Function.update st p (Stage.nextPairClaimed campaign pair
        (.insertCall (CallAllocator.callDraft campaign pair))
        (exec env (.insertCall (CallAllocator.callDraft campaign pair)) σ).1)) := by
  obtain ⟨hdoc, -, hget, -⟩ := CallRepo.insertCall_eq_some hins
  have hnext : Stage.nextPairClaimed campaign pair
      (.insertCall (CallAllocator.callDraft campaign pair))
      (exec env (.insertCall (CallAllocator.callDraft campaign pair)) σ).1
      = .callQueued campaign pair env.newId := by
    rw [hexec, hdoc]
    rfl
  rw [hnext]
  refine h.keep_step hfacts hpermits hemits ⟨?_, fun c hc => ?_, fun _ _ hne => absurd rfl hne⟩
    (fun _ hx => hx) ?_
  · rw [hs]
    exact List.Subset.refl _
  · rw [hs] at hc
    cases hc
  · rw [hexec]
    exact ⟨_, (hget env.newId).trans (if_pos rfl), rfl, rfl,
      Or.inr (show CallSm.rank .QUEUED < CallSm.rank .INITIATED by decide)⟩

/-- An insertion that raises and has written the call all the same: the thread ends, and what it
held passes to a call that nobody works on. -/
theorem Own.createCall_written {e : Exn} (hkey : e ≠ .duplicateKey)
    (he : (exec env (.insertCall (CallAllocator.callDraft campaign pair)) σ).1 = .error e)
    (hstore : (exec env (.insertCall (CallAllocator.callDraft campaign pair)) σ).2
      = { σ with calls := r.2 }) :
    Own D (exec env (.insertCall (CallAllocator.callDraft campaign pair)) σ).2
      (Function.update st p (Stage.nextPairClaimed campaign pair
        (.insertCall (CallAllocator.callDraft campaign pair))
        (exec env (.insertCall (CallAllocator.callDraft campaign pair)) σ).1)) := by
  have hclaim : (st p).claim = none := by rw [hs]; rfl
  obtain ⟨-, -, hget, -⟩ := CallRepo.insertCall_eq_some hins
  have hne : e ≠ .cancelled := hpermits.error_ne_cancelled (by rw [hs]; rfl) he
  rw [he, Stage.next_createCall_error hne, if_neg hkey]
  refine ⟨h.owned.transfer (Equiv.injective _) (Holds.handOver rfl
      (fun c hc => liveBefore_exec hfacts hemits (by simp [hclaim]) fun _ _ => hc)
      (fun c hc => (by rw [hclaim] at hc; cases hc)) fun d' hd' x w hw => ?_)
    fun _ x _ hh hheld => Held.exec hpermits hh.tracked (fun hx => hx) hheld,
    h.claims_update hfacts hemits trivial⟩
  -- the new call has the agent and the borrower of the pair
  rw [hstore] at hd'
  cases ((hget env.newId).trans (if_pos rfl)).symm.trans hd'
  refine ⟨w, ?_, rfl⟩
  rw [hs]
  exact hw

omit hins

/-- **The insertion of a call.** When it goes through, the thread claims the new call; when it
raises and the call is there all the same, the call takes over from the thread. -/
theorem Own.op_createCall :
    Own D (exec env (.insertCall (CallAllocator.callDraft campaign pair)) σ).2
      (Function.update st p (Stage.nextPairClaimed campaign pair
        (.insertCall (CallAllocator.callDraft campaign pair))
        (exec env (.insertCall (CallAllocator.callDraft campaign pair)) σ).1)) := by
  have hexec := exec_cases env (.insertCall (CallAllocator.callDraft campaign pair)) σ
  rcases hins : CallRepo.insertCall (CallAllocator.callDraft campaign pair) env.newId env.now
      σ.calls with _ | r
  · -- the key is taken, and nothing is written whether or not something else strikes
    have happly : apply env (.insertCall (CallAllocator.callDraft campaign pair)) σ
        = (.error .duplicateKey, σ) := by
      simp only [apply, hins]
    obtain ⟨e, he, hstore⟩ : ∃ e,
        (exec env (.insertCall (CallAllocator.callDraft campaign pair)) σ).1 = .error e
          ∧ (exec env (.insertCall (CallAllocator.callDraft campaign pair)) σ).2 = σ := by
      rcases hexec with hexec | ⟨f, -, -, hexec⟩
      · exact ⟨_, by rw [hexec, happly], by rw [hexec, happly]⟩
      · refine ⟨f.exn, by rw [hexec], ?_⟩
        rw [hexec, happly]
        split <;> rfl
    exact h.createCall_unwritten hfacts hs hpermits hemits he (by rw [hstore])
  -- the key is free: the call is written and answered, written without an answer, or not written
  · have happly : apply env (.insertCall (CallAllocator.callDraft campaign pair)) σ
        = (.ok r.1, { σ with calls := r.2 }) := by
      simp only [apply, hins]
    rcases hexec with hexec | ⟨f, -, hraises, hexec⟩
    · exact h.createCall_answered hfacts hs hpermits hemits hins (hexec.trans happly)
    · have he : (exec env (.insertCall (CallAllocator.callDraft campaign pair)) σ).1
          = .error f.exn := by
        rw [hexec]
      cases happlied : f.applied with
      | false =>
        exact h.createCall_unwritten hfacts hs hpermits hemits he (by simp [hexec, happlied])
      | true =>
        refine h.createCall_written hfacts hs hpermits hemits hins (fun hkey => ?_) he ?_
        · rw [hkey] at hraises
          cases hraises
        · rw [hexec, happlied, happly]
          rfl

end CreateCall

/-- The pair in hand, up to the call. The retry gate and the read-back take nothing; a dial that is
called off gives the agent back first. -/
theorem Own.op_pairClaimed (hfacts : CallFacts σ st) (h : Own D σ st) {o : Op}
    (hpermits : D.Permits σ st p o env) (hemits : Emits (st p) o) {campaign : Campaign}
    {pair : ReservationPair} (hs : st p = .pairClaimed campaign pair) :
    Own D (exec env o σ).2
      (Function.update st p (Stage.nextPairClaimed campaign pair o (exec env o σ).1)) := by
  have hcopy := hemits
  rw [hs] at hcopy
  cases hcopy with
  | createCall => exact h.op_createCall hfacts hs hpermits hemits
  | retryClock =>
    rcases hr : (exec env .utcNow σ).1 with e | now
    · exact h.struck_step hfacts hpermits hemits (by rw [hs]; rfl) hr (fun _ hx => hx) nofun
    · exact h.stay_step hfacts hpermits hemits hs (fun _ hx => hx) nofun nofun nofun
  | retryGate name =>
    rcases hr : (exec env (.shouldAllowRetry name) σ).1 with e | allowed
    · exact h.struck_step hfacts hpermits hemits (by rw [hs]; rfl) hr (fun _ hx => hx) nofun
    · exact h.stay_step hfacts hpermits hemits hs (fun _ hx => hx) nofun nofun nofun
  | findExisting =>
    rcases hr : (exec env (.findCallByIdempotencyKey
        (CallAllocator.callDraft campaign pair).idempotencyKey) σ).1 with e | (_ | existing)
    · exact h.struck_step hfacts hpermits hemits (by rw [hs]; rfl) hr (fun _ hx => hx) nofun
    · exact h.stay_step hfacts hpermits hemits hs (fun _ hx => hx) nofun nofun nofun
    · have hanswer := hr
      rw [exec_of_ok hr] at hanswer
      obtain ⟨d, hd, hkey, rfl⟩ := CallRepo.findByIdempotencyKey_eq_some (Except.ok.inj hanswer)
      have hsound := hfacts.sound _ d hd
      show Own D _ (Function.update st p (Stage.nextPairClaimed.taken campaign pair d.fromMongo))
      rw [hsound.fromMongo]
      unfold Stage.nextPairClaimed.taken
      split
      -- a queued call is taken on, which is the only way to claim a call without inserting it
      · next hqueued =>
        obtain ⟨-, hopen⟩ := h.found_free hfacts hs hd (hsound.isFor_of_key hkey) hqueued
        refine h.keep_step hfacts hpermits hemits (.of_no_claim (by rw [hs]; rfl) ?_ nofun)
          (fun _ hx => hx) ?_
        · rw [hs]
          exact List.Subset.refl _
        · rw [exec_of_ok hr]
          refine ⟨d, hd, ?_, by simp [Discipline.tag, hopen], Or.inr ?_⟩
          · by_contra hattached
            have hrank := hsound.attached hattached
            rw [hqueued] at hrank
            exact absurd hrank (by decide)
          · rw [hsound.rank, hqueued]
            decide
      · exact h.stay_step hfacts hpermits hemits hs (fun _ hx => hx) nofun nofun nofun
  -- the dial is called off: the agent goes back, the borrower stays in hand
  | returnAgent =>
    have hmine : (Party.agent pair.agent.id, pair.workerId) ∈ (st p).holdings := by
      rw [hs]
      exact List.mem_cons_self
    rcases hr : (exec env (.releaseAgent pair.agent.id pair.workerId .AVAILABLE .ALLOCATOR) σ).1
      with e | released
    · show Own D _ (Function.update st p (pair.struck e))
      rw [ReservationPair.struck_eq_idle (hpermits.error_ne_cancelled (by rw [hs]; rfl) hr)]
      exact h.giveBack_step hfacts hpermits hemits (.of_no_claim (by rw [hs]; rfl)
        (List.nil_subset _) nofun) (fun x hx => hx) ⟨_, hmine⟩ (fun _ => List.not_mem_nil) trivial
    · refine h.giveBack_step hfacts hpermits hemits (.of_no_claim (by rw [hs]; rfl) ?_ nofun)
        (fun x hx => hx) ⟨_, hmine⟩ (fun w => ?_) trivial
      · rw [hs]
        exact List.subset_cons_self _ _
      · simp [Stage.nextPairClaimed, Stage.holdings]

/-! ## The allocator with a call

The thread has claimed its call and is the holder of both parties. It moves the call on, hands it to
the provider, and lets go of it at one of three places: the call has been ended by somebody else,
the provider's id has been attached, or the dial has failed and ended the call itself. -/

/-- The call before the provider knows of it. Between the two transitions recovery may have ended
it, and then `INITIATED` is refused. -/
theorem Own.op_callQueued (hfacts : CallFacts σ st) (h : Own D σ st) {o : Op}
    (hpermits : D.Permits σ st p o env) (hemits : Emits (st p) o) {campaign : Campaign}
    {pair : ReservationPair} {c : DocId} (hs : st p = .callQueued campaign pair c) :
    Own D (exec env o σ).2
      (Function.update st p (Stage.nextCallQueued campaign pair c o (exec env o σ).1)) := by
  have hclaims := h.claims p
  rw [hs] at hclaims
  obtain ⟨d, hd, hnone, htag, hrank⟩ := hclaims
  have hcopy := hemits
  rw [hs] at hcopy
  cases hcopy with
  -- whatever is answered, the call is still below `INITIATED` or has ended
  | reserveCall =>
    rcases hr : (exec env (.transitionCall c .RESERVED none) σ).1 with e | updated
    · exact h.struck_step hfacts hpermits hemits (by rw [hs]; rfl) hr (fun _ hx => hx) nofun
    · refine h.keep_step hfacts hpermits hemits (hs ▸ .refl nofun) (fun _ hx => hx) ?_
      rw [exec_of_ok hr]
      obtain ⟨d', hd', rfl | ⟨t, reason, ho, hfilter, rfl⟩ | ⟨_, ho, -⟩⟩ :=
        apply_call_cases env (.transitionCall c .RESERVED none) hd
      · exact ⟨_, hd', hnone, htag, hrank⟩
      · cases ho
        exact ⟨_, hd', hnone, htag,
          Or.inr (show CallSm.rank .RESERVED < CallSm.rank .INITIATED by decide)⟩
      · cases ho
  | initiateCall =>
    rcases hr : (exec env (.transitionCall c .INITIATED none) σ).1 with e | (_ | initiated)
    · exact h.struck_step hfacts hpermits hemits (by rw [hs]; rfl) hr (fun _ hx => hx) nofun
    · -- the call has been ended under the thread, which is left with its pair
      have hanswer := hr
      rw [exec_of_ok hr] at hanswer
      have hterm : d.terminal = true := by
        rcases CallRepo.transitionCall_cases env.now c .INITIATED none σ.calls
          with ⟨d', -, -, hans, -⟩ | ⟨hno, -, -⟩
        · cases hans.symm.trans (Except.ok.inj hanswer)
        · rcases hrank with hterm | hlt
          · exact hterm
          · by_contra hopen
            exact hno d hd ⟨by simpa using hopen, hlt⟩
      refine h.keep_step hfacts hpermits hemits ⟨?_, fun c' hc' _ d' hd' hlive => ?_, nofun⟩
        (fun _ hx => hx) trivial
      · rw [hs]
        exact List.Subset.refl _
      · rw [hs] at hc'
        cases hc'
        obtain ⟨d'', hd'', hev⟩ := exec_evolves env (.transitionCall c .INITIATED none) σ c d hd
        cases hd''.symm.trans hd'
        exact Bool.noConfusion (hlive.1.symm.trans (hev.frozen hterm).1)
    · refine h.keep_step hfacts hpermits hemits ⟨?_, fun c' hc' hne => ?_, nofun⟩
        (fun _ hx => hx) ?_
      · rw [hs]
        exact List.Subset.refl _
      · rw [hs] at hc'
        exact absurd hc' hne
      · rw [exec_of_ok hr]
        obtain ⟨d', hd', rfl | ⟨t, reason, ho, hfilter, rfl⟩ | ⟨_, ho, -⟩⟩ :=
          apply_call_cases env (.transitionCall c .INITIATED none) hd
        · exact ⟨_, hd', hnone, htag⟩
        · cases ho
          exact ⟨_, hd', hnone, htag⟩
        · cases ho

/-- The agent is set to `DIALING`, the call is bound to him and handed to the provider. All the
while the thread stays the holder. -/
theorem Own.op_callInitiated (hfacts : CallFacts σ st) (h : Own D σ st) {o : Op}
    (hpermits : D.Permits σ st p o env) (hemits : Emits (st p) o) {campaign : Campaign}
    {pair : ReservationPair} {c : DocId} (hs : st p = .callInitiated campaign pair c) :
    Own D (exec env o σ).2
      (Function.update st p (Stage.nextCallInitiated campaign pair c o (exec env o σ).1)) := by
  have hcopy := hemits
  rw [hs] at hcopy
  cases hcopy with
  | agentDials version =>
    rcases hr : (exec env (.transitionAgent pair.agent.id .RESERVED .DIALING .ALLOCATOR version)
      σ).1 with e | updated
    · exact h.struck_step hfacts hpermits hemits (by rw [hs]; rfl) hr (fun _ hx => hx) nofun
    · exact h.stay_step hfacts hpermits hemits hs (fun _ hx => hx) nofun nofun nofun
  | bindCall =>
    rcases hr : (exec env (.bindCall pair.agent.id pair.workerId c) σ).1 with e | bound
    · exact h.struck_step hfacts hpermits hemits (by rw [hs]; rfl) hr (fun _ hx => hx) nofun
    · exact h.stay_step hfacts hpermits hemits hs (fun _ hx => hx) nofun nofun nofun
  -- from here on the claim on the call is that of an originated one
  | originate name request hid =>
    rcases hr : (exec env (.originateCall name request) σ).1 with e | _
    · exact h.struck_step hfacts hpermits hemits (by rw [hs]; rfl) hr (fun _ hx => hx) nofun
    · refine h.keep_step hfacts hpermits hemits ⟨?_, fun c' hc' hne => ?_, nofun⟩
        (fun _ hx => hx) ?_
      · rw [hs]
        exact List.Subset.refl _
      · rw [hs] at hc'
        exact absurd hc' hne
      · have hclaims := h.claims p
        rw [hs] at hclaims
        rw [exec_of_ok hr]
        exact hclaims

/-- The answer of the provider. A timeout or a rejection leads to `fail`, an acceptance to
`attach_provider_call_id`, from where on events can find the call. -/
theorem Own.op_callOriginated (hfacts : CallFacts σ st) (h : Own D σ st) {o : Op}
    (hpermits : D.Permits σ st p o env) (hemits : Emits (st p) o) {campaign : Campaign}
    {pair : ReservationPair} {c : DocId} (hs : st p = .callOriginated campaign pair c) :
    Own D (exec env o σ).2
      (Function.update st p (Stage.nextCallOriginated campaign pair c o (exec env o σ).1)) := by
  have hcopy := hemits
  rw [hs] at hcopy
  cases hcopy with
  -- an exception of the provider is caught inside `_originate`, so the dial goes on
  | awaitAnswer name request =>
    rcases hr : (exec env (.awaitOriginate name request) σ).1 with e | result
    · have hne := hpermits.error_ne_cancelled (by rw [hs]; rfl) hr
      have hnext : Stage.nextCallOriginated campaign pair c (.awaitOriginate name request) (.error e)
          = .callOriginated campaign pair c := by
        cases e <;> first | rfl | exact absurd rfl hne
      rw [hnext]
      exact h.stay_step hfacts hpermits hemits hs (fun _ hx => hx) nofun nofun nofun
    · exact h.stay_step hfacts hpermits hemits hs (fun _ hx => hx) nofun nofun nofun
  | sampleHealth name success timedOut latency =>
    rcases hr : (exec env (.recordOriginate name success timedOut latency) σ).1 with e | _
    · exact h.struck_step hfacts hpermits hemits (by rw [hs]; rfl) hr (fun _ hx => hx) nofun
    · exact h.stay_step hfacts hpermits hemits hs (fun _ hx => hx) nofun nofun nofun
  -- and so is one of the hang-up
  | hangup name providerCallId =>
    rcases hr : (exec env (.hangupCall name providerCallId) σ).1 with e | _
    · have hne := hpermits.error_ne_cancelled (by rw [hs]; rfl) hr
      have hnext : Stage.nextCallOriginated campaign pair c (.hangupCall name providerCallId) (.error e)
          = .callOriginated campaign pair c := by
        cases e <;> first | rfl | exact absurd rfl hne
      rw [hnext]
      exact h.stay_step hfacts hpermits hemits hs (fun _ hx => hx) nofun nofun nofun
    · exact h.stay_step hfacts hpermits hemits hs (fun _ hx => hx) nofun nofun nofun
  -- refused if the call has ended meanwhile: nothing has changed then
  | attach providerCallId =>
    rcases hr : (exec env (.attachProviderCallId c providerCallId) σ).1 with e | (_ | attached)
    · exact h.struck_step hfacts hpermits hemits (by rw [hs]; rfl) hr (fun _ hx => hx) nofun
    · have hclaims := h.claims p
      rw [hs] at hclaims
      obtain ⟨d, hd, hnone, htag⟩ := hclaims
      have hanswer := hr
      rw [exec_of_ok hr] at hanswer
      refine h.keep_step hfacts hpermits hemits (hs ▸ .refl nofun) (fun _ hx => hx) ?_
      rw [exec_of_ok hr]
      rcases CallRepo.attachProviderCallId_cases env.now c providerCallId σ.calls
        with ⟨_, -, -, hans, -⟩ | ⟨-, hcalls⟩
      · cases hans.symm.trans (Except.ok.inj hanswer)
      · exact ⟨d, (congrArg (fun calls => Calls.get? calls c) hcalls).trans hd, hnone, htag⟩
    · -- from now on the call answers for its parties
      have hclaim : (st p).claim = some c := by rw [hs]; rfl
      exact h.handOver_step hfacts hpermits hemits hclaim rfl (fun _ hx => hx) nofun trivial
  | failCall reason =>
    rcases hr : (exec env (.transitionCall c .FAILED reason) σ).1 with e | updated
    · exact h.struck_step hfacts hpermits hemits (by rw [hs]; rfl) hr (fun _ hx => hx) nofun
    · refine h.keep_step hfacts hpermits hemits ⟨?_, fun c' hc' _ d' hd' hlive => ?_, nofun⟩
        (fun _ hx => hx) trivial
      · rw [hs]
        exact List.Subset.refl _
      · -- whether or not this transition found it unfinished, the call is finished now
        rw [hs] at hc'
        cases hc'
        rw [exec_of_ok hr] at hd'
        rcases CallRepo.transitionCall_cases env.now c .FAILED reason σ.calls
          with ⟨d, -, -, -, hget, -⟩ | ⟨hno, -, hcalls⟩
        · cases hget.symm.trans hd'
          cases hlive.1
        · have hd : σ.calls.get? c = some d' :=
            (congrArg (fun calls => Calls.get? calls c) hcalls).symm.trans hd'
          have hterm := (hfacts.sound c d' hd).ranked.terminal_of_not_filter rfl (hno d' hd)
          exact Bool.noConfusion (hlive.1.symm.trans hterm)

/-- The dial is over and the agent is back; the borrower follows. -/
theorem Own.op_agentReturned (hfacts : CallFacts σ st) (h : Own D σ st) {o : Op}
    (hpermits : D.Permits σ st p o env) (hemits : Emits (st p) o) {campaign : Campaign}
    {pair : ReservationPair} (hs : st p = .agentReturned campaign pair) :
    Own D (exec env o σ).2
      (Function.update st p (Stage.nextAgentReturned campaign pair o (exec env o σ).1)) := by
  have hcopy := hemits
  rw [hs] at hcopy
  cases hcopy with
  | returnBorrower outcome m b =>
    -- the borrower is the last thing the dial holds, whether the release is answered or not
    have hgive : ∀ s' : Stage, s'.holdings = [] → s'.claim = none →
        s'.Claims D (exec env (.releaseBorrower pair.borrower.id pair.workerId outcome m b)
          σ).2.calls →
        Own D (exec env (.releaseBorrower pair.borrower.id pair.workerId outcome m b) σ).2
          (Function.update st p s') := by
      intro s' hholds hclaim hclaims
      refine h.giveBack_step hfacts hpermits hemits (.of_no_claim (by rw [hs]; rfl) ?_ nofun)
        (fun x hx => hx) ⟨pair.workerId, ?_⟩ (fun w => ?_) hclaims
      · rw [hholds]
        exact List.nil_subset _
      · rw [hs]
        exact List.mem_singleton_self _
      · rw [hholds]
        exact List.not_mem_nil
    rcases hr : (exec env (.releaseBorrower pair.borrower.id pair.workerId outcome m b) σ).1
      with e | released
    · show Own D _ (Function.update st p (pair.struck e))
      rw [ReservationPair.struck_eq_idle (hpermits.error_ne_cancelled (by rw [hs]; rfl) hr)]
      exact hgive .idle rfl rfl trivial
    · exact hgive (.allocating campaign pair.workerId) rfl rfl trivial

/-! ## The event processor

Up to the transition of the call an event has nothing in hand. If the transition finishes the call,
the parties that the call held are the thread's, and it releases the agent first and the borrower
after him. -/

/-- **An event that finishes a call** makes its thread the holder of the parties of the call. Before
the transition the call itself stood for its parties. It is over now, so the claim passes to the
thread, which will release them. -/
theorem Own.op_eventMatched (hfacts : CallFacts σ st) (h : Own D σ st) {o : Op}
    (hpermits : D.Permits σ st p o env) (hemits : Emits (st p) o) {event : ProviderEvent}
    {seen : Call} (hs : st p = .eventMatched event seen) :
    Own D (exec env o σ).2
      (Function.update st p (Stage.nextEventMatched event o (exec env o σ).1)) := by
  have hclaim : (st p).claim = none := by rw [hs]; rfl
  have hcopy := hemits
  rw [hs] at hcopy
  cases hcopy with
  | ignoreEvent status applied hnone =>
    rcases hr : (exec env (.markProcessed event.providerName event.providerEventId status applied)
      σ).1 with e | _
    · exact h.end_step hfacts hpermits hemits rfl (fun _ hx => hx) nofun trivial
    · exact h.end_step hfacts hpermits hemits rfl (fun _ hx => hx) nofun trivial
  | @applyEvent _ _ t reason happlies =>
    rcases hr : (exec env (.transitionCall seen.id t reason) σ).1 with e | (_ | updated)
    · exact h.end_step hfacts hpermits hemits rfl (fun _ hx => hx) nofun trivial
    · exact h.end_step hfacts hpermits hemits rfl (fun _ hx => hx) nofun trivial
    · have hanswer := hr
      rw [exec_of_ok hr] at hanswer
      rcases CallRepo.transitionCall_cases env.now seen.id t reason σ.calls
        with ⟨d, hd, hfilter, hans, hget, -⟩ | ⟨-, hnone, -⟩
      · have hupdated : updated = (CallRepo.transitionUpdate t reason env.now d).fromMongo :=
          Option.some.inj ((Except.ok.inj hanswer).symm.trans hans)
        have hholds : updated.holdings = d.holdings := by
          rw [hupdated, Call.holdings_fromMongo,
            (CallRepo.transitionUpdate_evolves hfilter).holdings]
        have hclaims : (Stage.eventApplied event updated t none).Claims D
            (exec env (.transitionCall seen.id t reason) σ).2.calls :=
          fun g hg => absurd hg (Option.not_mem_none g)
        -- a call that goes on keeps its parties
        by_cases hterm : CallSm.isTerminal t = true
        · have hknows := hfacts.knows p
          rw [hs] at hknows
          obtain ⟨d', hd', -, hid, -⟩ := hknows
          cases hd.symm.trans hd'
          have hattached : d.providerCallId ≠ none := by simp [hid]
          have hfree := h.attached_free hfacts hd hattached
          have hlive : D.Live d := by
            refine ⟨hfilter.1, fun _ hqueued => ?_⟩
            have hrank := (hfacts.sound _ d hd).attached hattached
            rw [hqueued] at hrank
            exact absurd hrank (by decide)
          refine ⟨h.owned.transfer (Equiv.injective _) (Holds.takeOver hd hlive hfree
              (fun d' hd' hlive' => ?_) ?_ hclaim
              (fun c hc => liveBefore_exec hfacts hemits (by simp [hclaim]) nofun))
            fun _ x _ hh hheld => Held.exec hpermits hh.tracked (fun hx => hx) hheld,
            h.claims_update hfacts hemits hclaims⟩
          · rw [exec_of_ok hr] at hd'
            cases hget.symm.trans hd'
            have hopen : CallSm.isTerminal t = false := hlive'.1
            rw [hterm] at hopen
            cases hopen
          · show (if CallSm.isTerminal t then updated.holdings else []) ⊆ d.holdings
            rw [if_pos hterm, hholds]
            exact List.Subset.refl _
        · refine h.end_step hfacts hpermits hemits ?_ (fun _ hx => hx) nofun hclaims
          show (if CallSm.isTerminal t then updated.holdings else []) = []
          rw [if_neg hterm]
      -- a transition that is refused answers nothing, and here it has answered the call
      · cases hnone.symm.trans (Except.ok.inj hanswer)

/-- The agent of an event. For an event that finishes the call he is released, for any other he is
moved on; in both cases the thread first reads who he is. -/
theorem Own.op_eventApplied (hfacts : CallFacts σ st) (h : Own D σ st) {o : Op}
    (hpermits : D.Permits σ st p o env) (hemits : Emits (st p) o) {event : ProviderEvent}
    {updated : Call} {t : CallState} {agent : Option Agent}
    (hs : st p = .eventApplied event updated t agent) :
    Own D (exec env o σ).2
      (Function.update st p (Stage.nextEventApplied event updated t agent o (exec env o σ).1)) := by
  have hclaim : (st p).claim = none := by rw [hs]; rfl
  have hclaims := h.claims p
  rw [hs] at hclaims
  have hcopy := hemits
  rw [hs] at hcopy
  cases hcopy with
  | readAgent =>
    rcases hr : (exec env (.findAgentById updated.agentId) σ).1 with e | found
    · exact h.end_step hfacts hpermits hemits rfl (fun _ hx => hx) (by simp) trivial
    · refine h.keep_step hfacts hpermits hemits (.of_no_claim hclaim ?_ (by simp)) (fun _ hx => hx)
        fun g hg => ?_
      · rw [hs]
        exact List.Subset.refl _
      · have hanswer := hr
        rw [exec_of_ok hr] at hanswer
        have hfound : σ.agents.get? updated.agentId = some g :=
          (Except.ok.inj hanswer).trans (Option.mem_def.mp hg)
        exact Collection.key_of_get? hfound
  -- the agent that is released is the one of the call, because the claims of the stage say so
  | @settleAgent _ _ _ g s hterm hstate =>
    have hid : g.id = updated.agentId := hclaims g rfl
    have hmine : (Party.agent g.id, updated.createdByWorker) ∈ (st p).holdings := by
      rw [hs, hid]
      simp [Stage.holdings, hterm, Call.holdings]
    rcases hr : (exec env (.releaseAgent g.id updated.createdByWorker s .EVENT_PROCESSOR) σ).1
      with e | released
    · exact h.giveBack_step hfacts hpermits hemits (.of_no_claim hclaim (List.nil_subset _) (by simp))
        (fun x hx => hx) ⟨_, hmine⟩ (fun _ => List.not_mem_nil) trivial
    · refine h.giveBack_step hfacts hpermits hemits (.of_no_claim hclaim ?_ (by simp))
        (fun x hx => hx) ⟨_, hmine⟩ (fun w => ?_) trivial
      · rw [hs]
        simp [Stage.nextEventApplied, Stage.holdings, hterm, Call.holdings]
      · simp [Stage.nextEventApplied, Stage.holdings]
  | @advanceAgent _ _ _ g s hopen hvalid hstate =>
    rcases hr : (exec env (.transitionAgent g.id g.state s .EVENT_PROCESSOR g.stateVersion) σ).1
      with e | moved
    · exact h.end_step hfacts hpermits hemits rfl (fun _ hx => hx) (by simp) trivial
    · exact h.stay_step hfacts hpermits hemits hs (fun _ hx => hx) (by simp) (by simp) (by simp)
  | settleBorrower outcome m b hterm =>
    have hmine : (Party.borrower updated.borrowerId, updated.createdByWorker)
        ∈ (st p).holdings := by
      rw [hs]
      simp [Stage.holdings, hterm, Call.holdings]
    rcases hr : (exec env (.releaseBorrower updated.borrowerId updated.createdByWorker outcome m b)
      σ).1 with e | released
    · exact h.giveBack_step hfacts hpermits hemits (.of_no_claim hclaim (List.nil_subset _) (by simp))
        (fun x hx => hx) ⟨_, hmine⟩ (fun _ => List.not_mem_nil) trivial
    · exact h.giveBack_step hfacts hpermits hemits (.of_no_claim hclaim (List.nil_subset _) (by simp))
        (fun x hx => hx) ⟨_, hmine⟩ (fun _ => List.not_mem_nil) trivial
  | markApplied status applied hopen =>
    rcases hr : (exec env (.markProcessed event.providerName event.providerEventId status applied)
      σ).1 with e | _
    · exact h.end_step hfacts hpermits hemits rfl (fun _ hx => hx) (by simp) trivial
    · exact h.end_step hfacts hpermits hemits rfl (fun _ hx => hx) (by simp) trivial

/-- The borrower of a call that an event has finished. -/
theorem Own.op_eventAgentReturned (hfacts : CallFacts σ st) (h : Own D σ st) {o : Op}
    (hpermits : D.Permits σ st p o env) (hemits : Emits (st p) o) {event : ProviderEvent}
    {updated : Call} {t : CallState} (hs : st p = .eventAgentReturned event updated t) :
    Own D (exec env o σ).2
      (Function.update st p (Stage.nextEventClosing event o (exec env o σ).1)) := by
  have hclaim : (st p).claim = none := by rw [hs]; rfl
  have hcopy := hemits
  rw [hs] at hcopy
  cases hcopy with
  | settleLoneBorrower outcome m b =>
    have hmine : (Party.borrower updated.borrowerId, updated.createdByWorker)
        ∈ (st p).holdings := by
      rw [hs]
      exact List.mem_singleton_self _
    rcases hr : (exec env (.releaseBorrower updated.borrowerId updated.createdByWorker outcome m b)
      σ).1 with e | released
    · exact h.giveBack_step hfacts hpermits hemits (.of_no_claim hclaim (List.nil_subset _) nofun)
        (fun x hx => hx) ⟨_, hmine⟩ (fun _ => List.not_mem_nil) trivial
    · exact h.giveBack_step hfacts hpermits hemits (.of_no_claim hclaim (List.nil_subset _) nofun)
        (fun x hx => hx) ⟨_, hmine⟩ (fun _ => List.not_mem_nil) trivial

/-- Before the call and after the borrower an event holds nothing, and its bookkeeping gives nothing
back. -/
theorem Own.op_eventBare (hfacts : CallFacts σ st) (h : Own D σ st) {o : Op}
    (hpermits : D.Permits σ st p o env) (hemits : Emits (st p) o) {event : ProviderEvent}
    (hs : st p = .eventReceived event ∨ st p = .eventRecorded event ∨ st p = .eventClosing event
      ∨ st p = .eventFailed event) :
    Own D (exec env o σ).2 (Function.update st p ((st p).next o (exec env o σ).1)) := by
  have hmark : ∀ n k status applied, o = .markProcessed n k status applied →
      Own D (exec env o σ).2
        (Function.update st p (Stage.nextEventClosing event o (exec env o σ).1)) := by
    rintro n k status applied rfl
    rcases hr : (exec env (.markProcessed n k status applied) σ).1 with e | _
    all_goals exact h.end_step hfacts hpermits hemits rfl (fun _ hx => hx) nofun trivial
  have hcopy := hemits
  -- in none of the four stages does a processor hold anything
  rcases hs with hs | hs | hs | hs
  all_goals rw [hs] at hcopy ⊢
  · cases hcopy with
    | record =>
      rcases hr : (exec env (.recordEvent event) σ).1 with e | (_ | _)
      all_goals exact h.end_step hfacts hpermits hemits rfl (fun _ hx => hx) nofun trivial
  · cases hcopy with
    | matchCall =>
      rcases hr : (exec env (.findByProviderCallId event.providerName event.providerCallId) σ).1
        with e | (_ | seen)
      all_goals exact h.end_step hfacts hpermits hemits rfl (fun _ hx => hx) nofun trivial
  · cases hcopy with
    | markEvent status applied => exact hmark _ _ _ _ rfl
  · cases hcopy with
    | markFailed status applied => exact hmark _ _ _ _ rfl

/-! ## Recovery

A pass holds nothing. What it ends were live calls of nobody's, whose parties it then frees, or
bound calls of agents whom it may free; both are left to the discipline. -/

/-- Five kinds of operations can free somebody. For agents the filter of the update is exactly what
`RecoveryFrees` says; borrowers are not followed where recovery runs. -/
theorem Own.op_sweeping (hfacts : CallFacts σ st) (h : Own D σ st) {o : Op}
    (hpermits : D.Permits σ st p o env) (hemits : Emits (st p) o) {stale : List Call}
    (hs : st p = .sweeping stale) :
    Own D (exec env o σ).2
      (Function.update st p (Stage.nextSweeping stale o (exec env o σ).1)) := by
  have hrec : D.recovery = true := by
    have := h.claims p
    rwa [hs] at this
  have hcopy := hemits
  rw [hs] at hcopy
  cases hcopy with
  | staleCalls olderThan limit =>
    rcases hr : (exec env (.findStaleCalls olderThan limit) σ).1 with e | orphans
    all_goals exact h.end_step hfacts hpermits hemits rfl (fun _ hx => hx) nofun hrec
  -- a recovery release names the worker of an ended call; the discipline says when it may come
  | recoverAgent a w =>
    refine h.recovery_step hfacts hpermits hemits hs (fun k g g' hg hgive hwrite => ?_) nofun
    cases hgive
    cases hwrite with
    | unchanged => exact Or.inl rfl
    | release hworker hstate => exact Or.inr ⟨rfl, g, hg, hworker, hstate⟩
  | reclaimAgent candidate now =>
    refine h.recovery_step hfacts hpermits hemits hs (fun k g g' hg hgive hwrite => ?_) nofun
    cases hgive
    cases hwrite with
    | unchanged => exact Or.inl rfl
    | reclaim hid hstate hversion hlease hexpired =>
      exact Or.inr ⟨rfl, ⟨g, hg, hstate, hversion⟩, g, _, hg, hlease, hexpired⟩
  | recoverBorrower b w outcome m backoff =>
    exact h.recovery_step hfacts hpermits hemits hs
      (fun _ _ _ _ hgive _ => Party.noConfusion hgive) nofun
  | reclaimBorrower candidate now =>
    exact h.recovery_step hfacts hpermits hemits hs
      (fun _ _ _ _ hgive _ => Party.noConfusion hgive) nofun
  | _ => exact h.end_step hfacts hpermits hemits rfl (fun _ hx => hx) nofun hrec

/-! ## Every step

The case analysis over all stages, each with its own lemma. -/

/-- **One operation of one thread keeps the ownership invariant.** -/
theorem Own.op (hfacts : CallFacts σ st) (h : Own D σ st) (p : Nat) {o : Op}
    (hpermits : D.Permits σ st p o env) (hemits : Emits (st p) o) :
    Own D (exec env o σ).2 (Function.update st p ((st p).next o (exec env o σ).1)) := by
  -- by the stage of the thread that performs
  cases hs : st p with
  | idle | eventDuplicate event =>
    rw [hs] at hemits
    cases hemits
  | allocating campaign w => exact h.op_allocating hfacts hpermits hemits hs
  | agentClaimed campaign w agent => exact h.op_agentClaimed hfacts hpermits hemits hs
  | pairClaimed campaign pair => exact h.op_pairClaimed hfacts hpermits hemits hs
  | callQueued campaign pair c => exact h.op_callQueued hfacts hpermits hemits hs
  | callInitiated campaign pair c => exact h.op_callInitiated hfacts hpermits hemits hs
  | callOriginated campaign pair c => exact h.op_callOriginated hfacts hpermits hemits hs
  | agentReturned campaign pair => exact h.op_agentReturned hfacts hpermits hemits hs
  | compensating pair =>
    have := h.claims p
    rw [hs] at this
    exact this.elim
  | eventReceived event =>
    have := h.op_eventBare hfacts hpermits hemits (Or.inl hs)
    rwa [hs] at this
  | eventRecorded event =>
    have := h.op_eventBare hfacts hpermits hemits (Or.inr (Or.inl hs))
    rwa [hs] at this
  | eventMatched event seen => exact h.op_eventMatched hfacts hpermits hemits hs
  | eventApplied event updated t agent => exact h.op_eventApplied hfacts hpermits hemits hs
  | eventAgentReturned event updated t =>
    exact h.op_eventAgentReturned hfacts hpermits hemits hs
  | eventClosing event =>
    have := h.op_eventBare hfacts hpermits hemits (Or.inr (Or.inr (Or.inl hs)))
    rwa [hs] at this
  | eventFailed event =>
    have := h.op_eventBare hfacts hpermits hemits (Or.inr (Or.inr (Or.inr hs)))
    rwa [hs] at this
  | sweeping stale => exact h.op_sweeping hfacts hpermits hemits hs
  | acting =>
    have hcopy := hemits
    rw [hs] at hcopy
    cases hcopy <;> exact h.end_step hfacts hpermits hemits rfl (fun _ hx => hx) nofun trivial
  | wrapping =>
    have hcopy := hemits
    rw [hs] at hcopy
    cases hcopy <;> exact h.end_step hfacts hpermits hemits rfl (fun _ hx => hx) nofun trivial

/-! ## Threads that start and stop

Starting a job takes nothing in hand. A thread that is killed leaves its parties to the call it has
claimed, if there is one: that call is live and unclaimed from then on, as after an exception. -/

theorem LiveBefore.refl (σ : Store) (c : DocId) : LiveBefore D σ σ c :=
  fun d' hd' hlive => ⟨d', hd', hlive, rfl⟩

theorem Own.claims_set {s' : Stage} (h : Own D σ st) (hs' : s'.Claims D σ.calls) (q : Nat) :
    (Function.update st p s' q).Claims D σ.calls := by
  by_cases hq : q = p
  · rw [hq, Function.update_self]
    exact hs'
  · rw [Function.update_of_ne hq]
    exact h.claims q

/-- A job that starts holds nothing, and a pass may start where the discipline reckons with
recovery. -/
theorem Own.spawn (h : Own D σ st) (hidle : st p = .idle) (job : Job)
    (hjob : job = .runSweeps → D.recovery = true) :
    Own D σ (Function.update st p job.start) where
  owned := by
    refine h.owned.transfer Function.injective_id (Holds.keep ?_ (fun c _ => LiveBefore.refl σ c)
      fun c hc => ?_) fun _ _ _ _ hheld => hheld
    · cases job <;> exact List.nil_subset _
    · rw [hidle] at hc
      cases hc
  claims := h.claims_set (by
    cases job with
    | runSweeps => exact hjob rfl
    | _ => trivial)

/-- A thread that stops leaves what it holds to the call it works on. -/
theorem Own.drop (hfacts : CallFacts σ st) (h : Own D σ st) (p : Nat) :
    Own D σ (Function.update st p .idle) where
  owned := by
    cases hc : (st p).claim with
    | none =>
      refine h.owned.transfer Function.injective_id (Holds.keep (List.nil_subset _)
        (fun c _ => LiveBefore.refl σ c) fun c hc' => ?_) fun _ _ _ _ hheld => hheld
      rw [hc] at hc'
      cases hc'
    | some c₀ =>
      obtain ⟨d, hd, -, hparties⟩ := h.claim_holds hfacts hc
      refine h.owned.transfer (Equiv.injective _) (Holds.handOver rfl
        (fun c _ => LiveBefore.refl σ c) (fun c hc' => Option.some.inj (hc'.symm.trans hc))
        fun d' hd' x w hw => ?_) fun _ _ _ _ hheld => hheld
      cases hd.symm.trans hd'
      exact hparties x w hw
  claims := h.claims_set trivial

/-! ## Reachable worlds

A regime governs a discipline when every operation it lets through is permitted. The guard of a
regime sees stages and store, so it may use the invariant itself. -/

/-- A regime under which the discipline is kept. -/
structure Discipline.Governs (D : Discipline) (R : SystemRegime) : Prop where
  jobs : R.admits .runSweeps → D.recovery = true
  ops : ∀ {σ st p o env}, CallFacts σ st → Own D σ st → Emits (st p) o → R.guard σ st p o env →
    D.Permits σ st p o env

theorem Own.preserves (cfg : Config) {R : SystemRegime} (hR : D.Governs R) :
    (system cfg).PreservesRunning R fun σ _ st => CallFacts σ st ∧ Own D σ st where
  spawn := fun p job h hadmits hidle =>
    ⟨h.1.set p (CallFacts.knows_start _ job), h.2.spawn hidle job fun hjob => hR.jobs (hjob ▸ hadmits)⟩
  op := fun p _ env h hemits hguard =>
    ⟨h.1.op p env hemits, h.2.op h.1 p (hR.ops h.1 h.2 hemits hguard) hemits⟩
  drop := fun p h => ⟨h.1.set p trivial, h.2.drop h.1 p⟩

/-- Before any call exists, nobody holds anything. -/
theorem Own.init {σ₀ : Store} (hcalls : ∀ c, σ₀.calls.get? c = none) :
    Own D σ₀ fun _ => .idle where
  owned := by
    refine ⟨fun {k k' x t t'} hk => ?_, fun {k x t} hk => ?_⟩
    all_goals
      cases k with
      | thread p =>
        obtain ⟨-, w, hw, -⟩ := hk
        exact absurd hw List.not_mem_nil
      | call c =>
        obtain ⟨-, d, hd, -⟩ := hk
        rw [hcalls c] at hd
        cases hd
  claims := fun _ => trivial

/-- **The ownership invariant holds in every reachable world** of a governed regime. -/
theorem own_of_reachable {cfg : Config} {R : SystemRegime} (hR : D.Governs R) {σ₀ : Store}
    {w : SystemWorld} (hcalls : ∀ c, σ₀.calls.get? c = none)
    (h : Reachable (system cfg) R (World.fresh σ₀) w) :
    CallFacts w.store (w.stageOf (system cfg)) ∧ Own D w.store (w.stageOf (system cfg)) := by
  refine h.invariant_running system_conforms (Own.preserves cfg hR) (World.Obeys.fresh _ σ₀) ?_
  refine ⟨⟨fun c d hd => ?_, fun _ => trivial⟩, Own.init hcalls⟩
  have hnone := hcalls c
  rw [show σ₀.calls.get? c = some d from hd] at hnone
  cases hnone

end SmartDialer
