import SmartDialer.System.Conformance

/-!
# How calls evolve

Two facts that hold whatever is running. `CallsEvolve`: no operation removes a call, changes who
it is about, lowers its rank or touches a finished call. `CallFacts`: every call is sound, and
what a thread has learned about a call at its stage stays true. From them, every transition that
any stage emits is an edge of `CALL_TRANSITIONS`.

* `Call.Evolves`, `exec_evolves`: what no operation undoes about a call.
* `CallsSound`, `CallsRanked`: what every call document satisfies; the second is the part that any
  operation keeps, by whomever it is performed.
* `Stage.Knows`, `knows_next`: what a thread has been told about its call.
* `canTransition_of_emits`: the table of transitions is respected, although the database does not
  know it.
-/

namespace SmartDialer

open DocStore Concurrent

/-! ## One call over time

The database lets a call move when its rank rises and it is not finished. What follows from the
filter alone is collected here, before any thread comes in. -/

/-- What every call document satisfies, whoever wrote it last. -/
structure Call.Sound (d : Call) : Prop where
  rank : d.stateRank = CallSm.rank d.state
  terminal : d.terminal = CallSm.isTerminal d.state
  attached : d.providerCallId ≠ none → CallSm.rank .INITIATED ≤ CallSm.rank d.state
  unanswered : CallSm.rank d.state < CallSm.rank .ANSWERED → d.answeredAt = none
  key : d.idempotencyKey
    = buildIdempotencyKey d.campaignId d.agentId d.borrowerId d.attempt

/-- A call that has been started and is not over. -/
def Call.Live (d : Call) : Prop := d.terminal = false ∧ d.state ≠ .QUEUED

/-- `d'` is `d` at a later time. -/
structure Call.Evolves (d d' : Call) : Prop where
  campaignId : d'.campaignId = d.campaignId
  agentId : d'.agentId = d.agentId
  borrowerId : d'.borrowerId = d.borrowerId
  attempt : d'.attempt = d.attempt
  createdByWorker : d'.createdByWorker = d.createdByWorker
  providerName : d'.providerName = d.providerName
  providerCallId : d.providerCallId ≠ none → d'.providerCallId = d.providerCallId
  rank : d.stateRank ≤ d'.stateRank
  frozen : d.terminal = true → d'.terminal = true ∧ d'.state = d.state
    ∧ d'.endedAt = d.endedAt ∧ d'.failureReason = d.failureReason

namespace Call.Evolves

theorem refl (d : Call) : d.Evolves d :=
  ⟨rfl, rfl, rfl, rfl, rfl, rfl, fun _ => rfl, le_rfl, fun h => ⟨h, rfl, rfl, rfl⟩⟩

theorem trans {d d' d'' : Call} (h : d.Evolves d') (h' : d'.Evolves d'') : d.Evolves d'' where
  campaignId := h'.campaignId.trans h.campaignId
  agentId := h'.agentId.trans h.agentId
  borrowerId := h'.borrowerId.trans h.borrowerId
  attempt := h'.attempt.trans h.attempt
  createdByWorker := h'.createdByWorker.trans h.createdByWorker
  providerName := h'.providerName.trans h.providerName
  providerCallId := fun hd => (h'.providerCallId (by rwa [h.providerCallId hd])).trans
    (h.providerCallId hd)
  rank := h.rank.trans h'.rank
  frozen := fun hd => by
    obtain ⟨hterm, hstate, hended, hreason⟩ := h.frozen hd
    obtain ⟨hterm', hstate', hended', hreason'⟩ := h'.frozen hterm
    exact ⟨hterm', hstate'.trans hstate, hended'.trans hended, hreason'.trans hreason⟩

end Call.Evolves

theorem CallRepo.transitionUpdate_evolves {t : CallState} {reason : Option String} {now : Time}
    {d : Call} (h : transitionFilter t d) : d.Evolves (transitionUpdate t reason now d) := by
  obtain ⟨hterm, hrank⟩ := h
  unfold transitionUpdate
  obtain ⟨i, r, a, c, hstamp⟩ := stampState_eq t now d
  rw [hstamp]
  exact ⟨rfl, rfl, rfl, rfl, rfl, rfl, fun _ => rfl, hrank.le, fun h => by simp [hterm] at h⟩

/-- Only the `ANSWERED` transition stamps `answered_at`. -/
theorem CallRepo.transitionUpdate_answeredAt {t : CallState} {reason : Option String} {now : Time}
    {d : Call} : (transitionUpdate t reason now d).answeredAt
      = if t = .ANSWERED then some now else d.answeredAt := by
  cases t <;> rfl

/-- A transition leaves a sound call sound. -/
theorem CallRepo.transitionUpdate_sound {t : CallState} {reason : Option String} {now : Time}
    {d : Call} (h : transitionFilter t d) (hd : d.Sound) :
    (transitionUpdate t reason now d).Sound := by
  have hrank := h.2
  rw [hd.rank] at hrank
  have hunanswered : CallSm.rank t < CallSm.rank .ANSWERED →
      (transitionUpdate t reason now d).answeredAt = none := by
    intro hlt
    rw [transitionUpdate_answeredAt, if_neg (fun ht => absurd (ht ▸ hlt) (lt_irrefl _))]
    exact hd.unanswered (hrank.trans hlt)
  revert hunanswered
  unfold transitionUpdate
  obtain ⟨i, r, a, c, hstamp⟩ := stampState_eq t now d
  rw [hstamp]
  exact fun hunanswered =>
    ⟨rfl, rfl, fun hid => (hd.attached hid).trans hrank.le, hunanswered, hd.key⟩

theorem CallRepo.toCall_sound (draft : CallDraft) (id : DocId) (now : Time) :
    (draft.toCall id now).Sound :=
  ⟨rfl, rfl, fun h => absurd rfl h, fun _ => rfl, rfl⟩

/-- `state_rank` and `terminal` fit the state. -/
structure Call.Ranked (d : Call) : Prop where
  rank : d.stateRank = CallSm.rank d.state
  terminal : d.terminal = CallSm.isTerminal d.state

theorem CallRepo.transitionUpdate_ranked {t : CallState} {reason : Option String} {now : Time}
    {d : Call} : (transitionUpdate t reason now d).Ranked := by
  unfold transitionUpdate
  obtain ⟨i, r, a, c, hstamp⟩ := stampState_eq t now d
  rw [hstamp]
  exact ⟨rfl, rfl⟩

theorem Call.Sound.ranked {d : Call} (hd : d.Sound) : d.Ranked := ⟨hd.rank, hd.terminal⟩

theorem transitionFilter_iff {d : Call} {t : CallState} (hd : d.Sound) :
    CallRepo.transitionFilter t d
      ↔ CallSm.isTerminal d.state = false ∧ CallSm.rank d.state < CallSm.rank t := by
  unfold CallRepo.transitionFilter
  rw [hd.terminal, hd.rank]

/-- A finished call is beyond every transition. -/
theorem Call.Ranked.terminal_of_not_filter {d : Call} (hd : d.Ranked) {t : CallState}
    (ht : CallSm.isTerminal t = true) (h : ¬ CallRepo.transitionFilter t d) :
    d.terminal = true := by
  by_contra hterm
  have hterm : d.terminal = false := by simpa using hterm
  refine h ⟨hterm, ?_⟩
  rw [hd.terminal] at hterm
  have hle := CallSm.rank_le_six d.state
  have hne : CallSm.rank d.state ≠ 6 := fun h6 =>
    absurd ((CallSm.isTerminal_iff_rank d.state).mpr h6) (by simp [hterm])
  have h6 := (CallSm.isTerminal_iff_rank t).mp ht
  rw [hd.rank]
  omega

/-- Reading a sound call through the model validator changes nothing. -/
theorem Call.Sound.fromMongo {d : Call} (hd : d.Sound) : d.fromMongo = d := by
  unfold Call.fromMongo
  rw [← hd.terminal]
  have hrank : callStateRank d.state = d.stateRank := hd.rank.symm
  rw [hrank]

/-! ## All calls over time

Four operations write to calls: the insertion, the transition, the recording of the provider's id,
and no other. `apply_call_cases` and `apply_call_new` list what they do to an old and to a new call,
and the rest is by cases on these. -/

/-- Every call of the old collection is in the new one, later in its life. -/
def CallsEvolve (calls calls' : Calls) : Prop :=
  ∀ c d, calls.get? c = some d → ∃ d', calls'.get? c = some d' ∧ d.Evolves d'

/-- Every call is sound. -/
def CallsSound (calls : Calls) : Prop := ∀ c d, calls.get? c = some d → d.Sound

/-- Every call has the rank and the flag of its state. -/
def CallsRanked (calls : Calls) : Prop := ∀ c d, calls.get? c = some d → d.Ranked

theorem CallsSound.ranked {calls : Calls} (h : CallsSound calls) : CallsRanked calls :=
  fun c d hd => (h c d hd).ranked

theorem CallsEvolve.refl (calls : Calls) : CallsEvolve calls calls :=
  fun _ d hd => ⟨d, hd, .refl d⟩

theorem CallsEvolve.trans {calls calls' calls'' : Calls} (h : CallsEvolve calls calls')
    (h' : CallsEvolve calls' calls'') : CallsEvolve calls calls'' := by
  intro c d hd
  obtain ⟨d', hd', hev⟩ := h c d hd
  obtain ⟨d'', hd'', hev'⟩ := h' c d' hd'
  exact ⟨d'', hd'', hev.trans hev'⟩

/-- **What one operation makes of a call**: nothing new, a transition, or a provider id. Every
invariant about calls is derived from this lemma and from `apply_call_new`, without another look at
the operations. -/
theorem apply_call_cases (env : Env) (o : Op) {σ : Store} {c : DocId} {d : Call}
    (hd : σ.calls.get? c = some d) :
    ∃ d', (apply env o σ).2.calls.get? c = some d' ∧ (d' = d
      ∨ (∃ t reason, o = .transitionCall c t reason ∧ CallRepo.transitionFilter t d
        ∧ d' = CallRepo.transitionUpdate t reason env.now d)
      ∨ ∃ p, o = .attachProviderCallId c p ∧ d.providerCallId = none
        ∧ d' = { d with providerCallId := p, updatedAt := env.now }) := by
  cases o with
  | insertCall draft =>
    simp only [apply]
    cases hins : CallRepo.insertCall draft env.newId env.now σ.calls with
    | none => exact ⟨d, hd, Or.inl rfl⟩
    | some r =>
      obtain ⟨-, hnone, hget, -⟩ := CallRepo.insertCall_eq_some hins
      -- the id of the new call was not taken, so it is not this one
      have hc : c ≠ env.newId := fun hc => by
        rw [hc, hnone] at hd
        cases hd
      exact ⟨d, ((hget c).trans (if_neg hc)).trans hd, Or.inl rfl⟩
  | transitionCall c₀ t reason =>
    rcases CallRepo.transitionCall_cases env.now c₀ t reason σ.calls
      with ⟨d₀, hd₀, hfilter, -, hget, hother⟩ | ⟨-, -, hcalls⟩
    · by_cases hc : c = c₀
      · subst hc
        rw [hd] at hd₀
        cases hd₀
        exact ⟨_, hget, Or.inr (Or.inl ⟨t, reason, rfl, hfilter, rfl⟩)⟩
      · exact ⟨d, (hother c hc).trans hd, Or.inl rfl⟩
    · exact ⟨d, (congrArg (fun calls => Calls.get? calls c) hcalls).trans hd, Or.inl rfl⟩
  | attachProviderCallId c₀ p =>
    rcases CallRepo.attachProviderCallId_cases env.now c₀ p σ.calls
      with ⟨d₀, hd₀, hnone, -, hget, hother⟩ | ⟨-, hcalls⟩
    · by_cases hc : c = c₀
      · subst hc
        rw [hd] at hd₀
        cases hd₀
        exact ⟨_, hget, Or.inr (Or.inr ⟨p, rfl, hnone, rfl⟩)⟩
      · exact ⟨d, (hother c hc).trans hd, Or.inl rfl⟩
    · exact ⟨d, (congrArg (fun calls => Calls.get? calls c) hcalls).trans hd, Or.inl rfl⟩
  | _ => exact ⟨d, hd, Or.inl rfl⟩

/-- **Where a new call comes from**: only an insertion under an unused id and key adds one. So a
call that was not there is at its beginning, and no other call has its key. -/
theorem apply_call_new (env : Env) (o : Op) {σ : Store} {c : DocId} {d' : Call}
    (hnone : σ.calls.get? c = none) (hd' : (apply env o σ).2.calls.get? c = some d') :
    ∃ draft, o = .insertCall draft ∧ c = env.newId ∧ d' = draft.toCall c env.now
      ∧ ∀ e f, σ.calls.get? e = some f → f.idempotencyKey ≠ draft.idempotencyKey := by
  have hsame : (apply env o σ).2.calls.get? c = σ.calls.get? c → False := fun h => by
    rw [h, hnone] at hd'
    cases hd'
  cases o with
  | insertCall draft =>
    simp only [apply] at hd'
    cases hins : CallRepo.insertCall draft env.newId env.now σ.calls with
    | none =>
      rw [hins] at hd'
      cases hnone.symm.trans hd'
    | some r =>
      rw [hins] at hd'
      -- only an insertion makes a call, and this is the one it makes
      obtain ⟨-, -, hget, hkey⟩ := CallRepo.insertCall_eq_some hins
      have hd'' : r.2.get? c = some d' := hd'
      rw [hget] at hd''
      by_cases hc : c = env.newId
      · rw [if_pos hc] at hd''
        exact ⟨draft, rfl, hc, by rw [hc]; exact (Option.some.inj hd'').symm, hkey⟩
      · rw [if_neg hc, hnone] at hd''
        cases hd''
  | transitionCall c₀ t reason =>
    rcases CallRepo.transitionCall_cases env.now c₀ t reason σ.calls
      with ⟨d₀, hd₀, -, -, -, hother⟩ | ⟨-, -, hcalls⟩
    · have hc : c ≠ c₀ := fun hc => by
        rw [← hc, hnone] at hd₀
        cases hd₀
      exact absurd (hother c hc) hsame
    · exact absurd (congrArg (fun calls => Calls.get? calls c) hcalls) hsame
  | attachProviderCallId c₀ p =>
    rcases CallRepo.attachProviderCallId_cases env.now c₀ p σ.calls
      with ⟨d₀, hd₀, -, -, -, hother⟩ | ⟨-, hcalls⟩
    · have hc : c ≠ c₀ := fun hc => by
        rw [← hc, hnone] at hd₀
        cases hd₀
      exact absurd (hother c hc) hsame
    · exact absurd (congrArg (fun calls => Calls.get? calls c) hcalls) hsame
  | _ => exact absurd rfl hsame

/-- The call that an insertion answers is new, of this moment, and what the draft says. -/
theorem insertCall_ok {σ : Store} {env : Env} {draft : CallRepo.CallDraft} {created : Call}
    (hr : (exec env (.insertCall draft) σ).1 = .ok created) :
    created = draft.toCall env.newId env.now ∧ σ.calls.get? created.id = none
      ∧ (exec env (.insertCall draft) σ).2.calls.get? created.id = some created := by
  have hexec := exec_of_ok hr
  rw [hexec] at hr ⊢
  simp only [apply] at hr ⊢
  cases hins : CallRepo.insertCall draft env.newId env.now σ.calls with
  | none =>
    rw [hins] at hr
    cases hr
  | some r =>
    rw [hins] at hr
    obtain ⟨hdoc, hnone, hget, -⟩ := CallRepo.insertCall_eq_some hins
    obtain rfl : r.1 = created := Except.ok.inj hr
    rw [hdoc]
    exact ⟨rfl, hnone, (hget env.newId).trans (if_pos rfl)⟩

/-- What one operation makes of a call, as a relation. -/
def CallWrite (now : Time) (o : Op) (d d' : Call) : Prop :=
  d' = d
    ∨ (∃ t reason, o = .transitionCall d.id t reason ∧ CallRepo.transitionFilter t d
      ∧ d' = CallRepo.transitionUpdate t reason now d)
    ∨ ∃ p, o = .attachProviderCallId d.id p ∧ d.providerCallId = none
      ∧ d' = { d with providerCallId := p, updatedAt := now }

/-- No operation but an insertion adds a call, none removes one, and each is rewritten as
`CallWrite` says. -/
theorem exec_calls (env : Env) {o : Op} (σ : Store) (hinsert : ∀ draft, o ≠ .insertCall draft)
    (c : DocId) :
    Option.Rel (CallWrite env.now o) (σ.calls.get? c) ((exec env o σ).2.calls.get? c) := by
  rcases exec_store env o σ with hstore | hstore
  · rw [hstore]
    exact rel_refl (R := CallWrite env.now o) (fun _ => Or.inl rfl) _
  · rw [hstore]
    cases hd : σ.calls.get? c with
    | some d =>
      obtain rfl := Calls.id_of_get? hd
      obtain ⟨d', hd', hcases⟩ := apply_call_cases env o hd
      rw [hd']
      exact .some hcases
    | none =>
      cases hd' : (apply env o σ).2.calls.get? c with
      | none => exact .none
      | some d' =>
        obtain ⟨draft, ho, -⟩ := apply_call_new env o hd hd'
        exact absurd ho (hinsert draft)

/-- **No operation undoes anything about a call.** -/
theorem apply_evolves (env : Env) (o : Op) (σ : Store) :
    CallsEvolve σ.calls (apply env o σ).2.calls := by
  intro c d hd
  obtain ⟨d', hd', rfl | ⟨t, reason, -, hfilter, rfl⟩ | ⟨p, -, hnone, rfl⟩⟩ :=
    apply_call_cases env o hd
  · exact ⟨_, hd', .refl _⟩
  · exact ⟨_, hd', CallRepo.transitionUpdate_evolves hfilter⟩
  · exact ⟨_, hd', rfl, rfl, rfl, rfl, rfl, rfl, fun h => absurd hnone h, le_rfl,
      fun h => ⟨h, rfl, rfl, rfl⟩⟩

/-- **No operation undoes anything about a call**, whether or not it fails on the way. -/
theorem exec_evolves (env : Env) (o : Op) (σ : Store) :
    CallsEvolve σ.calls (exec env o σ).2.calls := by
  rcases exec_store env o σ with h | h
  · rw [h]
    exact .refl _
  · rw [h]
    exact apply_evolves env o σ

/-- Every operation leaves all calls sound, if only calls from `INITIATED` on are attached. -/
theorem apply_sound {env : Env} {o : Op} {σ : Store} (h : CallsSound σ.calls)
    (hattach : ∀ c p, o = .attachProviderCallId c p → ∀ d, σ.calls.get? c = some d →
      CallSm.rank .INITIATED ≤ CallSm.rank d.state) :
    CallsSound (apply env o σ).2.calls := by
  intro c d' hd'
  cases hd : σ.calls.get? c with
  | none =>
    obtain ⟨draft, -, -, rfl, -⟩ := apply_call_new env o hd hd'
    exact CallRepo.toCall_sound _ _ _
  | some d =>
    have hsound := h c d hd
    obtain ⟨e, he, hcases⟩ := apply_call_cases env o hd
    cases he.symm.trans hd'
    rcases hcases with rfl | ⟨t, reason, -, hfilter, rfl⟩ | ⟨p, ho, -, rfl⟩
    · exact hsound
    · exact CallRepo.transitionUpdate_sound hfilter hsound
    · exact ⟨hsound.rank, hsound.terminal, fun _ => hattach c p ho d hd, hsound.unanswered,
        hsound.key⟩

/-- Every operation leaves the rank and the flag of each call fitting its state. -/
theorem exec_ranked {env : Env} {o : Op} {σ : Store} (h : CallsRanked σ.calls) :
    CallsRanked (exec env o σ).2.calls := by
  rcases exec_store env o σ with hstore | hstore
  · rw [hstore]
    exact h
  · rw [hstore]
    intro c d' hd'
    cases hd : σ.calls.get? c with
    | none =>
      obtain ⟨draft, -, -, rfl, -⟩ := apply_call_new env o hd hd'
      exact (CallRepo.toCall_sound _ _ _).ranked
    | some d =>
      obtain ⟨e, he, hcases⟩ := apply_call_cases env o hd
      cases he.symm.trans hd'
      rcases hcases with rfl | ⟨t, reason, -, -, rfl⟩ | ⟨p, -, -, rfl⟩
      · exact h c _ hd
      · exact CallRepo.transitionUpdate_ranked
      · exact ⟨(h c d hd).rank, (h c d hd).terminal⟩

/-! ## What a thread knows about calls

A stage names a call by its id. What it knows about the call are facts that time cannot undo: whose
attempt it is, that its rank has reached `INITIATED`, that it has a provider id. -/

/-- The call is the attempt that a dial of this pair makes. -/
structure Call.IsFor (d : Call) (campaign : Campaign) (pair : ReservationPair) : Prop where
  campaignId : d.campaignId = campaign.id
  agentId : d.agentId = pair.agent.id
  borrowerId : d.borrowerId = pair.borrower.id
  attempt : d.attempt = pair.borrower.attemptCount + 1

theorem Call.IsFor.evolves {d d' : Call} {campaign : Campaign} {pair : ReservationPair}
    (h : d.IsFor campaign pair) (hev : d.Evolves d') : d'.IsFor campaign pair :=
  ⟨hev.campaignId.trans h.campaignId, hev.agentId.trans h.agentId,
    hev.borrowerId.trans h.borrowerId, hev.attempt.trans h.attempt⟩

theorem CallRepo.toCall_isFor (campaign : Campaign) (pair : ReservationPair) (id : DocId)
    (now : Time) : ((CallAllocator.callDraft campaign pair).toCall id now).IsFor campaign pair :=
  ⟨rfl, rfl, rfl, rfl⟩

/-- A call with the key of a draft is the attempt of that draft. -/
theorem Call.Sound.isFor_of_key {d : Call} (hd : d.Sound) {campaign : Campaign}
    {pair : ReservationPair}
    (h : d.idempotencyKey = (CallAllocator.callDraft campaign pair).idempotencyKey) :
    d.IsFor campaign pair := by
  rw [hd.key] at h
  obtain ⟨hc, ha, hb, hn⟩ := buildIdempotencyKey_injective h
  exact ⟨hc, ha, hb, hn⟩

/-- What the stage of a thread says about the calls. -/
def Stage.Knows (calls : Calls) : Stage → Prop
  | .callQueued campaign pair c => ∃ d, calls.get? c = some d ∧ d.IsFor campaign pair
  | .callInitiated campaign pair c => ∃ d, calls.get? c = some d ∧ d.IsFor campaign pair
      ∧ CallSm.rank .INITIATED ≤ d.stateRank
  | .callOriginated campaign pair c => ∃ d, calls.get? c = some d ∧ d.IsFor campaign pair
      ∧ CallSm.rank .INITIATED ≤ d.stateRank
  | .eventMatched event seen => ∃ d, calls.get? seen.id = some d
      ∧ d.providerName = event.providerName ∧ d.providerCallId = some event.providerCallId
      ∧ CallSm.rank seen.state ≤ d.stateRank
  | .sweeping stale => ∀ c ∈ stale, c.providerCallId ≠ none →
      ∃ d, calls.get? c.id = some d ∧ d.providerCallId ≠ none
  | _ => True

/-- What a thread knows stays true, whatever the others do. It is stated through what never changes
of a call and through what only grows, and these are what calls keep when they evolve. -/
theorem Stage.Knows.mono {calls calls' : Calls} {s : Stage} (h : s.Knows calls)
    (hev : CallsEvolve calls calls') : s.Knows calls' := by
  -- what a stage knows is about calls by their ids, and each of them has only evolved
  cases s with
  | callQueued campaign pair c =>
    obtain ⟨d, hd, hfor⟩ := h
    obtain ⟨d', hd', hdd'⟩ := hev c d hd
    exact ⟨d', hd', hfor.evolves hdd'⟩
  | callInitiated campaign pair c =>
    obtain ⟨d, hd, hfor, hrank⟩ := h
    obtain ⟨d', hd', hdd'⟩ := hev c d hd
    exact ⟨d', hd', hfor.evolves hdd', hrank.trans hdd'.rank⟩
  | callOriginated campaign pair c =>
    obtain ⟨d, hd, hfor, hrank⟩ := h
    obtain ⟨d', hd', hdd'⟩ := hev c d hd
    exact ⟨d', hd', hfor.evolves hdd', hrank.trans hdd'.rank⟩
  | eventMatched event seen =>
    obtain ⟨d, hd, hname, hid, hrank⟩ := h
    obtain ⟨d', hd', hdd'⟩ := hev _ d hd
    exact ⟨d', hd', hdd'.providerName.trans hname,
      (hdd'.providerCallId (by simp [hid])).trans hid, hrank.trans hdd'.rank⟩
  | sweeping stale =>
    intro c hc hid
    obtain ⟨d, hd, hdid⟩ := h c hc hid
    obtain ⟨d', hd', hdd'⟩ := hev _ d hd
    exact ⟨d', hd', by rwa [hdd'.providerCallId hdid]⟩
  | _ => trivial

theorem Stage.knows_struck (calls : Calls) (pair : ReservationPair) (e : Exn) :
    (pair.struck e).Knows calls := by
  cases e <;> trivial

/-- A call found by a query is in the collection. -/
theorem CallRepo.get?_of_find? {calls : Calls} {q : Call → Bool} {d : Call}
    (h : calls.coll.docs.find? q = some d) : calls.get? d.id = some d ∧ q d = true :=
  ⟨Collection.get?_of_mem (List.mem_of_find?_eq_some h), List.find?_some h⟩

theorem CallRepo.findByProviderCallId_eq_some {name p : String} {calls : Calls} {seen : Call}
    (h : findByProviderCallId name p calls = some seen) :
    ∃ d, calls.get? d.id = some d ∧ d.providerName = name ∧ d.providerCallId = some p
      ∧ seen = d.fromMongo := by
  obtain ⟨d, hfind, rfl⟩ := Option.map_eq_some_iff.mp h
  obtain ⟨hd, hq⟩ := get?_of_find? hfind
  have hq := of_decide_eq_true hq
  exact ⟨d, hd, hq.1, hq.2, rfl⟩

theorem CallRepo.findByIdempotencyKey_eq_some {key : String} {calls : Calls} {existing : Call}
    (h : findByIdempotencyKey key calls = some existing) :
    ∃ d, calls.get? d.id = some d ∧ d.idempotencyKey = key ∧ existing = d.fromMongo := by
  obtain ⟨d, hfind, rfl⟩ := Option.map_eq_some_iff.mp h
  obtain ⟨hd, hq⟩ := get?_of_find? hfind
  exact ⟨d, hd, of_decide_eq_true hq, rfl⟩

theorem CallRepo.mem_findStaleCalls {olderThan : Time} {limit : Int} {calls : Calls} {c : Call}
    (h : c ∈ findStaleCalls olderThan limit calls) :
    ∃ d, calls.get? d.id = some d ∧ stale olderThan d ∧ c = d.fromMongo := by
  obtain ⟨d, hd, rfl⟩ := List.mem_map.mp h
  have hd := limited_subset hd
  rw [List.mem_insertionSort] at hd
  obtain ⟨hget, hstale⟩ := Collection.mem_find.mp hd
  exact ⟨d, hget, hstale, rfl⟩

/-- Taking on a call that the key of the draft leads to. -/
theorem Stage.knows_taken {calls : Calls} {campaign : Campaign} {pair : ReservationPair}
    {created d : Call} (hd : calls.get? created.id = some d) (hfor : d.IsFor campaign pair) :
    (Stage.nextPairClaimed.taken campaign pair created).Knows calls := by
  unfold Stage.nextPairClaimed.taken
  split
  · exact ⟨d, hd, hfor⟩
  · trivial

/-- **A thread knows what it has been told**: the stage after an operation says about the calls
only what its answer has shown. -/
theorem knows_next {env : Env} {o : Op} {σ : Store} {s : Stage} (hsound : CallsSound σ.calls)
    (hknows : s.Knows σ.calls) (hemits : Emits s o) :
    (s.next o (exec env o σ).1).Knows (exec env o σ).2.calls := by
  -- what was known stays true; the cases look at what an answer adds
  have hmono := hknows.mono (exec_evolves env o σ)
  cases hr : (exec env o σ).1 with
  | error e =>
    -- by the operation: most answers say nothing about calls
    cases hemits with
    | createCall => cases e <;> trivial
    | awaitAnswer =>
      cases e with
      | cancelled => trivial
      | _ => exact hmono
    | hangup =>
      cases e with
      | cancelled => trivial
      | _ => exact hmono
    | sweepClock | expiredAgents | expiredBorrowers | staleCalls | silentAgents | stuckWrapUps
    | readBoundCall | askProvider | endCall | recoverBorrower | recoverAgent | reclaimAgent
    | reclaimBorrower | moveAgent => exact hmono
    | _ => first | trivial | exact Stage.knows_struck _ _ e
  | ok a =>
    have hexec := exec_of_ok hr
    cases hemits with
    | createCall =>
      obtain ⟨hdoc, -, hget⟩ := insertCall_ok hr
      refine Stage.knows_taken hget ?_
      rw [hdoc]
      exact CallRepo.toCall_isFor _ _ env.newId env.now
    | findExisting =>
      rw [hexec] at hr ⊢
      cases a with
      | none => trivial
      | some existing =>
        obtain ⟨d, hd, hkey, rfl⟩ :=
          CallRepo.findByIdempotencyKey_eq_some (Except.ok.inj hr)
        exact Stage.knows_taken hd ((hsound _ d hd).isFor_of_key hkey)
    | initiateCall =>
      rw [hexec] at hr ⊢
      cases a with
      | none => trivial
      | some initiated =>
        obtain ⟨d, hd, hfor⟩ := hknows
        rcases CallRepo.transitionCall_cases env.now _ .INITIATED none σ.calls
          with ⟨d', hd', hfilter, -, hget, -⟩ | ⟨-, hnone, -⟩
        · rw [hd] at hd'
          cases hd'
          exact ⟨_, hget, hfor.evolves (CallRepo.transitionUpdate_evolves hfilter), le_rfl⟩
        · cases hnone.symm.trans (Except.ok.inj hr)
    | matchCall =>
      rw [hexec] at hr ⊢
      cases a with
      | none => trivial
      | some seen =>
        obtain ⟨d, hd, hname, hid, rfl⟩ :=
          CallRepo.findByProviderCallId_eq_some (Except.ok.inj hr)
        exact ⟨d, hd, hname, hid, (hsound _ d hd).rank.ge⟩
    | staleCalls =>
      rw [hexec] at hr ⊢
      intro c hc hid
      cases hr
      obtain ⟨d, hd, -, rfl⟩ := CallRepo.mem_findStaleCalls hc
      exact ⟨d, hd, hid⟩
    | attach =>
      cases a with
      | none => exact hmono
      | some attached => trivial
    | applyEvent =>
      cases a <;> trivial
    | record => cases a <;> trivial
    | reserveAgent => cases a <;> trivial
    | reserveBorrower => cases a <;> trivial
    | _ => trivial

/-! ## Reachable worlds

The two parts go together: what a thread is told about a call is reliable since every call is sound,
and calls stay sound since only calls that have been initiated are attached, which the attaching
thread knows. -/

/-- Every call is sound, and every thread knows what its stage says. -/
structure CallFacts (σ : Store) (st : Nat → Stage) : Prop where
  sound : CallsSound σ.calls
  knows : ∀ p, (st p).Knows σ.calls

namespace CallFacts

variable {σ : Store} {st : Nat → Stage}

/-- One operation of one thread. The others keep what they know, as calls evolve. -/
theorem op (h : CallFacts σ st) (p : Nat) {o : Op} (env : Env) (hemits : Emits (st p) o) :
    CallFacts (exec env o σ).2
      (Function.update st p ((st p).next o (exec env o σ).1)) where
  sound := by
    rcases exec_store env o σ with hstore | hstore
    · rw [hstore]
      exact h.sound
    · rw [hstore]
      refine apply_sound h.sound fun c q ho d hd => ?_
      subst ho
      have hknows := h.knows p
      generalize hs : st p = s at hemits hknows
      cases hemits with
      -- an id is attached by the thread that has originated the call, when it is `INITIATED` or
      -- later
      | attach =>
        obtain ⟨d', hd', -, hrank⟩ := hknows
        rw [hd] at hd'
        cases hd'
        rwa [(h.sound _ d hd).rank] at hrank
  knows := fun q => by
    by_cases hq : q = p
    · subst hq
      rw [Function.update_self]
      exact knows_next h.sound (h.knows q) hemits
    · rw [Function.update_of_ne hq]
      exact (h.knows q).mono (exec_evolves env o σ)

/-- A thread may be replaced by one that knows nothing yet. -/
theorem set (h : CallFacts σ st) (p : Nat) {s : Stage} (hs : s.Knows σ.calls) :
    CallFacts σ (Function.update st p s) where
  sound := h.sound
  knows := fun q => by
    by_cases hq : q = p
    · rw [hq, Function.update_self]
      exact hs
    · rw [Function.update_of_ne hq]
      exact h.knows q

theorem knows_start (calls : Calls) (job : Job) : job.start.Knows calls := by
  cases job with
  | runSweeps => exact fun c hc => absurd hc List.not_mem_nil
  | _ => trivial

theorem preserves (cfg : Config) (R : SystemRegime) :
    (system cfg).Preserves R fun σ _ st => CallFacts σ st where
  spawn := fun p job h _ _ => h.set p (knows_start _ job)
  op := fun p _ env h hemits _ _ => h.op p env hemits

theorem preservesRunning (cfg : Config) (R : SystemRegime) :
    (system cfg).PreservesRunning R fun σ _ st => CallFacts σ st where
  spawn := fun p job h _ _ => h.set p (knows_start _ job)
  op := fun p _ env h hemits _ => h.op p env hemits
  drop := fun p h => h.set p trivial

end CallFacts

/-- **The call facts hold in every reachable world**, under every regime. -/
theorem callFacts_of_reachable {cfg : Config} {R : SystemRegime} {σ₀ : Store} {w : SystemWorld}
    (h₀ : CallsSound σ₀.calls) (h : Reachable (system cfg) R (World.fresh σ₀) w) :
    CallFacts w.store (w.lastStage (system cfg)) :=
  h.invariant system_conforms (CallFacts.preserves cfg R) (World.Obeys.fresh _ σ₀)
    ⟨h₀, fun _ => trivial⟩

/-- **Every transition that a stage emits is an edge of `CALL_TRANSITIONS`** when it takes
effect, although the database only compares ranks. -/
theorem canTransition_of_emits {σ : Store} {st : Nat → Stage} (h : CallFacts σ st) {p : Nat}
    {c : DocId} {t : CallState} {reason : Option String}
    (hemits : Emits (st p) (.transitionCall c t reason)) {d : Call}
    (hd : σ.calls.get? c = some d) (hfilter : CallRepo.transitionFilter t d) :
    CallSm.canTransition d.state t = true := by
  have hsound := h.sound c d hd
  have hopen : CallSm.isTerminal d.state = false := hsound.terminal ▸ hfilter.1
  have hrank : CallSm.rank d.state < CallSm.rank t := hsound.rank ▸ hfilter.2
  have hknows := h.knows p
  generalize hs : st p = s at hemits hknows
  cases hemits with
  | reserveCall => exact CallSm.canTransition_of_setup (Or.inl rfl) hrank
  | initiateCall => exact CallSm.canTransition_of_setup (Or.inr rfl) hrank
  | failCall => exact CallSm.canTransition_of_abort hopen (Or.inl rfl)
  | applyEvent =>
    -- a call that an event has found is attached, so it is `INITIATED` at least
    obtain ⟨d', hd', -, hid, -⟩ := hknows
    rw [hd] at hd'
    cases hd'
    exact CallSm.canTransition_of_initiated (hsound.attached (by simp [hid])) hrank
  | endCall reason hends =>
    rcases hends with ht | ht | ⟨-, c', hc', hid, hattached⟩
    · exact CallSm.canTransition_of_abort hopen (Or.inl ht)
    · exact CallSm.canTransition_of_abort hopen (Or.inr ht)
    · obtain ⟨d', hd', hattached'⟩ := hknows c' hc' hattached
      rw [hid, hd] at hd'
      cases hd'
      exact CallSm.canTransition_of_initiated (hsound.attached hattached') hrank

end SmartDialer
