import SmartDialer.Dialers.Spending
import SmartDialer.Pacing.Progressive

/-!
# The concurrency limit of a campaign

The limit is taken from a count that is read once, and spent by reservations that come later.
Between the two nothing compares the count with the limit again, so the limit is as hard as the
count is fresh: it holds in every run in which no tick counts while another tick of the campaign may
still reserve, and two ticks that count at the same time break it.
-/

namespace SmartDialer

open DocStore Concurrent HostFloat Machine

/-! ## Counting active calls

A call becomes active in one way only, by a transition out of `QUEUED`. So the active calls of a
campaign grow by one at most in one operation, and only by a transition that belongs to an attempt
of an allocation. -/

/-- The call counts against the limit of the campaign. -/
def Call.ActiveIn (campaignId : DocId) (d : Call) : Prop :=
  d.campaignId = campaignId ∧ d.state ∈ activeCallStates

instance (campaignId : DocId) : DecidablePred (Call.ActiveIn campaignId) :=
  fun _ => inferInstanceAs (Decidable (_ ∧ _))

/-- A call is counted under its own state only. -/
theorem counted_once (P : Prop) [Decidable P] (s : CallState) :
    (activeCallStates.map fun t => if P ∧ s = t then 1 else 0).sum
      = if P ∧ s ∈ activeCallStates then 1 else 0 := by
  by_cases hP : P <;> cases s <;> simp [activeCallStates, hP]

theorem activeCalls_eq (campaignId : DocId) (calls : Calls) :
    activeCalls campaignId calls = (calls.coll.find (Call.ActiveIn campaignId)).length := by
  unfold activeCalls CallRepo.countByState Collection.find
  simp only [← List.countP_eq_length_filter]
  induction calls.coll.docs with
  | nil => rfl
  | cons d docs ih =>
    simp only [List.countP_cons, List.sum_map_add, ih, decide_eq_true_eq]
    exact congrArg _ (counted_once (d.campaignId = campaignId) d.state)

theorem CallSm.active_iff (s : CallState) :
    s ∈ activeCallStates ↔ isTerminal s = false ∧ s ≠ .QUEUED := by
  cases s <;> decide

/-- An active call was active before the operation, or was queued and is moved by it. An insertion
makes a queued call, which is not active, and no transition brings a finished call back. -/
theorem active_before {env : Env} {o : Op} {σ : Store} (hranked : CallsRanked σ.calls)
    {campaignId c : DocId} {d' : Call} (hd' : (exec env o σ).2.calls.get? c = some d')
    (hactive : d'.ActiveIn campaignId) :
    ∃ d, σ.calls.get? c = some d ∧ (d.ActiveIn campaignId
      ∨ ∃ t reason, o = .transitionCall c t reason ∧ CallRepo.transitionFilter t d
        ∧ d.campaignId = campaignId ∧ d.state = .QUEUED ∧ t ∈ activeCallStates) := by
  rcases exec_store env o σ with hstore | hstore
  · rw [hstore] at hd'
    exact ⟨d', hd', Or.inl hactive⟩
  · rw [hstore] at hd'
    cases hd : σ.calls.get? c with
    | none =>
      obtain ⟨draft, -, -, rfl, -⟩ := apply_call_new env o hd hd'
      have hqueued : CallState.QUEUED ∈ activeCallStates := hactive.2
      exact absurd hqueued (by decide)
    | some d =>
      refine ⟨d, rfl, ?_⟩
      obtain ⟨e, he, hcases⟩ := apply_call_cases env o hd
      cases he.symm.trans hd'
      -- only a transition out of `QUEUED` makes an unfinished call active
      rcases hcases with rfl | ⟨t, reason, ho, hfilter, rfl⟩ | ⟨p, -, -, rfl⟩
      · exact Or.inl hactive
      · have hevolves : d.Evolves (CallRepo.transitionUpdate t reason env.now d) :=
          CallRepo.transitionUpdate_evolves hfilter
        have hcampaign : d.campaignId = campaignId := hevolves.campaignId.symm.trans hactive.1
        by_cases hqueued : d.state = .QUEUED
        · exact Or.inr ⟨t, reason, ho, hfilter, hcampaign, hqueued, hactive.2⟩
        · have hterminal : CallSm.isTerminal d.state = false :=
            (hranked c d hd).terminal ▸ hfilter.1
          exact Or.inl ⟨hcampaign, (CallSm.active_iff d.state).mpr ⟨hterminal, hqueued⟩⟩
      · exact Or.inl hactive

/-- Only moving a queued call of the campaign adds to its active calls. -/
theorem activeCalls_le {env : Env} {o : Op} {σ : Store} (hranked : CallsRanked σ.calls)
    {campaignId : DocId} (hmoves : ∀ c t reason d, o = .transitionCall c t reason →
      σ.calls.get? c = some d → CallRepo.transitionFilter t d → d.campaignId = campaignId →
      d.state = .QUEUED → t ∉ activeCallStates) :
    activeCalls campaignId (exec env o σ).2.calls ≤ activeCalls campaignId σ.calls := by
  rw [activeCalls_eq, activeCalls_eq]
  -- every call that is active afterwards was active before, under the same id
  refine Collection.length_find_le_of_injective Keyed.key (fun d' hd' => ?_)
    (fun d hd e he hkey => ?_)
  · obtain ⟨hget, hactive⟩ := Collection.mem_find.mp hd'
    obtain ⟨d, hd, hbefore | ⟨t, reason, ho, hfilter, hcampaign, hqueued, ht⟩⟩ :=
      active_before hranked hget hactive
    · exact ⟨d, hd, hbefore⟩
    · exact absurd ht (hmoves _ t reason d ho hd hfilter hcampaign hqueued)
  · have hd := (Collection.mem_find.mp hd).1
    have he := (Collection.mem_find.mp he).1
    rw [hkey, he] at hd
    exact (Option.some.inj hd).symm

/-- One transition adds one active call at most. -/
theorem activeCalls_le_succ {env : Env} {c : DocId} {t : CallState} {reason : Option String}
    {σ : Store} (hranked : CallsRanked σ.calls) (campaignId : DocId) :
    activeCalls campaignId (exec env (.transitionCall c t reason) σ).2.calls
      ≤ activeCalls campaignId σ.calls + 1 := by
  rw [activeCalls_eq, activeCalls_eq]
  refine Collection.length_find_le_succ c fun d' hd' hne => ?_
  obtain ⟨hget, hactive⟩ := Collection.mem_find.mp hd'
  obtain ⟨d, hd, hbefore | ⟨t', reason', ho, -⟩⟩ := active_before hranked hget hactive
  · exact ⟨d, hd, hbefore⟩
  · cases ho
    exact absurd rfl hne

/-! ## The account of a tick

The account adds up three numbers: the calls that are active, the room a tick still has, and the
attempt it has in hand. A count sets the room, a decision narrows it, and a reservation moves one
from the account to the store; nothing else moves. -/

/-- The attempt in hand may still reserve one. -/
def Spending.Attempt.claims : Spending.Attempt → Nat
  | .underway => 1
  | _ => 0

/-- How many calls of the campaign the tick may still reserve. -/
def Spending.claims (campaignId : DocId) : Spending → Nat
  | .outside => 0
  | .ticking campaign room attempt => if campaign.id = campaignId then room + attempt.claims else 0

/-- The campaign a thread dials for. -/
def Stage.campaign : Stage → Option Campaign
  | .allocating campaign _ | .agentClaimed campaign _ _ | .pairClaimed campaign _
  | .callQueued campaign _ _ | .callInitiated campaign _ _ | .callOriginated campaign _ _
  | .agentReturned campaign _ => some campaign
  | _ => none

theorem campaign_struck (pair : ReservationPair) (e : Exn) (k : Campaign) :
    (pair.struck e).campaign ≠ some k := by
  intro hk
  cases e <;> cases hk

/-- A thread dials for one campaign. -/
theorem campaign_next (s : Stage) (o : Op) (r : Except Exn (Res o)) {k : Campaign}
    (hk : (s.next o r).campaign = some k) : s.campaign = some k := by
  have h := s.precedes_next o r
  generalize s.next o r = s' at h hk
  cases h with
  | isStruck e => exact absurd hk (campaign_struck _ e k)
  | closes | fails => cases hk
  | _ => exact hk

/-- What the two stages of a thread say about its campaign and about the call it has reserved. -/
structure Accounted (campaignId : DocId) (limit : Int) (calls : Calls) (s : Stage × Spending) :
    Prop where
  campaign : ∀ campaign, s.1.campaign = some campaign →
    ∃ room attempt, s.2 = .ticking campaign room attempt
  limit : ∀ campaign room attempt, s.2 = .ticking campaign room attempt → campaign.id = campaignId →
    campaign.maxConcurrentCalls = limit
  reserved : ∀ campaign room c, s.2 = .ticking campaign room (.reserved c) →
    ∃ d, calls.get? c = some d ∧ CallSm.rank .RESERVED ≤ d.stateRank

namespace Spending

/-- A tick stays a tick of its campaign: only the room and the attempt change. -/
theorem next_ticking (campaign : Campaign) (room : Nat) (attempt : Attempt) (o : Op)
    (r : Except Exn (Res o)) :
    ∃ room' attempt', (ticking campaign room attempt).next o r
      = .ticking campaign room' attempt' := by
  cases ho : staged o with
  -- what is not staged touches the attempt at most, and leaves the room
  | false =>
    obtain ⟨attempt', h, -⟩ := next_of_plain ho campaign room attempt r
    exact ⟨room, attempt', h⟩
  | true =>
    cases o with
    | recordSafetyDecision | findClaimableAgents => exact ⟨_, _, rfl⟩
    | countCallsByState => cases r <;> exact ⟨_, _, rfl⟩
    | transitionCall callId targetState reason =>
      cases targetState with
      | RESERVED => cases r <;> exact ⟨_, _, rfl⟩
      | INITIATED => exact ⟨_, _, rfl⟩
      | _ => cases ho
    | _ => cases ho

theorem eq_ticking_of_next {s : Spending} {o : Op} {r : Except Exn (Res o)} {campaign : Campaign}
    {room : Nat} {attempt : Attempt} (h : s.next o r = .ticking campaign room attempt) :
    ∃ room' attempt', s = .ticking campaign room' attempt' := by
  cases s with
  | outside =>
    rw [next_outside] at h
    cases h
  | ticking campaign' room' attempt' =>
    obtain ⟨room₁, attempt₁, hnext⟩ := next_ticking campaign' room' attempt' o r
    cases hnext.symm.trans h
    exact ⟨_, _, rfl⟩

end Spending

theorem Spending.claims_of_ne {campaignId : DocId} {campaign : Campaign}
    (h : campaign.id ≠ campaignId) (room : Nat) (attempt : Spending.Attempt) :
    (Spending.ticking campaign room attempt).claims campaignId = 0 :=
  if_neg h

theorem Spending.claims_of_eq {campaignId : DocId} {campaign : Campaign}
    (h : campaign.id = campaignId) (room : Nat) (attempt : Spending.Attempt) :
    (Spending.ticking campaign room attempt).claims campaignId = room + attempt.claims :=
  if_pos h

theorem Spending.claims_le {room room' : Nat} {attempt attempt' : Spending.Attempt}
    (h : room + attempt.claims ≤ room' + attempt'.claims) (campaignId : DocId)
    (campaign : Campaign) :
    (Spending.ticking campaign room attempt).claims campaignId
      ≤ (Spending.ticking campaign room' attempt').claims campaignId := by
  by_cases hcampaign : campaign.id = campaignId
  · rw [claims_of_eq hcampaign, claims_of_eq hcampaign]
    exact h
  · rw [claims_of_ne hcampaign]
    exact Nat.zero_le _

/-! ## One operation

What an operation may do to the active calls is read off its place in the account. Six places, and
three of them concern calls: the count reads them, the reservation makes one active, the initiation
finds one that is active already. -/

section Operation

variable {campaignId : DocId} {limit : Int} {env : Env} {o : Op} {σ : Store}
  {st : Nat → Stage × Spending} {p : Nat}

theorem Emits.of_tick {s : Stage} (h : TickEmits s o) (ho : SafetyController.reads o = false) :
    Emits s o := by
  cases h with
  | own h => exact h
  | read hread => cases ho.symm.trans hread

/-- Only a dial reserves a call. -/
theorem Emits.callQueued_of_reserve {s : Stage} {c : DocId} {reason : Option String}
    (h : Emits s (.transitionCall c .RESERVED reason)) :
    ∃ campaign pair, s = .callQueued campaign pair c := by
  cases h with
  | reserveCall => exact ⟨_, _, rfl⟩
  | applyEvent reason happlies =>
    have hplain := plain_of_emits rfl (.applyEvent reason happlies)
    cases hplain
  | endCall reason hends =>
    have hplain := plain_of_emits rfl (.endCall reason hends)
    cases hplain

/-- A call that has been told to be `RESERVED` is so, or further. -/
theorem reserved_of_ok (hranked : CallsRanked σ.calls) {c : DocId} {d : Call}
    (hd : σ.calls.get? c = some d) {reason : Option String} {a : Option Call}
    (hr : (exec env (.transitionCall c .RESERVED reason) σ).1 = .ok a) :
    ∃ d', (exec env (.transitionCall c .RESERVED reason) σ).2.calls.get? c = some d'
      ∧ CallSm.rank .RESERVED ≤ d'.stateRank := by
  rw [exec_of_ok hr]
  rcases CallRepo.transitionCall_cases env.now c .RESERVED reason σ.calls
    with ⟨d₀, hd₀, -, -, hget, -⟩ | ⟨hno, -, hcalls⟩
  · exact ⟨_, hget, le_refl _⟩
  · refine ⟨d, (congrArg (fun calls => Calls.get? calls c) hcalls).trans hd, ?_⟩
    by_contra hlt
    refine hno d hd ⟨?_, not_le.mp hlt⟩
    -- a finished call has the highest rank
    by_contra hterminal
    have hsix : CallSm.rank d.state = 6 := (CallSm.isTerminal_iff_rank d.state).mp
      ((hranked c d hd).terminal ▸ Bool.eq_true_of_not_eq_false hterminal)
    rw [(hranked c d hd).rank, hsix] at hlt
    exact hlt (by decide)

theorem rank_pos_not_queued {d : Call} (hranked : d.Ranked)
    (h : CallSm.rank .RESERVED ≤ d.stateRank) : d.state ≠ .QUEUED := by
  intro hqueued
  rw [hranked.rank, hqueued] at h
  exact absurd h (by decide)

/-- **What one operation costs a tick**: whatever it adds to the active calls of the campaign, it
takes from what the tick may still reserve. -/
theorem spend (env : Env) (hfacts : CallFacts σ fun q => (st q).1)
    (hstage : Accounted campaignId limit σ.calls (st p))
    (hemits : TickEmits (st p).1 o) (hspending : Spending.Emits (st p).2 o)
    (hcount : o ≠ .countCallsByState campaignId) (r : Except Exn (Res o)) :
    ∃ n, ((st p).2.next o r).claims campaignId + n ≤ (st p).2.claims campaignId
      ∧ activeCalls campaignId (exec env o σ).2.calls ≤ activeCalls campaignId σ.calls + n := by
  have hranked := hfacts.sound.ranked
  have hstill : (∀ c t reason, o ≠ .transitionCall c t reason) →
      activeCalls campaignId (exec env o σ).2.calls ≤ activeCalls campaignId σ.calls + 0 :=
    fun hno => activeCalls_le hranked fun c t reason d ho => absurd ho (hno c t reason)
  generalize hs : (st p).2 = s at hspending
  cases hspending with
  -- nothing of the account moves, so the call that would become active must come from elsewhere
  | plain _ ho =>
    refine ⟨0, ?_, activeCalls_le hranked fun c t reason d hop hd hfilter _ hqueued hactive => ?_⟩
    · cases s with
      | outside =>
        rw [Spending.next_outside]
        exact le_refl _
      | ticking campaign room attempt =>
        obtain ⟨attempt', hnext, rfl | rfl⟩ := Spending.next_of_plain ho campaign room attempt r
        · rw [hnext]
          exact le_refl _
        · rw [hnext]
          exact Spending.claims_le (Nat.le_add_right room _) campaignId campaign
    · -- only call setup takes a queued call to an active state
      subst hop
      have hedge := canTransition_of_emits hfacts (Emits.of_tick hemits rfl) hd hfilter
      rw [hqueued] at hedge
      cases t with
      | RESERVED | INITIATED => cases ho
      | FAILED | CANCELLED => exact absurd hactive (by decide)
      | _ => exact absurd hedge (by decide)
  -- the tick belongs to another campaign, by `hcount`
  | count campaign room =>
    have hne : campaign.id ≠ campaignId := fun h => hcount (by rw [h])
    refine ⟨0, ?_, hstill fun _ _ _ h => by cases h⟩
    obtain ⟨room', attempt', hnext⟩ := Spending.next_ticking campaign room .over
      (.countCallsByState campaign.id) r
    rw [hnext, Spending.claims_of_ne hne]
    exact Nat.zero_le _
  -- what has been approved is within the room
  | @decide campaign room requested approved hroom =>
    refine ⟨0, ?_, hstill fun _ _ _ h => by cases h⟩
    have hle : (Spending.ticking campaign approved.toNat .over).claims campaignId
        ≤ (Spending.ticking campaign room .over).claims campaignId :=
      Spending.claims_le hroom campaignId campaign
    exact hle
  -- the attempt takes one of the room with it
  | claim campaign room attempt window =>
    refine ⟨0, ?_, hstill fun _ _ _ h => by cases h⟩
    have hle : (Spending.ticking campaign room .underway).claims campaignId
        ≤ (Spending.ticking campaign (room + 1) attempt).claims campaignId :=
      Spending.claims_le (Nat.le_add_right (room + 1) _) campaignId campaign
    exact hle
  | reserve campaign room callId =>
    -- the call is one of the campaign that the tick is for
    obtain ⟨campaign', pair, hqueued⟩ := Emits.callQueued_of_reserve (Emits.of_tick hemits rfl)
    obtain ⟨room', attempt', hticking⟩ :=
      hstage.campaign campaign' (by rw [hqueued]; rfl)
    cases hs.symm.trans hticking
    have hknows := hfacts.knows p
    rw [hqueued] at hknows
    obtain ⟨d, hd, hfor⟩ := hknows
    obtain ⟨attempt'', hnext, hclaims⟩ : ∃ attempt'',
        (Spending.ticking campaign room .underway).next (.transitionCall callId .RESERVED none) r
          = .ticking campaign room attempt'' ∧ attempt''.claims = 0 := by
      cases r <;> exact ⟨_, rfl, rfl⟩
    rw [hnext]
    -- for this campaign, the one attempt claimed becomes the one call added
    by_cases hcampaign : campaign.id = campaignId
    · refine ⟨1, ?_, activeCalls_le_succ hranked campaignId⟩
      rw [Spending.claims_of_eq hcampaign, Spending.claims_of_eq hcampaign, hclaims]
      exact le_refl _
    · refine ⟨0, ?_, activeCalls_le hranked fun c t reason d' hop hd' _ hd'campaign => ?_⟩
      · rw [Spending.claims_of_ne hcampaign]
        exact Nat.zero_le _
      · cases hop
        cases hd.symm.trans hd'
        exact absurd (hfor.campaignId.symm.trans hd'campaign) hcampaign
  -- the call has been reserved before, so it is not one that becomes active now
  | initiate campaign room callId =>
    obtain ⟨d, hd, hrank⟩ := hstage.reserved campaign room callId hs
    refine ⟨0, ?_, activeCalls_le hranked fun c t reason d' hop hd' _ _ hqueued => ?_⟩
    · exact le_refl _
    · cases hop
      cases hd.symm.trans hd'
      exact absurd hqueued (rank_pos_not_queued (hranked _ d hd) hrank)

theorem Accounted.outside {calls : Calls} {s : Stage} (hs : s.campaign = none) :
    Accounted campaignId limit calls (s, .outside) where
  campaign := fun campaign hcampaign => by
    rw [hs] at hcampaign
    cases hcampaign
  limit := fun campaign room attempt h => by cases h
  reserved := fun campaign room c h => by cases h

/-- What a thread knows of its reserved call stays true, whatever the others do. -/
theorem Accounted.mono {calls calls' : Calls} {s : Stage × Spending}
    (h : Accounted campaignId limit calls s) (hevolve : CallsEvolve calls calls') :
    Accounted campaignId limit calls' s where
  campaign := h.campaign
  limit := h.limit
  reserved := fun campaign room c hs => by
    obtain ⟨d, hd, hrank⟩ := h.reserved campaign room c hs
    obtain ⟨d', hd', hevolves⟩ := hevolve c d hd
    exact ⟨d', hd', hrank.trans hevolves.rank⟩

/-- What a thread knows of its campaign and of its reserved call stays true of the next stage.
-/
theorem Accounted.next (env : Env) (hfacts : CallFacts σ fun q => (st q).1)
    (h : Accounted campaignId limit σ.calls (st p)) (hemits : TickEmits (st p).1 o)
    (hspending : Spending.Emits (st p).2 o) :
    Accounted campaignId limit (exec env o σ).2.calls
      ((st p).1.next o (exec env o σ).1, (st p).2.next o (exec env o σ).1) where
  campaign := fun campaign hcampaign => by
    obtain ⟨room, attempt, hs⟩ := h.campaign campaign (campaign_next _ _ _ hcampaign)
    obtain ⟨room', attempt', hnext⟩ :=
      Spending.next_ticking campaign room attempt o (exec env o σ).1
    exact ⟨room', attempt', by rw [hs]; exact hnext⟩
  limit := fun campaign room attempt hnext hcampaign => by
    obtain ⟨room', attempt', hs⟩ := Spending.eq_ticking_of_next hnext
    exact h.limit campaign room' attempt' hs hcampaign
  reserved := fun campaign room c hnext => by
    have hmono := (h.mono (exec_evolves env o σ)).reserved
    revert hnext
    generalize hr : (exec env o σ).1 = r
    generalize hs : (st p).2 = s at hspending hmono
    intro hnext
    have hnext : s.next o r = .ticking campaign room (.reserved c) := hnext
    -- the call in hand is reserved by this thread, and stays what it was
    cases hspending with
    | plain _ ho =>
      cases s with
      | outside =>
        rw [Spending.next_outside] at hnext
        cases hnext
      | ticking campaign' room' attempt =>
        obtain ⟨attempt', hnext', rfl | rfl⟩ := Spending.next_of_plain ho campaign' room' attempt r
        · exact hmono campaign room c (hnext'.symm.trans hnext)
        · cases hnext'.symm.trans hnext
    | count => cases r <;> cases hnext
    | decide => cases hnext
    | claim => cases hnext
    | reserve campaign' room' callId =>
      cases r with
      | error e => cases hnext
      | ok a =>
        cases hnext
        obtain ⟨campaign', pair, hqueued⟩ := Emits.callQueued_of_reserve (Emits.of_tick hemits rfl)
        have hknows := hfacts.knows p
        rw [hqueued] at hknows
        obtain ⟨d, hd, -⟩ := hknows
        exact reserved_of_ok hfacts.sound.ranked hd hr
    | initiate => cases hnext

end Operation

/-! ## Runs

The guard speaks of the one operation at which the argument would break: a count while another tick
of the campaign may still reserve. A tick may still reserve from its count until its room is spent
or its decision has given the room back, whatever it was asked to dial. -/

/-- Ticks of the campaign have the fixed limit, and nothing allocates but ticks. -/
def fixedLimit {F : Type} (campaignId : DocId) (limit : Int) : TickJob F → Prop
  | .tick _ campaign _ _ _ => campaign.id = campaignId → campaign.maxConcurrentCalls = limit
  | .other (.allocate ..) => False
  | .other _ => True

/-- No tick counts the calls of the campaign while another tick may still reserve one. -/
def countsFresh (F : Type) (campaignId : DocId) (limit : Int) :
    Regime (TickJob F) Op Store Env (Stage × Spending) where
  admits := fixedLimit campaignId limit
  guard := fun _ live p o _ => o = .countCallsByState campaignId →
    ∀ q, q ≠ p → (live q).2.claims campaignId = 0

/-- The active calls and what any tick may still reserve are within the limit, and one tick at most
may still reserve. -/
structure WithinLimit (campaignId : DocId) (limit : Int) (σ : Store) (st : Nat → Stage × Spending) :
    Prop where
  facts : CallFacts σ fun q => (st q).1
  stages : ∀ q, Accounted campaignId limit σ.calls (st q)
  alone : ∀ p q, (st p).2.claims campaignId ≠ 0 → (st q).2.claims campaignId ≠ 0 → p = q
  bound : ∀ q, (activeCalls campaignId σ.calls : Int) + (st q).2.claims campaignId ≤ limit

namespace WithinLimit

variable {F : Type} [FloatOps F] {settings : SafetySettings F} {cfg : Config} {campaignId : DocId}
  {limit : Int} {σ : Store} {st : Nat → Stage × Spending}

/-- One thread moves on, in a store that may have changed. What has to be shown is what concerns
this thread: that it keeps its account, that it is alone if it may still reserve, and that its room
and the active calls are within the limit. -/
theorem put (h : WithinLimit campaignId limit σ st) (p : Nat) {σ' : Store} {s : Stage × Spending}
    (hevolve : CallsEvolve σ.calls σ'.calls)
    (hfacts : CallFacts σ' fun q => (Function.update st p s q).1)
    (hstage : Accounted campaignId limit σ'.calls s)
    (halone : s.2.claims campaignId ≠ 0 → ∀ q, q ≠ p → (st q).2.claims campaignId = 0)
    (hself : (activeCalls campaignId σ'.calls : Int) + s.2.claims campaignId ≤ limit)
    (hothers : ∀ q, q ≠ p →
      (activeCalls campaignId σ'.calls : Int) + (st q).2.claims campaignId ≤ limit) :
    WithinLimit campaignId limit σ' (Function.update st p s) := by
  have hupdate : ∀ q, q ≠ p → Function.update st p s q = st q :=
    fun q hq => Function.update_of_ne hq s st
  -- only the thread that moves may claim what it has not claimed before
  have hclaims : ∀ q, q ≠ p → (Function.update st p s q).2.claims campaignId ≠ 0 →
      s.2.claims campaignId = 0 ∧ (st q).2.claims campaignId ≠ 0 := by
    intro q hq hne
    rw [hupdate q hq] at hne
    refine ⟨?_, hne⟩
    by_contra hs
    exact hne (halone hs q hq)
  -- in each part a thread is the one that moves, or one that has not moved
  refine ⟨hfacts, fun q => ?_, fun q q' hq hq' => ?_, fun q => ?_⟩
  · by_cases hqp : q = p
    · rw [hqp, Function.update_self]
      exact hstage
    · rw [hupdate q hqp]
      exact (h.stages q).mono hevolve
  · by_cases hqp : q = p
    · by_cases hqp' : q' = p
      · rw [hqp, hqp']
      · rw [hqp, Function.update_self] at hq
        exact absurd (hclaims q' hqp' hq').1 hq
    · by_cases hqp' : q' = p
      · rw [hqp', Function.update_self] at hq'
        exact absurd (hclaims q hqp hq).1 hq'
      · exact h.alone q q' (hclaims q hqp hq).2 (hclaims q' hqp' hq').2
  · by_cases hqp : q = p
    · rw [hqp, Function.update_self]
      exact hself
    · rw [hupdate q hqp]
      exact hothers q hqp

/-- A thread may be replaced by one that claims nothing. -/
theorem set (h : WithinLimit campaignId limit σ st) (p : Nat) {s : Stage × Spending}
    (hknows : s.1.Knows σ.calls) (hstage : Accounted campaignId limit σ.calls s)
    (hclaims : s.2.claims campaignId = 0) :
    WithinLimit campaignId limit σ (Function.update st p s) := by
  refine h.put p (.refl _) ?_ hstage (fun hne => absurd hclaims hne) ?_ fun q _ => h.bound q
  · rw [fst_update]
    exact h.facts.set p hknows
  · have hbound := h.bound p
    omega

/-- A tick that counts with nobody else about to reserve has room for what is left of the limit. Its
room is set to the limit less the count, or to nothing where the count has reached the limit. -/
theorem count_bound (h : WithinLimit campaignId limit σ st) (p : Nat) (env : Env)
    (hspending : Spending.Emits (st p).2 (.countCallsByState campaignId)) :
    (activeCalls campaignId σ.calls : Int) + ((st p).2.next (.countCallsByState campaignId)
      (exec env (.countCallsByState campaignId) σ).1).claims campaignId ≤ limit := by
  have hbound := h.bound p
  have hlimit := (h.stages p).limit
  generalize (st p).2 = s at hspending hbound hlimit ⊢
  generalize ho : Op.countCallsByState campaignId = o at hspending
  -- only a counting tick counts calls, and its room is what the count leaves
  cases hspending with
  | plain _ hplain =>
    subst ho
    cases hplain
  | count campaign room =>
    obtain rfl : campaignId = campaign.id := Op.countCallsByState.inj ho
    cases hr : (exec env (.countCallsByState campaign.id) σ).1 with
    | error e => exact hbound
    | ok counts =>
      have hcounts := hr
      rw [exec_of_ok hr] at hcounts
      obtain rfl : CallRepo.countByState campaign.id σ.calls = counts := Except.ok.inj hcounts
      show (activeCalls campaign.id σ.calls : Int)
        + (Spending.ticking campaign (campaign.maxConcurrentCalls
          - (activeCalls campaign.id σ.calls : Nat)).toNat .over).claims campaign.id ≤ limit
      rw [Spending.claims_of_eq rfl, hlimit campaign room .over rfl rfl]
      show (activeCalls campaign.id σ.calls : Int)
        + ((limit - (activeCalls campaign.id σ.calls : Nat)).toNat + 0 : Nat) ≤ limit
      omega
  | decide => cases ho
  | claim => cases ho
  | reserve => cases ho
  | initiate => cases ho

/-- What one operation does to the account. A count makes the whole room anew, under the guard;
every other operation takes from what is claimed at least what it adds to the active calls. -/
theorem op (h : WithinLimit campaignId limit σ st) (p : Nat) {o : Op} (env : Env)
    (hemits : TickEmits (st p).1 o) (hspending : Spending.Emits (st p).2 o)
    (hguard : o = .countCallsByState campaignId → ∀ q, q ≠ p → (st q).2.claims campaignId = 0) :
    WithinLimit campaignId limit (exec env o σ).2 (Function.update st p
      ((st p).1.next o (exec env o σ).1, (st p).2.next o (exec env o σ).1)) := by
  have hfacts : CallFacts (exec env o σ).2 fun q => (Function.update st p
      ((st p).1.next o (exec env o σ).1, (st p).2.next o (exec env o σ).1) q).1 := by
    rw [fst_update]
    exact h.facts.tick p env hemits
  have hstage := Accounted.next env h.facts (h.stages p) hemits hspending
  by_cases hcount : o = .countCallsByState campaignId
  · -- a count: all room is that of the tick that counts
    subst hcount
    have hstore : (exec env (.countCallsByState campaignId) σ).2 = σ :=
      SafetyController.exec_of_reads rfl env σ
    refine h.put p (exec_evolves env _ σ) hfacts hstage (fun _ => hguard rfl) ?_ fun q _ => ?_
    · rw [hstore]
      exact h.count_bound p env hspending
    · rw [hstore]
      exact h.bound q
  · obtain ⟨n, hclaims, hactive⟩ := spend env h.facts (h.stages p) hemits hspending hcount
      (exec env o σ).1
    have hbound := h.bound p
    refine h.put p (exec_evolves env o σ) hfacts hstage (fun hne q hq => ?_) ?_ fun q hq => ?_
    · -- it has claimed before, so the others have not
      have hne : ((st p).2.next o (exec env o σ).1).claims campaignId ≠ 0 := hne
      by_contra hother
      exact hq (h.alone q p hother (by omega))
    · show (activeCalls campaignId (exec env o σ).2.calls : Int)
        + ((st p).2.next o (exec env o σ).1).claims campaignId ≤ limit
      omega
    · have hboundq := h.bound q
      by_cases hzero : (st q).2.claims campaignId = 0
      · omega
      · -- the other tick may still reserve, so this one may not
        have hnone : (st p).2.claims campaignId = 0 := by
          by_contra hne
          exact hq (h.alone q p hzero hne)
        omega

/-- **The account is kept by every step** of a run in which counts are fresh. -/
theorem preserves : (accounted settings cfg).PreservesRunning (countsFresh F campaignId limit)
    fun σ _ st => WithinLimit campaignId limit σ st where
  spawn := fun p job h hjob _ => by
    cases job with
    | tick tracker campaign request pacingDecisionId workerId =>
      -- a new tick claims nothing before it has counted
      refine h.set p trivial ⟨fun campaign' hs => ?_, fun campaign' room attempt hs => ?_,
        fun campaign' room c hs => ?_⟩ ?_
      · cases hs
        exact ⟨0, .over, rfl⟩
      · cases hs
        exact hjob
      · cases hs
      · show (if campaign.id = campaignId then 0 + 0 else 0) = 0
        rw [Nat.add_zero, ite_self]
    | other job =>
      cases job with
      | allocate => exact hjob.elim
      | processEvent event => exact h.set p trivial (Accounted.outside rfl) rfl
      | runSweeps => exact h.set p (CallFacts.knows_start _ .runSweeps) (Accounted.outside rfl) rfl
      | agentAction => exact h.set p trivial (Accounted.outside rfl) rfl
      | releaseFinishedWrapUps => exact h.set p trivial (Accounted.outside rfl) rfl
  op := fun p o env h hemits hguard => h.op p env hemits.1 hemits.2 hguard
  drop := fun p h => h.set p trivial (Accounted.outside rfl) rfl

end WithinLimit

/-- **The concurrency limit of a campaign holds while counts are fresh.** Whatever dialers, provider
events, sweeps and agents do in whatever order, and whatever fails: if no tick counts the active
calls of the campaign while another tick of it may still reserve, the active calls stay within its
limit. -/
theorem active_calls_within_limit {F : Type} [FloatOps F] (settings : SafetySettings F)
    (cfg : Config) (campaignId : DocId) (limit : Int) (σ₀ : Store) (hsound : CallsSound σ₀.calls)
    (hstart : (activeCalls campaignId σ₀.calls : Int) ≤ limit)
    {w : World (TickJob F) Op Res Exn Store Env (TickOutcome F) (Stage × Spending)}
    (h : Reachable (accounted settings cfg) (countsFresh F campaignId limit) (World.fresh σ₀) w) :
    (activeCalls campaignId w.store.calls : Int) ≤ limit := by
  have hinit : WithinLimit campaignId limit σ₀ fun _ => (.idle, .outside) := by
    refine ⟨⟨hsound, fun _ => trivial⟩, fun _ => Accounted.outside rfl, fun p q hp => ?_,
      fun _ => ?_⟩
    · exact absurd rfl hp
    · exact hstart
  have hwithin := h.invariant_running accounted_conforms WithinLimit.preserves
    (World.Obeys.fresh _ σ₀) hinit
  have hbound := hwithin.bound 0
  omega

/-! The theorem at two ticks of a campaign that may have one call at a time, with two agents free.
The second tick counts when the first has dialled, and finds no room. -/

def oneCallCampaign : Campaign := { demoCampaign with maxConcurrentCalls := 1 }

def tickOf (workerId : WorkerId) : TickJob ℚ :=
  .tick (fun _ => none) oneCallCampaign
    { requested := 1, mode := .PREDICTIVE, snapshotCapturedAt := 0 } none workerId

def inTurnActions : List (Action (TickJob ℚ) Env) :=
  .spawn 0 (tickOf "v") :: List.replicate 20 (.perform 0 demoEnv)
    ++ .spawn 1 (tickOf "w") :: List.replicate 20 (.perform 1 secondEnv)

def inTurn : World (TickJob ℚ) Op Res Exn Store Env (TickOutcome ℚ) (Stage × Spending) :=
  (World.fresh twoPairs).acts (accounted {} {}) inTurnActions

/-- Nothing is started but ticks that may have one call at a time. -/
def startsTick : Action (TickJob ℚ) Env → Bool
  | .spawn _ (.tick _ campaign _ _ _) => campaign.maxConcurrentCalls = 1
  | .spawn _ (.other _) => false
  | _ => true

theorem fixedLimit_of_startsTick {p : Nat} {job : TickJob ℚ}
    (h : startsTick (.spawn p job) = true) : fixedLimit oneCallCampaign.id 1 job := by
  cases job with
  | tick tracker campaign request pacingDecisionId workerId => exact fun _ => of_decide_eq_true h
  | other job => cases h

/-- The other of the two threads may not reserve. -/
def unclaimed (w : World (TickJob ℚ) Op Res Exn Store Env (TickOutcome ℚ) (Stage × Spending)) :
    Action (TickJob ℚ) Env → Bool
  | .perform p _ => [0, 1].all fun q =>
      q = p ∨ (w.stageOf (accounted {} {}) q).2.claims oneCallCampaign.id = 0
  | a => startsTick a

theorem inTurn_reachable : Reachable (accounted {} {}) (countsFresh ℚ oneCallCampaign.id 1)
    (World.fresh twoPairs) inTurn := by
  refine Reachable.of_checked_among [0, 1] unclaimed (fun w a hidle hok => ?_)
    (Action.mem_of_startsAmong (by decide)) (fun _ _ => rfl) .refl (by decide +kernel)
  cases a with
  | spawn p job => exact fixedLimit_of_startsTick hok
  | crash p => trivial
  | perform p env =>
    intro t o k _ _ _ _ q hq
    by_cases hmem : q ∈ [0, 1]
    · have hclaims := List.all_eq_true.mp hok q hmem
      exact (of_decide_eq_true hclaims).resolve_left hq
    · rw [hidle q hmem]
      rfl

theorem active_calls_within_limit_inTurn : activeCalls oneCallCampaign.id inTurn.store.calls = 1
    ∧ (activeCalls oneCallCampaign.id inTurn.store.calls : Int) ≤ 1 := by
  refine ⟨by decide +kernel, ?_⟩
  exact active_calls_within_limit {} {} oneCallCampaign.id 1 twoPairs twoPairs_sound (by decide)
    inTurn_reachable

/-! The same two ticks, both of which count before either reserves: two calls where one is
allowed. -/

def atOnceActions : List (Action (TickJob ℚ) Env) :=
  [.spawn 0 (tickOf "v"), .spawn 1 (tickOf "w")]
    ++ List.replicate 9 (.perform 0 demoEnv) ++ List.replicate 9 (.perform 1 secondEnv)
    ++ List.replicate 6 (.perform 0 demoEnv) ++ List.replicate 6 (.perform 1 secondEnv)

theorem two_calls_where_one_is_allowed : ¬ ∀ (settings : SafetySettings ℚ) (cfg : Config)
    (campaignId : DocId) (limit : Int) (σ₀ : Store)
    (w : World (TickJob ℚ) Op Res Exn Store Env (TickOutcome ℚ) Stage), CallsSound σ₀.calls →
    (activeCalls campaignId σ₀.calls : Int) ≤ limit →
    Reachable (ticking settings cfg)
      { admits := fixedLimit campaignId limit, guard := fun _ _ _ _ _ => True } (World.fresh σ₀) w →
    (activeCalls campaignId w.store.calls : Int) ≤ limit := by
  intro hall
  have hle := hall {} {} oneCallCampaign.id 1 twoPairs
    ((World.fresh twoPairs).acts (ticking {} {}) atOnceActions) twoPairs_sound (by decide)
    (Reachable.of_acts _ _ (fun p job hp => ?_) fun _ _ _ _ => trivial)
  · have htwo : activeCalls oneCallCampaign.id ((World.fresh twoPairs).acts (ticking (F := ℚ) {} {})
        atOnceActions).store.calls = 2 := by
      decide +kernel
    rw [htwo] at hle
    exact absurd hle (by decide)
  · have hspawns : ∀ a ∈ atOnceActions, startsTick a = true := by decide
    exact fixedLimit_of_startsTick (hspawns _ hp)

end SmartDialer
