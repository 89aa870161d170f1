import SmartDialer.Calls.Lifecycle

/-!
# At most one origination

`_dial` ignores the answer of the transition to `RESERVED` and originates only after its own
transition to `INITIATED` has been applied. Since that transition needs a rank below
`INITIATED`, at most one thread per call ever reaches the provider, however many have taken the
call on, and the idempotency key extends this to attempts.

What makes the argument work is that being about to originate is exclusive: a thread gets there by a
transition that raises the rank of the call, so no second thread can, and the first one leaves that
point with the originate itself.
-/

namespace SmartDialer

open DocStore Concurrent

/-- The call an entry of the trace hands to the provider. -/
def originatedCall (e : Entry Op Res Exn Env) : Option DocId :=
  match e.op with
  | .originateCall _ request => some request.callId
  | _ => none

/-- The attempt an entry of the trace hands to the provider, as the store describes it. -/
def originatedAttempt (calls : Calls) (e : Entry Op Res Exn Env) :
    Option (DocId × DocId × DocId × Nat) :=
  (originatedCall e).bind fun c => (calls.get? c).map fun d =>
    (d.campaignId, d.agentId, d.borrowerId, d.attempt)

/-- How often call `c` has been handed to the provider. -/
def originations (tr : Trace) (c : DocId) : Nat :=
  tr.countP fun e => originatedCall e = some c

theorem originations_append (tr : Trace) (e : Entry Op Res Exn Env) (c : DocId) :
    originations (tr ++ [e]) c
      = originations tr c + if originatedCall e = some c then 1 else 0 := by
  unfold originations
  rw [List.countP_append, List.countP_singleton]
  simp only [decide_eq_true_eq]

/-- A thread comes to `callInitiated` only by its own transition of a queued call, and leaves it
when it originates. -/
theorem Stage.callInitiated_of_next {s : Stage} {o : Op} {r : Except Exn (Res o)}
    {campaign : Campaign} {pair : ReservationPair} {c : DocId} (hemits : Emits s o)
    (h : s.next o r = .callInitiated campaign pair c) :
    s = .callInitiated campaign pair c ∧ (∀ name request, o ≠ .originateCall name request)
    ∨ s = .callQueued campaign pair c ∧ ∃ initiated,
      (⟨o, r⟩ : Σ o, Except Exn (Res o)) = ⟨.transitionCall c .INITIATED none, .ok (some initiated)⟩ := by
  have hstruck : ∀ (pair' : ReservationPair) (e : Exn),
      pair'.struck e ≠ .callInitiated campaign pair c := by
    intro pair' e
    cases e <;> exact Stage.noConfusion
  cases hemits with
  | initiateCall =>
    rcases r with e | (_ | initiated)
    · exact absurd h (hstruck _ e)
    · cases h
    · cases h
      exact Or.inr ⟨rfl, initiated, rfl⟩
  -- the two operations between `INITIATED` and the originate stay at the stage
  | agentDials | bindCall =>
    cases r with
    | error e => exact absurd h (hstruck _ e)
    | ok a =>
      cases h
      exact Or.inl ⟨rfl, fun _ _ => Op.noConfusion⟩
  -- from the insertion or the lookup a dial comes to `callQueued` at most
  | createCall =>
    rcases r with e | created
    · cases e <;> cases h
    · simp only [next, nextPairClaimed, nextPairClaimed.taken] at h
      split at h <;> cases h
  | findExisting =>
    rcases r with e | (_ | existing)
    · exact absurd h (hstruck _ e)
    · cases h
    · simp only [next, nextPairClaimed, nextPairClaimed.taken] at h
      split at h <;> cases h
  | awaitAnswer | hangup =>
    rcases r with e | a
    · cases e <;> cases h
    · cases h
  | attach | reserveAgent | reserveBorrower | matchCall | applyEvent | record =>
    rcases r with e | (_ | a)
    · first | cases h | exact absurd h (hstruck _ e)
    · cases h
    · cases h
  | _ =>
    cases r with
    | error e => first | cases h | exact absurd h (hstruck _ e)
    | ok a => cases h

/-! ## The invariant

Two of its four parts are about the future: while a thread is at `callInitiated` its call has not
been handed over, and it is the only one there. -/

/-- A call is handed over at most once, only from `INITIATED` on, and while a thread is about to
hand it over nobody has done so or is about to. -/
structure Originations (σ : Store) (tr : Trace) (st : Nat → Stage) : Prop where
  once : ∀ c, originations tr c ≤ 1
  initiated : ∀ c, originations tr c ≠ 0 →
    ∃ d, σ.calls.get? c = some d ∧ CallSm.rank .INITIATED ≤ d.stateRank
  pending : ∀ p campaign pair c, st p = .callInitiated campaign pair c → originations tr c = 0
  unique : ∀ p q campaign pair campaign' pair' c, st p = .callInitiated campaign pair c →
    st q = .callInitiated campaign' pair' c → p = q

namespace Originations

variable {σ : Store} {tr : Trace} {st : Nat → Stage}

/-- The thread that takes a call to `INITIATED` finds it below. -/
theorem rank_lt_of_initiated {env : Env} {c : DocId} {x : Call}
    (h : (exec env (.transitionCall c .INITIATED none) σ).1 = .ok (some x)) :
    ∃ d, σ.calls.get? c = some d ∧ d.stateRank < CallSm.rank .INITIATED := by
  have hexec := exec_of_ok h
  rw [hexec] at h
  rcases CallRepo.transitionCall_cases env.now c .INITIATED none σ.calls
    with ⟨d, hd, hfilter, -⟩ | ⟨-, hnone, -⟩
  · exact ⟨d, hd, hfilter.2⟩
  · cases hnone.symm.trans (Except.ok.inj h)

/-- Where the stage after a step is `callInitiated`, the call has not been handed over and no
other thread is about to. -/
theorem next_callInitiated (hfacts : CallFacts σ st) (h : Originations σ tr st) {p : Nat} {o : Op}
    {env : Env} (hemits : Emits (st p) o) {campaign : Campaign} {pair : ReservationPair}
    {c : DocId} (hnext : (st p).next o (exec env o σ).1 = .callInitiated campaign pair c) :
    (∀ name request, o ≠ .originateCall name request) ∧ originations tr c = 0
      ∧ ∀ q campaign' pair', st q = .callInitiated campaign' pair' c → q = p := by
  rcases Stage.callInitiated_of_next hemits hnext with ⟨hs, ho⟩ | ⟨hs, x, hx⟩
  · exact ⟨ho, h.pending p _ _ c hs, fun q _ _ hq => h.unique q p _ _ _ _ c hq hs⟩
  · obtain ⟨rfl, hr⟩ := Sigma.mk.inj hx
    obtain ⟨d, hd, hlt⟩ := rank_lt_of_initiated (eq_of_heq hr)
    refine ⟨fun _ _ => Op.noConfusion, ?_, fun q campaign' pair' hq => ?_⟩
    · by_contra hne
      obtain ⟨d', hd', hle⟩ := h.initiated c hne
      rw [hd] at hd'
      cases hd'
      omega
    · have hknows := hfacts.knows q
      rw [hq] at hknows
      obtain ⟨d', hd', -, hle⟩ := hknows
      rw [hd] at hd'
      cases hd'
      omega

/-- The hand-over: the thread was at `callInitiated` and is not any more. Its call has not been
originated before, by the invariant, and is `INITIATED`, so no other thread will come to it. -/
theorem originate (hfacts : CallFacts σ st) (h : Originations σ tr st) (p : Nat) {name : String}
    {request : OriginateRequest} (env : Env) (hemits : Emits (st p) (.originateCall name request)) :
    Originations (exec env (.originateCall name request) σ).2
      (tr ++ [⟨p, .originateCall name request, env, (exec env (.originateCall name request) σ).1⟩])
      (Function.update st p ((st p).next (.originateCall name request)
        (exec env (.originateCall name request) σ).1)) := by
  have hleft : ∀ campaign pair c, (st p).next (.originateCall name request)
      (exec env (.originateCall name request) σ).1 ≠ .callInitiated campaign pair c :=
    fun _ _ _ hnext => (next_callInitiated hfacts h hemits hnext).1 name request rfl
  obtain ⟨campaign, pair, hs⟩ : ∃ campaign pair,
      st p = .callInitiated campaign pair request.callId := by
    generalize st p = s at hemits
    cases hemits with
    | originate _ _ hid => exact ⟨_, _, by rw [hid]⟩
  have hzero := h.pending p _ _ _ hs
  have hcount : ∀ c, originations (tr ++ [⟨p, .originateCall name request, env,
      (exec env (.originateCall name request) σ).1⟩]) c
      = originations tr c + if request.callId = c then 1 else 0 := fun c => by
    rw [originations_append]
    simp only [originatedCall, Option.some.injEq]
  -- the thread that has handed its call over is done with it; the others are where they were
  have hold : ∀ q campaign' pair' c, Function.update st p ((st p).next (.originateCall name request)
      (exec env (.originateCall name request) σ).1) q = .callInitiated campaign' pair' c →
      q ≠ p ∧ st q = .callInitiated campaign' pair' c := by
    intro q campaign' pair' c hq
    by_cases hqp : q = p
    · rw [hqp, Function.update_self] at hq
      exact absurd hq (hleft _ _ _)
    · rw [Function.update_of_ne hqp] at hq
      exact ⟨hqp, hq⟩
  refine ⟨fun c => ?_, fun c hne => ?_, fun q campaign' pair' c hq => ?_,
    fun q q' _ _ _ _ c hq hq' => h.unique _ _ _ _ _ _ c (hold _ _ _ _ hq).2 (hold _ _ _ _ hq').2⟩
  · rw [hcount]
    by_cases hc : request.callId = c
    · rw [if_pos hc, ← hc, hzero]
    · rw [if_neg hc]
      exact h.once c
  · have hbefore : ∃ d, σ.calls.get? c = some d ∧ CallSm.rank .INITIATED ≤ d.stateRank := by
      by_cases hc : request.callId = c
      · have hknows := hfacts.knows p
        rw [hs] at hknows
        obtain ⟨d, hd, -, hrank⟩ := hknows
        exact ⟨d, hc ▸ hd, hrank⟩
      · rw [hcount, if_neg hc] at hne
        exact h.initiated c hne
    obtain ⟨d, hd, hrank⟩ := hbefore
    obtain ⟨d', hd', hev⟩ := exec_evolves env (.originateCall name request) σ c d hd
    exact ⟨d', hd', hrank.trans hev.rank⟩
  · -- no other thread is about to hand over the same call
    obtain ⟨hqp, hq⟩ := hold q _ _ c hq
    have hc : request.callId ≠ c := fun hc => by
      rw [hc] at hs
      exact hqp (h.unique q p _ _ _ _ c hq hs)
    rw [hcount, if_neg hc]
    exact h.pending q _ _ c hq

/-- Any other operation: the counts stay, and at most its thread comes to `callInitiated`. -/
theorem op_of_ne (hfacts : CallFacts σ st) (h : Originations σ tr st) (p : Nat) {o : Op} (env : Env)
    (hemits : Emits (st p) o) (hother : ∀ name request, o ≠ .originateCall name request) :
    Originations (exec env o σ).2 (tr ++ [⟨p, o, env, (exec env o σ).1⟩])
      (Function.update st p ((st p).next o (exec env o σ).1)) := by
  -- the operation is no originate, so the counts stay
  have hcount : ∀ c, originations (tr ++ [⟨p, o, env, (exec env o σ).1⟩]) c
      = originations tr c := fun c => by
    rw [originations_append, if_neg]
    · rfl
    · intro ho
      cases o with
      | originateCall name request => exact hother _ _ rfl
      | _ => cases ho
  refine ⟨fun c => hcount c ▸ h.once c, fun c hne => ?_, fun q campaign pair c hq => ?_,
    fun q q' _ _ _ _ c hq hq' => ?_⟩
  · rw [hcount] at hne
    obtain ⟨d, hd, hrank⟩ := h.initiated c hne
    obtain ⟨d', hd', hev⟩ := exec_evolves env o σ c d hd
    exact ⟨d', hd', hrank.trans hev.rank⟩
  · rw [hcount]
    by_cases hqp : q = p
    · rw [hqp, Function.update_self] at hq
      exact (next_callInitiated hfacts h hemits hq).2.1
    · rw [Function.update_of_ne hqp] at hq
      exact h.pending q _ _ c hq
  · -- the thread that has just come to the call is alone there
    by_cases hqp : q = p
    · by_cases hqp' : q' = p
      · rw [hqp, hqp']
      · rw [hqp, Function.update_self] at hq
        rw [Function.update_of_ne hqp'] at hq'
        exact absurd ((next_callInitiated hfacts h hemits hq).2.2 q' _ _ hq') hqp'
    · rw [Function.update_of_ne hqp] at hq
      by_cases hqp' : q' = p
      · rw [hqp', Function.update_self] at hq'
        exact absurd ((next_callInitiated hfacts h hemits hq').2.2 q _ _ hq) hqp
      · rw [Function.update_of_ne hqp'] at hq'
        exact h.unique q q' _ _ _ _ c hq hq'

theorem op (hfacts : CallFacts σ st) (h : Originations σ tr st) (p : Nat) {o : Op} (env : Env)
    (hemits : Emits (st p) o) :
    Originations (exec env o σ).2 (tr ++ [⟨p, o, env, (exec env o σ).1⟩])
      (Function.update st p ((st p).next o (exec env o σ).1)) := by
  cases o with
  | originateCall name request => exact originate hfacts h p env hemits
  | _ => exact op_of_ne hfacts h p env hemits fun _ _ => Op.noConfusion

theorem start_ne_callInitiated (job : Job) (campaign : Campaign) (pair : ReservationPair)
    (c : DocId) : job.start ≠ .callInitiated campaign pair c := by
  cases job <;> exact Stage.noConfusion

theorem spawn (h : Originations σ tr st) (p : Nat) (job : Job) :
    Originations σ tr (Function.update st p job.start) := by
  have hold : ∀ q campaign pair c, Function.update st p job.start q
      = .callInitiated campaign pair c → st q = .callInitiated campaign pair c := by
    intro q campaign pair c hq
    by_cases hqp : q = p
    · rw [hqp, Function.update_self] at hq
      exact absurd hq (start_ne_callInitiated job _ _ _)
    · rwa [Function.update_of_ne hqp] at hq
  exact ⟨h.once, h.initiated, fun q _ _ c hq => h.pending q _ _ c (hold _ _ _ _ hq),
    fun q q' _ _ _ _ c hq hq' => h.unique q q' _ _ _ _ c (hold _ _ _ _ hq) (hold _ _ _ _ hq')⟩

theorem initial (σ : Store) : Originations σ [] (fun _ => .idle) where
  once := fun _ => Nat.zero_le _
  initiated := fun _ hne => absurd rfl hne
  pending := fun _ _ _ _ hs => Stage.noConfusion hs
  unique := fun _ _ _ _ _ _ _ hs => Stage.noConfusion hs

theorem preserves (cfg : Config) (R : SystemRegime) :
    (system cfg).Preserves R fun σ tr st => CallFacts σ st ∧ Originations σ tr st where
  spawn := fun p job h _ _ => ⟨h.1.set p (CallFacts.knows_start _ job), h.2.spawn p job⟩
  op := fun p _ env h hemits _ _ => ⟨h.1.op p env hemits, op h.1 h.2 p env hemits⟩

end Originations

/-- **At-most-once origination.** In every run, whatever fails, dies, is cancelled, recovered or
reserved again: the provider is asked at most once for each call, only for calls that exist, and
at most once for each campaign, agent, borrower and attempt. -/
theorem originate_at_most_once {cfg : Config} {σ₀ : Store} {w : SystemWorld}
    (h₀ : CallsSound σ₀.calls)
    (h : Reachable (system cfg) SystemRegime.anything (World.fresh σ₀) w) :
    (∀ c, w.trace.countP (fun e => originatedCall e = some c) ≤ 1)
    ∧ (∀ e ∈ w.trace, ∀ c, originatedCall e = some c → w.store.calls.get? c ≠ none)
    ∧ ∀ attempt, w.trace.countP (fun e => originatedAttempt w.store.calls e = some attempt) ≤ 1 := by
  have hinv := h.invariant system_conforms (Originations.preserves cfg _) (World.Obeys.fresh _ σ₀)
    ⟨⟨h₀, fun _ => trivial⟩, .initial σ₀⟩
  obtain ⟨hfacts, horig⟩ := hinv
  refine ⟨horig.once, fun e he c hc hnone => ?_, fun attempt => ?_⟩
  · have hne : originations w.trace c ≠ 0 :=
      List.countP_eq_zero.not.mpr fun h => h e he (decide_eq_true hc)
    obtain ⟨d, hd, -⟩ := horig.initiated c hne
    rw [hnone] at hd
    cases hd
  · -- calls of one attempt carry one key, and so are one call
    by_cases hany : ∃ e ∈ w.trace, originatedAttempt w.store.calls e = some attempt
    · obtain ⟨e₀, -, he₀⟩ := hany
      obtain ⟨c, hc, hget⟩ := Option.bind_eq_some_iff.mp he₀
      obtain ⟨d, hd, hattempt⟩ := Option.map_eq_some_iff.mp hget
      refine (List.countP_mono_left fun e _ he => ?_).trans (horig.once c)
      obtain ⟨c', hc', hget'⟩ := Option.bind_eq_some_iff.mp (of_decide_eq_true he)
      obtain ⟨d', hd', hattempt'⟩ := Option.map_eq_some_iff.mp hget'
      have hkeys : d'.idempotencyKey = d.idempotencyKey := by
        have hparts := hattempt'.trans hattempt.symm
        simp only [Prod.mk.injEq] at hparts
        rw [(hfacts.sound c' d' hd').key, (hfacts.sound c d hd).key, hparts.1, hparts.2.1,
          hparts.2.2.1, hparts.2.2.2]
      have hsame : c' = c := w.store.calls.uniqueIdempotencyKey.eq hd' hd
        (congrArg some hkeys) rfl
      exact decide_eq_true (hsame ▸ hc')
    · rw [List.countP_eq_zero.mpr fun e he h => hany ⟨e, he, of_decide_eq_true h⟩]
      exact Nat.zero_le 1

theorem originate_at_most_once_demo : (demoRun.world 40).trace.countP
    (fun e => originatedCall e = some ⟨"c", by decide⟩) ≤ 1 :=
  (originate_at_most_once demoStore_sound (demoRun.reachable 40)).1 _

/-- In that run the call is in fact handed over. -/
example : (demoRun.world 40).trace.countP
    (fun e => originatedCall e = some ⟨"c", by decide⟩) = 1 := by decide +kernel

end SmartDialer
