import SmartDialer.Events.Answered
import SmartDialer.Events.Ledger

/-!
# Events in any order

The call moves up the ranks only, and a processor that gives up on an event has seen the call at
its rank or beyond. So once all processors have finished, the call is where the highest of the
recorded events has taken it, whatever the interleaving was.

* `Converging`: the invariant, which relates the state of the call to the events that have been
  recorded.
* `Converging.op`: one operation of one thread.
* `processAll_state`: events one after another, where the order decides among terminal states.
* `events_confluent`: all together.
-/

namespace SmartDialer

open DocStore Concurrent Prog EventProcessor

/-- Nothing fails, and only the event processor moves the call. -/
def SystemRegime.eventsOnly (c : DocId) : SystemRegime where
  admits := fun _ => True
  guard := fun _ st p o env => env.fault = none
    ∧ ∀ t reason, o = .transitionCall c t reason → (st p).event ≠ none

theorem eventsOnly_faultless {c : DocId} : ∀ σ st p o env,
    (SystemRegime.eventsOnly c).guard σ st p o env → env.fault = none :=
  fun _ _ _ _ _ hguard => hguard.1

/-- An event about the call that calls for the state has been recorded in the run. -/
def Heard (tr : Trace) (d₀ : Call) (t : CallState) : Prop :=
  ∃ p event, RecordedBy tr p event ∧ event.About d₀
    ∧ eventTypeToCallState event.eventType = some t

/-- The thread has recorded the event and not yet decided about it. -/
def Stage.Deciding (s : Stage) (event : ProviderEvent) : Prop :=
  s = .eventRecorded event ∨ ∃ seen, s = .eventMatched event seen

theorem Stage.Deciding.event {s : Stage} {event : ProviderEvent} (h : s.Deciding event) :
    s.event = some event := by
  rcases h with rfl | ⟨seen, rfl⟩ <;> rfl

/-- The call is in its first state or one it has heard of, at least as high as everything that has
been decided; and whoever looks at a call looks at an attached one. -/
structure Converging (c : DocId) (d₀ : Call) (σ : Store) (tr : Trace) (st : Nat → Stage) :
    Prop where
  call : ∃ d, σ.calls.get? c = some d ∧ d₀.Evolves d
    ∧ (d.state = d₀.state ∨ Heard tr d₀ d.state)
    ∧ ∀ p event t, RecordedBy tr p event → event.About d₀ →
      eventTypeToCallState event.eventType = some t →
      CallSm.rank t ≤ CallSm.rank d.state ∨ (st p).Deciding event
  seen : ∀ p event seen, st p = .eventMatched event seen →
    CallSm.rank .INITIATED ≤ CallSm.rank seen.state

section

variable {c : DocId} {d₀ d : Call} {σ : Store} {tr : Trace} {st : Nat → Stage}
  {event : ProviderEvent} {t : CallState}

theorem Heard.append {e : Entry Op Res Exn Env} (h : Heard tr d₀ t) : Heard (tr ++ [e]) d₀ t := by
  obtain ⟨p, event, hby, habout, ht⟩ := h
  exact ⟨p, event, recordedBy_append.mpr (Or.inl hby), habout, ht⟩

/-- An event is about the call from the beginning on, if the call was attached then. -/
theorem ProviderEvent.About.of_evolves (h : event.About d) (hev : d₀.Evolves d)
    (hattached : d₀.providerCallId ≠ none) : event.About d₀ :=
  ⟨hev.providerName.symm.trans h.1, (hev.providerCallId hattached).symm.trans h.2⟩

/-- Two calls that an event is about are one. -/
theorem ProviderEvent.About.eq {calls : Calls} {c c' : DocId} {d d' : Call}
    (hd : calls.get? c = some d) (hd' : calls.get? c' = some d') (h : event.About d)
    (h' : event.About d') : c = c' := by
  have hkey : ∀ x : Call, event.About x →
      x.providerKey = some (event.providerName, event.providerCallId) := by
    intro x hx
    unfold Call.providerKey
    rw [hx.1, hx.2]
    rfl
  exact calls.uniqueProviderKey.eq hd hd' (hkey d h) (hkey d' h')

/-- What does not pass the filter of the database is no higher than the call. -/
theorem Call.Sound.rank_le_of_not_filter (hd : d.Sound) (h : ¬ CallRepo.transitionFilter t d) :
    CallSm.rank t ≤ CallSm.rank d.state := by
  by_contra hlt
  refine h ⟨?_, by rw [hd.rank]; omega⟩
  rw [hd.terminal]
  by_contra hterm
  have hsix := (CallSm.isTerminal_iff_rank d.state).mp (by simpa using hterm)
  have hle := CallSm.rank_le_six t
  omega

/-- What the event processor refuses on an attached call is no higher than the call. -/
theorem CallSm.rank_le_of_not_apply {s : CallState} (hs : rank .INITIATED ≤ rank s)
    (h : shouldApplyEvent s t ≠ .APPLY) : rank t ≤ rank s := by
  by_contra hlt
  refine h ((shouldApplyEvent_eq_apply hs).mpr ⟨?_, by omega⟩)
  by_contra hterm
  have hsix := (isTerminal_iff_rank s).mp (by simpa using hterm)
  have hle := rank_le_six t
  omega

end

namespace Converging

variable {c : DocId} {d₀ : Call} {σ : Store} {tr : Trace} {st : Nat → Stage}

/-- A thread comes to know the call only from the query. -/
theorem eventMatched_of_next {s : Stage} {o : Op} {r : Except Exn (Res o)} {event : ProviderEvent}
    {seen : Call} (hemits : Emits s o) (h : s.next o r = .eventMatched event seen) :
    (⟨o, r⟩ : Σ o, Except Exn (Res o))
      = ⟨.findByProviderCallId event.providerName event.providerCallId, .ok (some seen)⟩ := by
  have hevent : s.event = some event := by
    rw [← Stage.event_next s o r, h]
    rfl
  cases s with
  | eventReceived e =>
    cases hemits
    rcases r with x | (_ | _) <;> cases h
  -- the lookup is what leads to `eventMatched`
  | eventRecorded e =>
    cases hevent
    cases hemits
    rcases r with x | (_ | found) <;> cases h
    rfl
  | eventMatched e seen' =>
    cases hemits with
    | applyEvent => rcases r with x | (_ | updated) <;> cases h
    | ignoreEvent => cases r <;> cases h
  | eventApplied e updated t agent =>
    cases hemits <;> cases r <;> cases h
  | eventAgentReturned e updated t =>
    cases hemits
    cases r <;> cases h
  | eventClosing e | eventFailed e =>
    cases hemits
    cases r <;> cases h
  | eventDuplicate e => cases hemits
  | _ => cases hevent

/-- What a thread has seen of a call, it has seen of an attached one. -/
theorem seen_op (hsound : CallsSound σ.calls) (h : Converging c d₀ σ tr st) (p : Nat) {o : Op}
    {env : Env} (hemits : Emits (st p) o) :
    ∀ q event seen, Function.update st p ((st p).next o (exec env o σ).1) q
      = .eventMatched event seen → CallSm.rank .INITIATED ≤ CallSm.rank seen.state := by
  intro q event seen hq
  by_cases hqp : q = p
  · subst hqp
    rw [Function.update_self] at hq
    have hfound := eventMatched_of_next hemits hq
    obtain ⟨rfl, hans⟩ := Sigma.mk.inj_iff.mp hfound
    have hans := eq_of_heq hans
    rw [exec_of_ok hans] at hans
    obtain ⟨d, hd, -, hattached, rfl⟩ :=
      CallRepo.findByProviderCallId_eq_some (Except.ok.inj hans)
    exact (hsound _ d hd).attached (by simp [hattached])
  · rw [Function.update_of_ne hqp] at hq
    exact h.seen q event seen hq

/-- A thread that leaves a decision to others has decided: the call is as high as its event. A
decision to ignore an event was taken on a call that had been read; the call has only moved up
since, so the decision would be the same now. -/
theorem deciding_op (hfacts : CallFacts σ st) (h : Converging c d₀ σ tr st) {p : Nat} {o : Op}
    {env : Env} (hemits : Emits (st p) o) (hfault : env.fault = none) {d : Call}
    (hd : σ.calls.get? c = some d) {event : ProviderEvent} {t : CallState}
    (habout : event.About d) (ht : eventTypeToCallState event.eventType = some t)
    (hdeciding : (st p).Deciding event)
    (hstays : ∀ reason, o = .transitionCall c t reason → ¬ CallRepo.transitionFilter t d) :
    CallSm.rank t ≤ CallSm.rank d.state ∨ ((st p).next o (exec env o σ).1).Deciding event := by
  have hsound := hfacts.sound c d hd
  have hknows := hfacts.knows p
  have hseen := h.seen p
  generalize st p = s at *
  rcases hdeciding with rfl | ⟨seen, rfl⟩
  · cases hemits
    obtain rfl := Calls.id_of_get? hd
    -- the event is about this call, so the lookup finds it
    have hfound := findByProviderCallId_of_about hd hsound habout
    have hans : (exec env (.findByProviderCallId event.providerName event.providerCallId) σ).1
        = .ok (some d) := by
      rw [exec_of_faultless hfault]
      exact congrArg Except.ok hfound
    rw [hans]
    exact Or.inr (Or.inr ⟨d, rfl⟩)
  · -- the call that has been seen is this one
    obtain ⟨d', hd', hname, hid, hrank⟩ := hknows
    obtain rfl := ProviderEvent.About.eq hd hd' habout ⟨hname, hid⟩
    cases hd.symm.trans hd'
    refine Or.inl ?_
    cases hemits with
    | applyEvent reason happlies =>
      cases ht.symm.trans happlies.1
      exact hsound.rank_le_of_not_filter (hstays reason rfl)
    | ignoreEvent status applied hnone =>
      have hle := CallSm.rank_le_of_not_apply (hseen event seen rfl) fun happly =>
        hnone t ⟨ht, happly⟩
      rw [← hsound.rank]
      exact hle.trans hrank

/-- Who moves the call for an event has the event in hand, and it is about the call. -/
theorem caller (hfacts : CallFacts σ st) {p : Nat} {t : CallState} {reason : Option String}
    (hemits : Emits (st p) (.transitionCall c t reason)) {d : Call}
    (hd : σ.calls.get? c = some d) {event : ProviderEvent} (hevent : (st p).event = some event) :
    (st p).inHand = some event ∧ event.About d
      ∧ eventTypeToCallState event.eventType = some t := by
  have hknows := hfacts.knows p
  generalize st p = s at *
  cases hemits with
  | applyEvent _ happlies =>
    cases hevent
    obtain ⟨d', hd', hname, hid, -⟩ := hknows
    cases hd.symm.trans hd'
    exact ⟨rfl, ⟨hname, hid⟩, happlies.1⟩
  | reserveCall | initiateCall | failCall | endCall => cases hevent

/-- **One operation.** It may add a recording, move the call or take a thread past its event, and
the clauses of the invariant are gone through one after another. -/
theorem op (hattached : d₀.providerCallId ≠ none) (hfacts : CallFacts σ st)
    (hrec : Recordings σ tr st) (h : Converging c d₀ σ tr st) (p : Nat) {o : Op} {env : Env}
    (hemits : Emits (st p) o) (hfault : env.fault = none)
    (honly : ∀ t reason, o = .transitionCall c t reason → (st p).event ≠ none) :
    Converging c d₀ (exec env o σ).2 (tr ++ [⟨p, o, env, (exec env o σ).1⟩])
      (Function.update st p ((st p).next o (exec env o σ).1)) := by
  refine ⟨?_, h.seen_op hfacts.sound p hemits⟩
  obtain ⟨d, hd, hev, hstate, hdecided⟩ := h.call
  -- either the call moves, for the event this thread has in hand, or its state stays
  by_cases hmove : ∃ t reason, o = .transitionCall c t reason ∧ CallRepo.transitionFilter t d
  · obtain ⟨t, reason, rfl, hfilter⟩ := hmove
    obtain ⟨event, hevent⟩ := Option.ne_none_iff_exists'.mp (honly t reason rfl)
    obtain ⟨hhand, habout, ht⟩ := caller hfacts hemits hd hevent
    rw [exec_of_faultless hfault]
    rcases CallRepo.transitionCall_cases env.now c t reason σ.calls
      with ⟨d', hd', -, -, hget, -⟩ | ⟨hno, -⟩
    · cases hd.symm.trans hd'
      have hrank : CallSm.rank d.state < CallSm.rank t := by
        rw [← (hfacts.sound c d hd).rank]
        exact hfilter.2
      refine ⟨_, hget, hev.trans (CallRepo.transitionUpdate_evolves hfilter),
        Or.inr (Heard.append ⟨p, event, hrec.inHand p event hhand,
          habout.of_evolves hev hattached, ht⟩), fun q event' t' hby habout' ht' => ?_⟩
      -- whoever was deciding goes on, and this thread is done with its event
      rcases recordedBy_append.mp hby with hby | hnow
      · rcases hdecided q event' t' hby habout' ht' with hle | hdeciding
        · exact Or.inl (hle.trans hrank.le)
        · by_cases hq : q = p
          · subst hq
            cases hevent.symm.trans hdeciding.event
            cases ht.symm.trans ht'
            exact Or.inl le_rfl
          · rw [Function.update_of_ne hq]
            exact Or.inr hdeciding
      · cases hnow
    · exact absurd hfilter (hno d hd)
  · obtain ⟨d', hd', hev', hsame⟩ : ∃ d', (exec env o σ).2.calls.get? c = some d'
        ∧ d.Evolves d' ∧ d'.state = d.state := by
      obtain ⟨d', hd', hev'⟩ := exec_evolves env o σ c d hd
      refine ⟨d', hd', hev', ?_⟩
      rw [exec_of_faultless hfault] at hd'
      obtain ⟨e, he, hcases⟩ := apply_call_cases env o hd
      cases he.symm.trans hd'
      rcases hcases with rfl | ⟨t, reason, ho, hfilter, -⟩ | ⟨k, -, -, rfl⟩
      · rfl
      · exact absurd ⟨t, reason, ho, hfilter⟩ hmove
      · rfl
    refine ⟨d', hd', hev.trans hev', ?_, fun q event t hby habout ht => ?_⟩
    · rw [hsame]
      exact hstate.imp_right Heard.append
    · rw [hsame]
      rcases recordedBy_append.mp hby with hby | hnow
      · rcases hdecided q event t hby habout ht with hle | hdeciding
        · exact Or.inl hle
        · by_cases hq : q = p
          · subst hq
            rw [Function.update_self]
            exact deciding_op hfacts h hemits hfault hd (habout.evolves hev) ht hdeciding
              fun reason ho hfilter => hmove ⟨t, reason, ho, hfilter⟩
          · rw [Function.update_of_ne hq]
            exact Or.inr hdeciding
      · obtain ⟨rfl, hnext, -⟩ := recording_of_emits hemits hnow
        rw [Function.update_self, hnext]
        exact Or.inr (Or.inl rfl)

/-- The invariant along every run, with the facts that it leans on. -/
theorem preserves (cfg : Config) (hattached : d₀.providerCallId ≠ none) :
    (system cfg).Preserves (SystemRegime.eventsOnly c) fun σ tr st =>
      CallFacts σ st ∧ Recordings σ tr st ∧ Converging c d₀ σ tr st where
  spawn := fun {σ tr st} p job h _ hnone => by
    refine ⟨h.1.set p (CallFacts.knows_start _ job), h.2.1.spawn p job hnone, ?_,
      fun q event seen hq => ?_⟩
    · obtain ⟨d, hd, hev, hstate, hdecided⟩ := h.2.2.call
      refine ⟨d, hd, hev, hstate, fun q event t hby habout ht =>
        (hdecided q event t hby habout ht).imp_right fun hdeciding => ?_⟩
      -- a thread that is started has recorded nothing
      have hq : q ≠ p := by
        rintro rfl
        obtain ⟨e, he, hrecording⟩ := hby
        exact hnone e he (recording_pid hrecording).symm
      rw [Function.update_of_ne hq]
      exact hdeciding
    · by_cases hqp : q = p
      · rw [hqp, Function.update_self] at hq
        cases job <;> cases hq
      · rw [Function.update_of_ne hqp] at hq
        exact h.2.2.seen q event seen hq
  op := fun {σ tr st live} p o env h hemits hlive hguard => by
    refine ⟨h.1.op p env hemits, h.2.1.op p env hemits,
      h.2.2.op hattached h.1 h.2.1 p hemits hguard.1 fun t reason ho => ?_⟩
    rw [← hlive]
    exact hguard.2 t reason ho

end Converging

/-! ## One after another

A processor that has the call to itself takes it to the target if that is higher. So the state after
a sequence is a fold over the states that the events call for. -/

/-- The events that the ledger lets pass when they come one after another. -/
def passing (known : ProviderEvent → Bool) : List ProviderEvent → List ProviderEvent
  | [] => []
  | event :: events =>
    if known event then passing known events
    else event :: passing (fun e => known e || e.key == event.key) events

/-- What an event that calls for `t` makes of the state of an attached call. -/
def advance (s t : CallState) : CallState :=
  if CallSm.isTerminal s = false ∧ CallSm.rank s < CallSm.rank t then t else s

theorem foldl_advance_of_terminal {s : CallState} (hs : CallSm.isTerminal s = true)
    (ts : List CallState) : ts.foldl advance s = s := by
  induction ts with
  | nil => rfl
  | cons t ts ih =>
    have hstays : advance s t = s := by
      unfold advance
      rw [hs]
      exact if_neg nofun
    rw [List.foldl_cons, hstays, ih]

/-- The first terminal state that is called for is the last one. From there on no state is higher,
so nothing that comes after it counts. -/
theorem foldl_advance_of_find {s t : CallState} {ts : List CallState}
    (hs : CallSm.isTerminal s = false) (ht : ts.find? CallSm.isTerminal = some t) :
    ts.foldl advance s = t := by
  -- up to the first terminal state the call stays open
  induction ts generalizing s with
  | nil => cases ht
  | cons u ts ih =>
    rw [List.foldl_cons]
    cases hu : CallSm.isTerminal u with
    | true =>
      rw [List.find?_cons_of_pos hu] at ht
      cases ht
      have hmoves : advance s t = t := by
        refine if_pos ⟨hs, ?_⟩
        have hsix := (CallSm.isTerminal_iff_rank t).mp hu
        have hle := CallSm.rank_le_six s
        have hne : CallSm.rank s ≠ 6 := fun h => by
          rw [(CallSm.isTerminal_iff_rank s).mpr h] at hs
          cases hs
        omega
      rw [hmoves]
      exact foldl_advance_of_terminal hu ts
    | false =>
      rw [List.find?_cons_of_neg (by simp [hu])] at ht
      refine ih ?_ ht
      unfold advance
      split
      · exact hu
      · exact hs

section Sequence

variable {cfg : Config} {envs : Nat → Env} {c : DocId} {d₀ d : Call} {σ σ' : Store}
  {event : ProviderEvent} {t : CallState}

/-- What an applied event makes of its call. -/
theorem EventProcessor.Applied.advance (hd : σ.calls.get? c = some d) (hsound : d.Sound)
    (h : Applied cfg event d t σ σ') :
    ∃ d', σ'.calls.get? c = some d' ∧ d.Evolves d' ∧ d'.Sound
      ∧ d'.state = SmartDialer.advance d.state t := by
  obtain rfl := Calls.id_of_get? hd
  obtain ⟨now, hcalls⟩ := h.calls
  have hfilter := transitionFilter_iff (t := t) hsound
  unfold SmartDialer.advance
  rw [hcalls]
  rcases CallRepo.transitionCall_cases now d.id t (failureReason event t) σ.calls
    with ⟨d', hd', hmoves, -, hget, -⟩ | ⟨hno, -, hsame⟩
  · cases hd.symm.trans hd'
    rw [if_pos (hfilter.mp hmoves)]
    exact ⟨_, hget, CallRepo.transitionUpdate_evolves hmoves,
      CallRepo.transitionUpdate_sound hmoves hsound, rfl⟩
  · rw [if_neg fun h => hno d hd (hfilter.mpr h), hsame]
    exact ⟨d, hd, .refl d, hsound, rfl⟩

/-- The ledger after one more event. -/
theorem EventProcessor.Records.known (h : Records event σ σ') :
    (fun e => decide (Recorded σ'.events e))
      = fun e => decide (Recorded σ.events e) || e.key == event.key := by
  funext e
  rw [Bool.eq_iff_iff]
  simp [h e]

/-- **Events one after another** take the call through the states that those call for which the
ledger lets pass. -/
theorem processAll_state (henvs : ∀ n, (envs n).fault = none) {events : List ProviderEvent}
    (habout : ∀ e ∈ events, e.About d₀) (hd : σ.calls.get? c = some d) (hsound : d.Sound)
    (hev : d₀.Evolves d) (n : Nat) :
    ∃ d', (processAll cfg envs events n σ).calls.get? c = some d'
      ∧ d'.state = ((passing (fun e => decide (Recorded σ.events e)) events).filterMap
        fun e => eventTypeToCallState e.eventType).foldl advance d.state := by
  -- on the events, for any call and store the ones before have led to
  induction events generalizing σ d n with
  | nil => exact ⟨d, hd, rfl⟩
  | cons event events ih =>
    have habout' := (habout event List.mem_cons_self).evolves hev
    have hrest : ∀ e ∈ events, e.About d₀ := fun e he => habout e (List.mem_cons_of_mem _ he)
    unfold passing processAll
    -- a repeated event changes nothing, one of unknown type only the ledger
    by_cases hrec : Recorded σ.events event
    · obtain ⟨-, hsame⟩ := run_of_wp (wp_processEvent_of_recorded cfg hrec)
        (fun _ n => henvs n) n
      rw [decide_eq_true hrec, if_pos rfl]
      simp only [hsame]
      exact ih hrest hd hsound hev _
    · rw [decide_eq_false hrec, if_neg nofun]
      cases ht : eventTypeToCallState event.eventType with
      | none =>
        obtain ⟨-, hrecords, hcalls, -⟩ := run_of_wp (wp_processEvent_of_unknown cfg hrec ht)
          (fun _ n => henvs n) n
        rw [List.filterMap_cons_none (f := fun e : ProviderEvent =>
          eventTypeToCallState e.eventType) ht, ← Records.known hrecords]
        refine ih hrest ?_ hsound hev _
        rw [hcalls]
        exact hd
      | some t =>
        have hcall : σ.calls.get? d.id = some d := by
          rw [Calls.id_of_get? hd]
          exact hd
        obtain ⟨-, hrecords, happlied⟩ := run_of_wp (wp_processEvent cfg hrec hcall hsound habout'
          ht) (fun _ n => henvs n) n
        obtain ⟨d', hd', hev', hsound', hstate⟩ := happlied.advance hd hsound
        rw [List.filterMap_cons_some (f := fun e : ProviderEvent =>
          eventTypeToCallState e.eventType) ht, List.foldl_cons, ← Records.known hrecords, ← hstate]
        exact ih hrest hd' hsound' (hev.trans hev') _

end Sequence

/-! ## All together

Once every processor has finished, nobody is left who has not decided, so the invariant says that
the call is as high as everything that has been recorded. -/

/-- The call is where the highest of what it has heard of has taken it. Every thread is done, so no
decision is outstanding, and what is left of the invariant is about recorded events only. -/
theorem converged_of_finished {cfg : Config} {σ₀ : Store} {w : SystemWorld} {c : DocId} {d₀ : Call}
    (h₀ : CallsSound σ₀.calls) (hd₀ : σ₀.calls.get? c = some d₀)
    (hattached : d₀.providerCallId ≠ none)
    (h : Reachable (system cfg) (SystemRegime.eventsOnly c) (World.fresh σ₀) w)
    (hdone : ∀ p t event, w.threads p = some t → t.job = .processEvent event → event.About d₀ →
      t.finished = true) :
    ∃ d, w.store.calls.get? c = some d ∧ (d.state = d₀.state ∨ Heard w.trace d₀ d.state)
      ∧ ∀ t, t = d₀.state ∨ Heard w.trace d₀ t → CallSm.rank t ≤ CallSm.rank d.state := by
  have hinv := h.invariant system_conforms (Converging.preserves cfg hattached)
    (World.Obeys.fresh _ σ₀) ⟨⟨h₀, fun _ => trivial⟩, .init σ₀,
      ⟨d₀, hd₀, .refl d₀, Or.inl rfl, fun _ _ _ ⟨_, he, _⟩ => absurd he List.not_mem_nil⟩,
      fun _ _ _ hidle => by cases hidle⟩
  obtain ⟨hfacts, -, hconverging⟩ := hinv
  obtain ⟨d, hd, hev, hstate, hdecided⟩ := hconverging.call
  refine ⟨d, hd, hstate, fun t ht => ?_⟩
  rcases ht with rfl | ⟨p, event, hby, habout, ht⟩
  · rw [← (h₀ c d₀ hd₀).rank, ← (hfacts.sound c d hd).rank]
    exact hev.rank
  · refine (hdecided p event t hby habout ht).resolve_right fun hdeciding => ?_
    -- a thread that has yet to decide has not finished
    cases hthread : w.threads p with
    | none =>
      unfold World.lastStage at hdeciding
      rw [hthread] at hdeciding
      cases hdeciding.event
    | some u =>
      rw [World.lastStage_eq hthread] at hdeciding
      have hevent := hdeciding.event
      rw [event_of_reachable h p u hthread] at hevent
      have hjob : u.job = .processEvent event := by
        revert hevent
        cases u.job with
        | processEvent e => exact fun hevent => congrArg Job.processEvent (Option.some.inj hevent)
        | _ => exact nofun
      have hend := closing_of_finished eventsOnly_faultless h hthread hjob
        (hdone p u event hthread hjob habout)
      rcases hdeciding with hstage | ⟨seen, hstage⟩ <;> rw [hstage] at hend <;>
        rcases hend with hend | ⟨hend, -⟩ <;> cases hend

/-- **Event confluence.** On an attached unfinished call that only event processors act on, under
every interleaving and without failures, once all processors of its events have finished: each
event has caused at most one transition and its extra deliveries are duplicates; if no terminal
event has been recorded the call is in exactly the highest of its first state and the recorded
ones; otherwise it is in one of the recorded terminal states, and in the first of them when the
events are processed one after another. -/
theorem events_confluent {cfg : Config} {σ₀ : Store} {w : SystemWorld} {c : DocId} {d₀ : Call}
    (h₀ : CallsSound σ₀.calls) (hd₀ : σ₀.calls.get? c = some d₀)
    (hattached : d₀.providerCallId ≠ none) (hopen : d₀.terminal = false)
    (h : Reachable (system cfg) (SystemRegime.eventsOnly c) (World.fresh σ₀) w)
    (hdone : ∀ p t event, w.threads p = some t → t.job = .processEvent event → event.About d₀ →
      t.finished = true) :
    (∀ k, w.trace.countP (fun e => causedBy w e = some k) ≤ 1)
    ∧ (∀ p q t u event event', w.threads p = some t → w.threads q = some u →
      t.job = .processEvent event → u.job = .processEvent event' → event.About d₀ →
      event'.About d₀ → event.key = event'.key → p ≠ q → Duplicate t ∨ Duplicate u)
    ∧ (∃ d, w.store.calls.get? c = some d
      ∧ ((∀ t, Heard w.trace d₀ t → CallSm.isTerminal t = false) →
        (d.state = d₀.state ∨ Heard w.trace d₀ d.state)
        ∧ ∀ t, t = d₀.state ∨ Heard w.trace d₀ t → t ≠ d.state →
          CallSm.rank t < CallSm.rank d.state)
      ∧ ((∃ t, Heard w.trace d₀ t ∧ CallSm.isTerminal t = true) →
        Heard w.trace d₀ d.state ∧ CallSm.isTerminal d.state = true))
    ∧ ∀ (envs : Nat → Env) (events : List ProviderEvent) (t : CallState),
      (∀ n, (envs n).fault = none) → (∀ e ∈ events, e.About d₀) →
      ((passing (fun e => decide (Recorded σ₀.events e)) events).filterMap
        fun e => eventTypeToCallState e.eventType).find? CallSm.isTerminal = some t →
      ∃ d, (processAll cfg envs events 0 σ₀).calls.get? c = some d ∧ d.state = t := by
  have hsound := h₀ c d₀ hd₀
  have hfirst : CallSm.isTerminal d₀.state = false := by
    rw [← hsound.terminal]
    exact hopen
  refine ⟨caused_once h, fun p q t u event event' ht hu hjob hjob' habout habout' hkey hpq => ?_,
    ?_, fun envs events t henvs habout ht => ?_⟩
  · exact duplicate_of_extra eventsOnly_faultless h ht hu hjob hjob'
      (hdone p t event ht hjob habout) (hdone q u event' hu hjob' habout') hkey hpq
  -- ranks are unique below the terminal one, and all terminal states share theirs
  · obtain ⟨d, hd, hstate, hhighest⟩ := converged_of_finished h₀ hd₀ hattached h hdone
    refine ⟨d, hd, fun hnone => ⟨hstate, fun t ht hne => ?_⟩, fun hsome => ?_⟩
    · have hopen' : CallSm.isTerminal t = false := by
        rcases ht with rfl | ht
        · exact hfirst
        · exact hnone t ht
      exact lt_of_le_of_ne (hhighest t ht) fun hrank =>
        hne (CallSm.rank_injective_of_not_terminal hopen' hrank)
    · obtain ⟨t, ht, hterm⟩ := hsome
      have hle := hhighest t (Or.inr ht)
      rw [(CallSm.isTerminal_iff_rank t).mp hterm] at hle
      have hterm' : CallSm.isTerminal d.state = true :=
        (CallSm.isTerminal_iff_rank d.state).mpr (le_antisymm (CallSm.rank_le_six d.state) hle)
      refine ⟨hstate.resolve_left fun hsame => ?_, hterm'⟩
      rw [hsame, hfirst] at hterm'
      cases hterm'
  · obtain ⟨d, hd, hstate⟩ := processAll_state henvs habout hd₀ hsound (.refl d₀) 0
    exact ⟨d, hd, hstate.trans (foldl_advance_of_find hfirst ht)⟩

/-! The theorem at three deliveries of two events that run side by side: both calls have been
matched before either is moved, and the later event gets there first. -/

def crossingActions : List (Action Job Env) :=
  [.spawn 0 (.processEvent (eventOf "1" "ANSWERED")),
    .spawn 1 (.processEvent (eventOf "2" "CONNECTED")),
    .spawn 2 (.processEvent (eventOf "1" "ANSWERED")),
    .perform 0 {}, .perform 1 {}, .perform 2 {}, .perform 0 {}, .perform 1 {}]
    ++ List.replicate 4 (.perform 1 {}) ++ List.replicate 2 (.perform 0 {})

/-- The world after the three deliveries. -/
def crossed : SystemWorld := (World.fresh attached.store).acts (system {}) crossingActions

/-- The action is one of a processor that meets no failure. -/
def eventsOnlyCheck (w : SystemWorld) : Action Job Env → Bool
  | .perform p env => env.fault.isNone && (w.stageOf (system {}) p).event.isSome
  | _ => true

theorem crossed_reachable (c : DocId) :
    Reachable (system {}) (SystemRegime.eventsOnly c) (World.fresh attached.store) crossed := by
  refine Reachable.of_checked eventsOnlyCheck (fun w a hcheck => ?_) .refl
    (by decide +kernel)
  cases a with
  | spawn p job => trivial
  | crash p => trivial
  | perform p env =>
    simp only [eventsOnlyCheck, Bool.and_eq_true, Option.isNone_iff_eq_none,
      Option.isSome_iff_ne_none] at hcheck
    exact fun _ _ _ _ _ _ => ⟨hcheck.1, fun _ _ _ => hcheck.2⟩

theorem attached_sound : CallsSound attached.store.calls := by
  intro c d hd
  have hcalls : attached.store.calls.coll.docs = [demoCall] := by decide +kernel
  have hmem := Collection.mem_of_get? hd
  rw [hcalls] at hmem
  cases List.mem_singleton.mp hmem
  exact attached_started.sound

/-- The call is `CONNECTED`, the higher of the two. -/
theorem events_confluent_demo : ∃ d, crossed.store.calls.get? demoCall.id = some d
    ∧ ((∀ t, Heard crossed.trace demoCall t → CallSm.isTerminal t = false) →
      (d.state = demoCall.state ∨ Heard crossed.trace demoCall d.state)
      ∧ ∀ t, t = demoCall.state ∨ Heard crossed.trace demoCall t → t ≠ d.state →
        CallSm.rank t < CallSm.rank d.state)
    ∧ ((∃ t, Heard crossed.trace demoCall t ∧ CallSm.isTerminal t = true) →
      Heard crossed.trace demoCall d.state ∧ CallSm.isTerminal d.state = true) := by
  have hall : ∀ p < 3, (crossed.threads p).all Thread.finished = true := by decide +kernel
  have hdone : ∀ p t, crossed.threads p = some t → t.finished = true := by
    intro p t ht
    by_cases hp : p < 3
    · have hfin := hall p hp
      rwa [ht] at hfin
    · have hnone : crossed.threads p = none := by
        refine World.acts_threads_none rfl fun job hjob => ?_
        simp only [crossingActions, List.mem_append, List.mem_cons, List.not_mem_nil,
          List.mem_replicate, Action.spawn.injEq, reduceCtorEq, and_false, or_false] at hjob
        omega
      rw [hnone] at ht
      cases ht
  exact (events_confluent attached_sound attached_started.call nofun rfl (crossed_reachable _)
    fun p t _ ht _ _ => hdone p t ht).2.2.1

end SmartDialer
