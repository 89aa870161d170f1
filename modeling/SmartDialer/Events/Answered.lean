import SmartDialer.Calls.Lifecycle
import SmartDialer.Events.Solo

/-!
# Which order of events reaches a borrower

`answered_at` is written by the `ANSWERED` transition alone, and the rank guard lets that
transition pass only before `CONNECTED`. So what a completed call is worth depends on which of
the two events comes first.

The events are processed one after another, so what has happened so far is a store, and the
invariant `Underway` says of it that the call is still open, its borrower untouched, and nothing
counted yet. `answeredWith` is the promise that each event keeps: whether the call will have been
answered in the end, told from the call as it is and the events that are left.
-/

namespace SmartDialer

open DocStore Concurrent Prog CallRepo EventProcessor

variable {cfg : Config} {envs : Nat → Env} {σ σ' : Store} {d₀ d : Call} {event : ProviderEvent}

/-- The first word of the two that the borrower is on the line is `ANSWERED`. -/
def answeredFirst : List ProviderEvent → Bool
  | [] => false
  | event :: events =>
    if event.eventType = "ANSWERED" then true
    else if event.eventType = "CONNECTED" then false
    else answeredFirst events

/-- `RINGING`, `ANSWERED` and `CONNECTED` events of the call, and its `COMPLETED` event, none of
which has been recorded before. -/
structure Delivery (σ : Store) (d : Call) (events : List ProviderEvent) (last : ProviderEvent) :
    Prop where
  about : ∀ e ∈ last :: events, e.About d
  kinds : ∀ e ∈ events, e.eventType ∈ ["RINGING", "ANSWERED", "CONNECTED"]
  completed : last.eventType = "COMPLETED"
  fresh : ∀ e ∈ last :: events, ¬ Recorded σ.events e
  distinct : ((last :: events).map ProviderEvent.key).Nodup

/-- The call counts as answered, and its borrower as reached. -/
structure Reached (σ σ' : Store) (d : Call) : Prop where
  call : ∃ d', σ'.calls.get? d.id = some d' ∧ d'.state = .COMPLETED ∧ d'.answeredAt ≠ none
    ∧ ∀ start stop, (∃ t ∈ d'.endedAt, start ≤ t ∧ t < stop) →
      (outcomeCountsBetween d.campaignId start stop σ'.calls).answered
        = (outcomeCountsBetween d.campaignId start stop σ.calls).answered + 1
  borrower : ∃ b, σ'.borrowers.get? d.borrowerId = some b ∧ b.status = .CONTACTED

/-- What is left of a delivery when its first event has been recorded. -/
theorem Delivery.tail {events : List ProviderEvent} {last : ProviderEvent}
    (h : Delivery σ d (event :: events) last)
    (hrecorded : Records event σ σ') :
    Delivery σ' d events last := by
  have hsub : ∀ e ∈ last :: events, e ∈ last :: event :: events := by
    intro e he
    simp only [List.mem_cons] at he ⊢
    tauto
  have hswap := h.distinct
  simp only [List.map_cons, List.nodup_cons, List.mem_cons, not_or] at hswap
  obtain ⟨⟨hlast, hlast'⟩, hevent, hnodup⟩ := hswap
  refine ⟨fun e he => h.about e (hsub e he), fun e he => h.kinds e (List.mem_cons_of_mem _ he),
    h.completed, fun e he hrec => ?_, List.nodup_cons.mpr ⟨hlast', hnodup⟩⟩
  rcases (hrecorded e).mp hrec with hrec | hkey
  · exact h.fresh e (hsub e he) hrec
  · rcases List.mem_cons.mp he with rfl | he
    · exact hlast hkey
    · exact hevent (hkey ▸ List.mem_map_of_mem he)

/-! ## Before the end of the call

An event before the end either moves the call up or comes too late for that. Both keep the promise,
the first since the state records what has been said, the second since it adds nothing. -/

/-- The call `d₀` has become `d` and is not over; nothing has happened to its borrower, and no
call has been counted meanwhile. -/
structure Underway (σ σ' : Store) (d₀ d : Call) : Prop where
  call : σ'.calls.get? d₀.id = some d
  evolves : d₀.Evolves d
  sound : d.Sound
  unfinished : d.terminal = false
  borrowers : σ'.borrowers = σ.borrowers
  answered : ∀ start stop, (outcomeCountsBetween d₀.campaignId start stop σ'.calls).answered
    = (outcomeCountsBetween d₀.campaignId start stop σ.calls).answered

/-- What will have been answered in the end, judged by the call as it is and the events to come. -/
def answeredWith (d : Call) (events : List ProviderEvent) : Bool :=
  d.answeredAt.isSome || (decide (CallSm.rank d.state < CallSm.rank .ANSWERED)
    && answeredFirst events)

/-- An unfinished call is not counted. -/
theorem not_answeredBetween {k : DocId} {start stop : Time} (h : d.terminal = false) :
    ¬ answeredBetween k start stop d := by
  rintro ⟨⟨-, hterm, -⟩, -⟩
  rw [h] at hterm
  cases hterm

theorem Underway.refl (hd : σ.calls.get? d.id = some d) (hsound : d.Sound)
    (hopen : d.terminal = false) : Underway σ σ d d :=
  ⟨hd, .refl d, hsound, hopen, rfl, fun _ _ => rfl⟩

/-- An event that moves the call keeps the promise of what will have been answered. -/
theorem answeredWith_moved {t : CallState} {reason : Option String} {now : Time}
    {events : List ProviderEvent} (ht : eventTypeToCallState event.eventType = some t)
    (hkind : event.eventType ∈ ["RINGING", "ANSWERED", "CONNECTED"])
    (hrank : CallSm.rank d.state < CallSm.rank t) :
    answeredWith (transitionUpdate t reason now d) events = answeredWith d (event :: events) := by
  unfold answeredWith
  rw [transitionUpdate_answeredAt]
  simp only [List.mem_cons, List.not_mem_nil, or_false] at hkind
  rcases hkind with hkind | hkind | hkind <;> rw [hkind] at ht <;> cases ht
  · have hbefore : CallSm.rank d.state < CallSm.rank .ANSWERED := hrank.trans (by decide)
    have hafter : CallSm.rank .RINGING < CallSm.rank .ANSWERED := by decide
    simp [transitionUpdate, answeredFirst, hkind, hbefore, hafter]
  · simp [answeredFirst, hkind, hrank]
  · have hafter : ¬ CallSm.rank .CONNECTED < CallSm.rank .ANSWERED := by decide
    simp [transitionUpdate, answeredFirst, hkind, hafter]

/-- So does an event that comes too late to move it. -/
theorem answeredWith_skipped {t : CallState} {events : List ProviderEvent}
    (ht : eventTypeToCallState event.eventType = some t)
    (hkind : event.eventType ∈ ["RINGING", "ANSWERED", "CONNECTED"])
    (hrank : CallSm.rank t ≤ CallSm.rank d.state) :
    answeredWith d events = answeredWith d (event :: events) := by
  unfold answeredWith
  simp only [List.mem_cons, List.not_mem_nil, or_false] at hkind
  rcases hkind with hkind | hkind | hkind <;> rw [hkind] at ht <;> cases ht
  · simp [answeredFirst, hkind]
  · have hlate : ¬ CallSm.rank d.state < CallSm.rank .ANSWERED := Nat.not_lt.mpr hrank
    simp [hlate]
  · have hlate : ¬ CallSm.rank d.state < CallSm.rank .ANSWERED :=
      Nat.not_lt.mpr (le_trans (by decide) hrank)
    simp [hlate]

theorem kind_not_terminal {t : CallState} (ht : eventTypeToCallState event.eventType = some t)
    (hkind : event.eventType ∈ ["RINGING", "ANSWERED", "CONNECTED"]) :
    CallSm.isTerminal t = false := by
  simp only [List.mem_cons, List.not_mem_nil, or_false] at hkind
  rcases hkind with hkind | hkind | hkind <;> rw [hkind] at ht <;> cases ht <;> rfl

theorem exists_kind (hkind : event.eventType ∈ ["RINGING", "ANSWERED", "CONNECTED"]) :
    ∃ t, eventTypeToCallState event.eventType = some t := by
  simp only [List.mem_cons, List.not_mem_nil, or_false] at hkind
  rcases hkind with hkind | hkind | hkind <;> exact ⟨_, by rw [hkind]; rfl⟩

/-- **One event before the end of the call.** Of the three kinds only `ANSWERED` writes
`answered_at`, and not when the call is already beyond. -/
theorem Underway.step {t : CallState} {σ'' : Store} (events : List ProviderEvent)
    (h : Underway σ σ' d₀ d) (ht : eventTypeToCallState event.eventType = some t)
    (hkind : event.eventType ∈ ["RINGING", "ANSWERED", "CONNECTED"])
    (happlied : EventProcessor.Applied cfg event d t σ' σ'') :
    ∃ d', Underway σ σ'' d₀ d' ∧ answeredWith d' events = answeredWith d (event :: events) := by
  have hid : d.id = d₀.id := Calls.id_of_get? h.call
  have hterm := kind_not_terminal ht hkind
  have hborrowers : σ''.borrowers = σ.borrowers := by
    have hsame := happlied.borrowers
    rw [hterm, if_neg (fun hand => Bool.noConfusion hand.2)] at hsame
    exact hsame.trans h.borrowers
  obtain ⟨now, hcalls⟩ := happlied.calls
  rcases transitionCall_cases now d.id t (failureReason event t) σ'.calls
    with ⟨e, he, hfilter, -, hget, -⟩ | ⟨hno, -, hsame⟩
  · rw [hid] at he
    cases h.call.symm.trans he
    have hrank : CallSm.rank d.state < CallSm.rank t := by
      rw [← h.sound.rank]
      exact hfilter.2
    refine ⟨transitionUpdate t (failureReason event t) now d, ⟨?_,
      h.evolves.trans (transitionUpdate_evolves hfilter), transitionUpdate_sound hfilter h.sound,
      hterm, hborrowers, fun start stop => ?_⟩, answeredWith_moved ht hkind hrank⟩
    · rw [hcalls, ← hid]
      exact hget
    · have hcount := answered_transitionCall d₀.campaignId start stop (hid ▸ h.call) hfilter
        (failureReason event t) now
      rw [if_neg (not_answeredBetween h.unfinished), if_neg (not_answeredBetween hterm)] at hcount
      rw [hcalls, ← h.answered start stop]
      exact hcount
  -- the event comes too late and is ignored
  · have hrank : CallSm.rank t ≤ CallSm.rank d.state := by
      by_contra hlt
      refine hno d (hid ▸ h.call) ⟨h.unfinished, ?_⟩
      rw [h.sound.rank]
      exact Nat.not_le.mp hlt
    refine ⟨d, ⟨?_, h.evolves, h.sound, h.unfinished, hborrowers, fun start stop => ?_⟩,
      answeredWith_skipped ht hkind hrank⟩
    · rw [hcalls, hsame]
      exact h.call
    · rw [hcalls, hsame]
      exact h.answered start stop

/-! ## The end of the call

`COMPLETED` passes the filter at any open call. The borrower is then released with the outcome that
`answered_at` says. -/

theorem Underway.filter_completed (h : Underway σ σ' d₀ d) :
    CallRepo.transitionFilter .COMPLETED d := by
  refine ⟨h.unfinished, ?_⟩
  rw [h.sound.rank]
  have hle := CallSm.rank_le_six d.state
  have hne : CallSm.rank d.state ≠ 6 := fun h6 => by
    have hterm := (CallSm.isTerminal_iff_rank d.state).mpr h6
    rw [← h.sound.terminal, h.unfinished] at hterm
    cases hterm
  show CallSm.rank d.state < 6
  omega

/-- The `COMPLETED` event ends the call with the `answered_at` it has. The counts of answered calls
before and after differ by this call at most, and only if `answered_at` is set. -/
theorem Underway.completed {σ'' : Store} (h : Underway σ σ' d₀ d)
    (happlied : EventProcessor.Applied cfg event d .COMPLETED σ' σ'') :
    ∃ d', σ''.calls.get? d₀.id = some d' ∧ d'.state = .COMPLETED
      ∧ d'.answeredAt = d.answeredAt
      ∧ ∀ start stop, (∃ t ∈ d'.endedAt, start ≤ t ∧ t < stop) →
        (outcomeCountsBetween d₀.campaignId start stop σ''.calls).answered
          = (outcomeCountsBetween d₀.campaignId start stop σ.calls).answered
            + (if d.answeredAt ≠ none then 1 else 0) := by
  have hid : d.id = d₀.id := Calls.id_of_get? h.call
  obtain ⟨now, hcalls⟩ := happlied.calls
  rcases transitionCall_cases now d.id .COMPLETED (failureReason event .COMPLETED) σ'.calls
    with ⟨e, he, hfilter, -, hget, -⟩ | ⟨hno, -⟩
  · rw [hid] at he
    cases h.call.symm.trans he
    refine ⟨transitionUpdate .COMPLETED (failureReason event .COMPLETED) now d, ?_, rfl, rfl,
      fun start stop hended => ?_⟩
    · rw [hcalls, ← hid]
      exact hget
    have hcount := answered_transitionCall d₀.campaignId start stop (hid ▸ h.call) hfilter
      (failureReason event .COMPLETED) now
    have hiff : answeredBetween d₀.campaignId start stop
        (transitionUpdate .COMPLETED (failureReason event .COMPLETED) now d)
        ↔ d.answeredAt ≠ none :=
      ⟨fun hbetween => hbetween.2, fun hanswered => ⟨⟨h.evolves.campaignId, rfl, hended⟩, hanswered⟩⟩
    rw [if_neg (not_answeredBetween h.unfinished)] at hcount
    rw [hcalls, ← h.answered start stop]
    simp only [hiff] at hcount
    exact hcount
  · exact absurd h.filter_completed (hno d (hid ▸ h.call))

/-- The borrower of the ended call is `CONTACTED` exactly when it has been answered. -/
theorem Underway.borrower {σ'' : Store} {b : Borrower} (h : Underway σ σ' d₀ d)
    (hb : σ.borrowers.get? d₀.borrowerId = some b) (hworker : b.reservedBy = some d₀.createdByWorker)
    (hheld : b.status.held = true)
    (happlied : EventProcessor.Applied cfg event d .COMPLETED σ' σ'') :
    ∃ b', σ''.borrowers.get? d₀.borrowerId = some b'
      ∧ (b'.status = .CONTACTED ↔ d.answeredAt ≠ none) := by
  have hletsgo := happlied.borrowers
  rw [if_pos ⟨h.filter_completed, rfl⟩] at hletsgo
  obtain ⟨now, hborrowers⟩ := hletsgo
  rw [hborrowers, h.borrowers, h.evolves.borrowerId, h.evolves.createdByWorker]
  have hstatus : b.status ∈ BorrowerRepo.releasableStatuses := of_decide_eq_true hheld
  cases hanswered : d.answeredAt with
  | some t =>
    refine ⟨_, Collection.get?_findOneAndUpdate_of_match (f := BorrowerRepo.contactedUpdate now)
      (fun _ => rfl) hb ⟨hworker, hstatus⟩, ?_⟩
    exact ⟨fun _ => nofun, fun _ => rfl⟩
  | none =>
    refine ⟨_, Collection.get?_findOneAndUpdate_of_match (f := BorrowerRepo.buildRetryUpdate now
      cfg.settings.MAX_CALL_ATTEMPTS cfg.settings.RETRY_BACKOFF_BASE_SECONDS) (fun _ => rfl) hb
      ⟨hworker, hstatus⟩, ⟨fun hcontacted => ?_, fun hne => absurd rfl hne⟩⟩
    unfold BorrowerRepo.buildRetryUpdate at hcontacted
    dsimp only at hcontacted
    split at hcontacted <;> cases hcontacted

/-- From any point on, the borrower is reached exactly when the call is answered or will be. By
induction on the events that are left. The last one is the `COMPLETED` event, which hands the
borrower back with the outcome. -/
theorem Underway.reached {b : Borrower} {last : ProviderEvent}
    (hb : σ.borrowers.get? d₀.borrowerId = some b) (hworker : b.reservedBy = some d₀.createdByWorker)
    (hheld : b.status.held = true) (henvs : ∀ n, (envs n).fault = none)
    {events : List ProviderEvent} (h : Underway σ σ' d₀ d) (hdelivery : Delivery σ' d₀ events last)
    (n : Nat) :
    (∃ d', (processAll cfg envs (events ++ [last]) n σ').calls.get? d₀.id = some d'
      ∧ d'.state = .COMPLETED)
    ∧ (Reached σ (processAll cfg envs (events ++ [last]) n σ') d₀
      ↔ answeredWith d events = true) := by
  -- over the events still to come: every one but the last leaves the call unfinished
  induction events generalizing σ' d n with
  | nil =>
    have habout := (hdelivery.about last List.mem_cons_self).evolves h.evolves
    have ht : eventTypeToCallState last.eventType = some .COMPLETED := by
      rw [hdelivery.completed]
      rfl
    have hcall : σ'.calls.get? d.id = some d := by
      rw [Calls.id_of_get? h.call]
      exact h.call
    obtain ⟨-, -, happlied⟩ := run_of_wp (wp_processEvent cfg (hdelivery.fresh last
      List.mem_cons_self) hcall h.sound habout ht) (fun _ n => henvs n) n
    obtain ⟨d', hd', hcompleted, hsame, hcount⟩ := h.completed happlied
    obtain ⟨b', hb', hcontacted⟩ := h.borrower hb hworker hheld happlied
    -- the last one completes the call, and the stamp it has by then decides
    have hwith : answeredWith d [] = true ↔ d.answeredAt ≠ none := by
      simp [answeredWith, answeredFirst, Option.isSome_iff_ne_none]
    refine ⟨⟨d', hd', hcompleted⟩, fun hreached => ?_, fun hanswered => ?_⟩
    · obtain ⟨e, he, -, hne, -⟩ := hreached.call
      cases he.symm.trans hd'
      rw [hsame] at hne
      exact hwith.mpr hne
    · have hne := hwith.mp hanswered
      refine ⟨⟨d', hd', hcompleted, hsame ▸ hne, fun start stop hended => ?_⟩,
        b', hb', hcontacted.mpr hne⟩
      have hone := hcount start stop hended
      rw [if_pos hne] at hone
      exact hone
  | cons event events ih =>
    have hkind := hdelivery.kinds event List.mem_cons_self
    obtain ⟨t, ht⟩ := exists_kind hkind
    have hmem : event ∈ last :: event :: events := List.mem_cons_of_mem _ List.mem_cons_self
    have hcall : σ'.calls.get? d.id = some d := by
      rw [Calls.id_of_get? h.call]
      exact h.call
    obtain ⟨-, hrecords, happlied⟩ := run_of_wp (wp_processEvent cfg (hdelivery.fresh event hmem)
      hcall h.sound ((hdelivery.about event hmem).evolves h.evolves) ht) (fun _ n => henvs n) n
    obtain ⟨d', hunderway, hwith⟩ := Underway.step events h ht hkind happlied
    rw [← hwith]
    exact ih hunderway (hdelivery.tail hrecords) _

/-- An attached call that has just been started, with its borrower held by its worker. -/
structure Started (σ : Store) (d : Call) (b : Borrower) : Prop where
  call : σ.calls.get? d.id = some d
  sound : d.Sound
  state : d.state = .INITIATED
  borrower : σ.borrowers.get? d.borrowerId = some b
  worker : b.reservedBy = some d.createdByWorker
  held : b.status.held = true

/-- **Which deliveries reach the borrower.** Whatever `RINGING`, `ANSWERED` and `CONNECTED` events
come in before `COMPLETED`, and in whatever order, the call ends `COMPLETED`; it counts as
answered and its borrower as contacted exactly when the first of the `ANSWERED` and `CONNECTED`
events is an `ANSWERED` one. -/
theorem reached_iff {b : Borrower} {events : List ProviderEvent} {last : ProviderEvent}
    (h : Started σ d b) (hdelivery : Delivery σ d events last)
    (henvs : ∀ n, (envs n).fault = none) :
    (∃ d', (processAll cfg envs (events ++ [last]) 0 σ).calls.get? d.id = some d'
      ∧ d'.state = .COMPLETED)
    ∧ (Reached σ (processAll cfg envs (events ++ [last]) 0 σ) d ↔ answeredFirst events = true) := by
  have hrank : CallSm.rank d.state < CallSm.rank .ANSWERED := by
    rw [h.state]
    decide
  have hopen : d.terminal = false := by
    rw [h.sound.terminal, h.state]
    rfl
  have hwith : answeredWith d events = answeredFirst events := by
    simp [answeredWith, h.sound.unanswered hrank, hrank]
  rw [← hwith]
  exact (Underway.refl h.call h.sound hopen).reached h.borrower h.worker h.held henvs hdelivery 0

/-! The theorem at a delivery in order, and the same events in another order. -/

theorem attached_started : Started attached.store demoCall heldBorrower where
  call := by decide +kernel
  sound := ⟨rfl, rfl, fun _ => le_rfl, fun _ => rfl, by decide⟩
  state := rfl
  borrower := by decide +kernel
  worker := rfl
  held := rfl

/-- A delivery of fresh events about it. -/
theorem attached_delivery {events : List ProviderEvent} {last : ProviderEvent}
    (habout : ∀ e ∈ last :: events, e.providerName = "mock_a" ∧ e.providerCallId = "p")
    (hkinds : ∀ e ∈ events, e.eventType ∈ ["RINGING", "ANSWERED", "CONNECTED"])
    (hcompleted : last.eventType = "COMPLETED")
    (hdistinct : ((last :: events).map ProviderEvent.key).Nodup) :
    Delivery attached.store demoCall events last where
  about := fun e he => ⟨(habout e he).1.symm, congrArg some (habout e he).2.symm⟩
  kinds := hkinds
  completed := hcompleted
  fresh := fun e _ hrecorded => by
    obtain ⟨doc, hdoc⟩ := Option.ne_none_iff_exists'.mp hrecorded
    have hempty : attached.store.events.docs = [] := by decide +kernel
    have hmem := Collection.mem_of_get? hdoc
    rw [hempty] at hmem
    cases hmem
  distinct := hdistinct

theorem reached_iff_demo : Reached attached.store
    (processAll {} (fun _ => {}) [eventOf "1" "RINGING", eventOf "2" "ANSWERED",
      eventOf "3" "CONNECTED", eventOf "4" "COMPLETED"] 0 attached.store) demoCall := by
  have hdelivery : Delivery attached.store demoCall [eventOf "1" "RINGING", eventOf "2" "ANSWERED",
      eventOf "3" "CONNECTED"] (eventOf "4" "COMPLETED") :=
    attached_delivery (by decide) (by decide) rfl (by decide)
  exact (reached_iff attached_started hdelivery fun _ => rfl).2.mpr rfl

/-- `CONNECTED` overtakes `ANSWERED`, and the borrower counts as not reached. -/
theorem overtaken_answer : ¬ ∀ (cfg : Config) (envs : Nat → Env) (σ : Store) (d : Call)
    (b : Borrower) (events : List ProviderEvent) (last : ProviderEvent), Started σ d b →
    Delivery σ d events last → (∃ e ∈ events, e.eventType ∈ ["ANSWERED", "CONNECTED"]) →
    (∀ n, (envs n).fault = none) →
    Reached σ (processAll cfg envs (events ++ [last]) 0 σ) d := by
  intro hclaim
  obtain ⟨d, hd, -, hanswered, -⟩ := (hclaim {} (fun _ => {}) attached.store demoCall heldBorrower
    [eventOf "3" "CONNECTED", eventOf "2" "ANSWERED"] (eventOf "4" "COMPLETED") attached_started
    (attached_delivery (by decide) (by decide) rfl (by decide)) (by decide) fun _ => rfl).call
  have hnever : ∀ d ∈ (processAll {} (fun _ => {}) [eventOf "3" "CONNECTED", eventOf "2" "ANSWERED",
      eventOf "4" "COMPLETED"] 0 attached.store).calls.coll.docs, d.answeredAt = none := by
    decide +kernel
  exact hanswered (hnever d (Collection.mem_of_get? hd))

end SmartDialer
