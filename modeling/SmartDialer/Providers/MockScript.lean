import SmartDialer.Events.Following
import SmartDialer.Lib.HostFloat
import SmartDialer.Workers.RecoveryWorker

/-!
# The script of a simulated call (`app/providers/mock_base.py`)

A provider that has accepted a call writes down the events it is going to report, puts two neighbours
out of order and repeats one, as its behaviour has it. `script_decides` says what the event processor
makes of such a script.

The argument has two halves that meet in `OrderlyDelivery`: an orderly delivery ends its call as
announced, whatever provider it comes from, and every script is orderly, whatever the draws of the
random generator are.
-/

namespace SmartDialer

open DocStore Concurrent Prog HostFloat EventProcessor

/-! ## Behaviour

The settings of a simulated provider, and the random numbers of one script as data. -/

structure MockBehaviour (F : Type) where
  setupLatencyRange : F × F
  failureRate : F
  hangRate : F
  answerRate : F
  avgTalkTime : F
  ringDuration : F
  duplicateRate : F
  outOfOrderRate : F

/-- What `_rng` and the clock answer while a script is written. -/
structure ScriptDraws (F : Type) where
  answer : F
  talkTime : F
  outOfOrder : F
  /-- `randrange(n)` is the remainder by `n`, here and below. -/
  swapped : Nat
  duplicate : F
  repeated : Nat
  /-- The clock, at each step. -/
  now : Nat → Time

abbrev Script (F : Type) := List (F × ProviderEvent)

namespace MockProvider

variable {F : Type} [FloatOps F]

/-- The `steps` of `_build_event_script`, and the final status. -/
def steps (behaviour : MockBehaviour F) (draws : ScriptDraws F) :
    List (F × String × Option String) × ProviderCallStatus :=
  if FloatOps.lt draws.answer behaviour.answerRate then
    ([(behaviour.ringDuration, "RINGING", none), (behaviour.ringDuration, "ANSWERED", none),
      (FloatOps.ofInt 0, "CONNECTED", none),
      (if FloatOps.lt (FloatOps.ofInt 0) draws.talkTime then draws.talkTime else FloatOps.ofInt 0,
        "COMPLETED", none)], .COMPLETED)
  else
    ([(behaviour.ringDuration, "RINGING", none),
      (behaviour.ringDuration, "FAILED", some "no_answer")], .FAILED)

/-- `ProviderEvent(...)` of a step. -/
def scheduledEvent (name providerCallId : String) (now : Time) (index : Nat)
    (step : F × String × Option String) : F × ProviderEvent :=
  (step.1, {
    providerName := name
    providerEventId := s!"{providerCallId}-{index}"
    providerCallId
    eventType := step.2.1
    providerTimestamp := now
    payloadReason := step.2.2 })

/-- `scheduled[i], scheduled[i + 1] = scheduled[i + 1], scheduled[i]`. -/
def swapNext {α : Type} : Nat → List α → List α
  | 0, x :: y :: rest => y :: x :: rest
  | i + 1, x :: rest => x :: swapNext i rest
  | _, rest => rest

/-- `_apply_out_of_order`. -/
def applyOutOfOrder (behaviour : MockBehaviour F) (draws : ScriptDraws F) (scheduled : Script F) :
    Script F :=
  if scheduled.length < 2 then scheduled
  else if FloatOps.le behaviour.outOfOrderRate draws.outOfOrder then scheduled
  else swapNext (draws.swapped % (scheduled.length - 1)) scheduled

/-- `scheduled.insert(i + 1, f(scheduled[i]))`. -/
def insertAfter {α : Type} (f : α → α) : Nat → List α → List α
  | 0, x :: rest => x :: f x :: rest
  | i + 1, x :: rest => x :: insertAfter f i rest
  | _, [] => []

/-- `(min(delay, 0.001), event)`. -/
def repetition (step : F × ProviderEvent) : F × ProviderEvent :=
  (if FloatOps.lt (FloatOps.divInt 1 1000) step.1 then FloatOps.divInt 1 1000 else step.1, step.2)

/-- `_apply_duplication`. -/
def applyDuplication (behaviour : MockBehaviour F) (draws : ScriptDraws F) (scheduled : Script F) :
    Script F :=
  if scheduled.isEmpty then scheduled
  else if FloatOps.le behaviour.duplicateRate draws.duplicate then scheduled
  else insertAfter repetition (draws.repeated % scheduled.length) scheduled

/-- `_build_event_script`. -/
def buildEventScript (name : String) (behaviour : MockBehaviour F) (providerCallId : String)
    (draws : ScriptDraws F) : Script F × ProviderCallStatus :=
  let (steps, finalStatus) := steps behaviour draws
  let scheduled := steps.zipIdx.map fun (step, index) =>
    scheduledEvent name providerCallId (draws.now index) index step
  (applyDuplication behaviour draws (applyOutOfOrder behaviour draws scheduled), finalStatus)

/-- The events in the order they are handed on. -/
def events (script : Script F) : List ProviderEvent := script.map Prod.snd

/-! ## What a script is made of

The steps of a script and the two disturbances, in the order in which the source applies them: out
of order first, then the repetition. -/

section Scripts

omit [FloatOps F]

variable {α β : Type}

theorem map_swapNext (g : α → β) (i : Nat) (l : List α) :
    (swapNext i l).map g = swapNext i (l.map g) := by
  fun_induction swapNext i l with
  | case1 => rfl
  | case2 i x rest ih => exact congrArg (g x :: ·) ih
  | case3 i rest hswap hnext =>
    cases rest with
    | nil => cases i <;> rfl
    | cons x rest =>
      cases i with
      | zero =>
        cases rest with
        | nil => rfl
        | cons y rest => exact absurd rfl (hswap x y rest rfl)
      | succ i => exact absurd rfl (hnext i x rest rfl)

theorem map_insertAfter {f : α → α} {f' : β → β} {g : α → β} (hg : ∀ x, g (f x) = f' (g x))
    (i : Nat) (l : List α) : (insertAfter f i l).map g = insertAfter f' i (l.map g) := by
  induction l generalizing i with
  | nil => cases i <;> rfl
  | cons x rest ih =>
    cases i with
    | zero => simp only [insertAfter, List.map_cons, hg]
    | succ i => simp only [insertAfter, List.map_cons, ih]

theorem mem_swapNext {i : Nat} {l : List α} {x : α} : x ∈ swapNext i l ↔ x ∈ l := by
  fun_induction swapNext i l with
  | case1 => simp only [List.mem_cons, or_left_comm]
  | case2 i y rest ih => simp only [List.mem_cons, ih]
  | case3 => rfl

theorem mem_insertAfter_id {i : Nat} {l : List α} {x : α} : x ∈ insertAfter id i l ↔ x ∈ l := by
  induction l generalizing i with
  | nil => cases i <;> rfl
  | cons y rest ih =>
    cases i with
    | zero => simp only [insertAfter, id_eq, List.mem_cons, ← or_assoc, or_self]
    | succ i => simp only [insertAfter, List.mem_cons, ih]

theorem swapNext_perm (i : Nat) (l : List α) : (swapNext i l).Perm l := by
  fun_induction swapNext i l with
  | case1 => exact .swap ..
  | case2 i y rest ih => exact .cons y ih
  | case3 => exact .refl _

theorem count_insertAfter_le [DecidableEq α] (i : Nat) (l : List α) (x : α) :
    (insertAfter id i l).count x ≤ l.count x + 1 := by
  induction l generalizing i with
  | nil => cases i <;> exact Nat.zero_le _
  | cons y rest ih =>
    cases i with
    | zero =>
      simp only [insertAfter, id_eq, List.count_cons]
      split <;> omega
    | succ i =>
      simp only [insertAfter, List.count_cons]
      have := ih i
      omega

end Scripts

end MockProvider

/-! ## Orderly deliveries

The state of a call only moves up, so the highest state that is called for decides. The agent needs
more: that a completion does not come before the answer. -/

/-- No `COMPLETED` comes before the first `ANSWERED` or `CONNECTED`. -/
def answersFirst : List String → Bool
  | [] => true
  | t :: ts => t = "ANSWERED" || t = "CONNECTED" || t ≠ "COMPLETED" && answersFirst ts

theorem answer_of_answersFirst {ts ts' : List String} (h : answersFirst (ts ++ "COMPLETED" :: ts')) :
    "ANSWERED" ∈ ts ∨ "CONNECTED" ∈ ts := by
  induction ts with
  | nil => cases h
  | cons t ts ih =>
    simp only [List.cons_append, answersFirst, Bool.or_eq_true, Bool.and_eq_true,
      decide_eq_true_eq] at h
    rcases h with (rfl | rfl) | ⟨-, h⟩
    · exact Or.inl List.mem_cons_self
    · exact Or.inr List.mem_cons_self
    · exact (ih h).imp (List.mem_cons_of_mem t) (List.mem_cons_of_mem t)

/-- New events with one end among them, which comes after an answer where it is a completion. -/
structure OrderlyDelivery (σ : Store) (events : List ProviderEvent) (target : CallState) : Prop where
  fresh : ∀ e ∈ events, ¬ Recorded σ.events e
  keys : ∀ e ∈ events, ∀ e' ∈ events, e.key = e'.key → e.eventType = e'.eventType
  terminal : CallSm.isTerminal target = true
  ends : ∃ e ∈ events, eventTypeToCallState e.eventType = some target
  only : ∀ e ∈ events, ∀ t, eventTypeToCallState e.eventType = some t →
    CallSm.isTerminal t = true → t = target
  answered : answersFirst (events.map ProviderEvent.eventType)

theorem eventTypeToCallState_completed {eventType : String}
    (h : eventTypeToCallState eventType = some .COMPLETED) : eventType = "COMPLETED" := by
  unfold eventTypeToCallState at h
  split at h <;> first | rfl | cases h

/-- Of an event that has not been known, one with its id passes. -/
theorem mem_passing {known : ProviderEvent → Bool} {events : List ProviderEvent}
    {e : ProviderEvent} (he : e ∈ events)
    (hknown : ∀ e' : ProviderEvent, e'.key = e.key → known e' = false) :
    ∃ e' ∈ passing known events, e' ∈ events ∧ e'.key = e.key := by
  induction events generalizing known with
  | nil => exact absurd he List.not_mem_nil
  | cons event events ih =>
    unfold passing
    by_cases hkey : event.key = e.key
    · rw [hknown event hkey, if_neg Bool.false_ne_true]
      exact ⟨event, List.mem_cons_self, List.mem_cons_self, hkey⟩
    · have he : e ∈ events := (List.mem_cons.mp he).resolve_left fun heq => hkey (heq ▸ rfl)
      split
      · obtain ⟨e', hpass, hmem, hsame⟩ := ih he hknown
        exact ⟨e', hpass, List.mem_cons_of_mem event hmem, hsame⟩
      · have hknown' : ∀ e', e'.key = e.key → (known e' || e'.key == event.key) = false := by
          intro e' hsame
          rw [hknown e' hsame, Bool.false_or, beq_eq_false_iff_ne, hsame]
          exact fun heq => hkey heq.symm
        obtain ⟨e', hpass, hmem, hsame⟩ := ih he hknown'
        exact ⟨e', List.mem_cons_of_mem event hpass, List.mem_cons_of_mem event hmem, hsame⟩

theorem passing_subset {known : ProviderEvent → Bool} {events : List ProviderEvent}
    {e : ProviderEvent} (he : e ∈ passing known events) : e ∈ events := by
  induction events generalizing known with
  | nil => exact he
  | cons event events ih =>
    unfold passing at he
    split at he
    · exact List.mem_cons_of_mem event (ih he)
    · rcases List.mem_cons.mp he with rfl | he
      · exact List.mem_cons_self
      · exact List.mem_cons_of_mem event (ih he)

/-- The call gets as high as it is called. The induction is on the list: a state that is called for
is reached when its turn comes, and the rank does not fall afterwards. -/
theorem rank_le_foldl_advance {s t : CallState} {ts : List CallState} (ht : t ∈ ts) :
    CallSm.rank t ≤ CallSm.rank (ts.foldl advance s) := by
  have hstep : ∀ s u, CallSm.rank s ≤ CallSm.rank (advance s u)
      ∧ CallSm.rank u ≤ CallSm.rank (advance s u) := by
    intro s u
    unfold advance
    split
    · rename_i hmoves
      exact ⟨hmoves.2.le, le_refl _⟩
    · rename_i hstays
      refine ⟨le_refl _, ?_⟩
      by_cases hterm : CallSm.isTerminal s = false
      · exact Nat.not_lt.mp fun hlt => hstays ⟨hterm, hlt⟩
      · rw [(CallSm.isTerminal_iff_rank s).mp (Bool.eq_true_of_not_eq_false hterm)]
        exact CallSm.rank_le_six u
  -- what comes later does not take the call down again
  have hmono : ∀ (ts : List CallState) s, CallSm.rank s ≤ CallSm.rank (ts.foldl advance s) := by
    intro ts
    induction ts with
    | nil => exact fun s => le_refl _
    | cons u ts ih => exact fun s => (hstep s u).1.trans (ih _)
  induction ts generalizing s with
  | nil => exact absurd ht List.not_mem_nil
  | cons u ts ih =>
    rcases List.mem_cons.mp ht with rfl | ht
    · exact (hstep s t).2.trans (hmono ts _)
    · exact ih ht

/-- The call is where it was or where it has been called. -/
theorem foldl_advance_mem (s : CallState) (ts : List CallState) :
    ts.foldl advance s = s ∨ ts.foldl advance s ∈ ts := by
  induction ts generalizing s with
  | nil => exact Or.inl rfl
  | cons t ts ih =>
    rcases ih (advance s t) with h | h
    · rw [List.foldl_cons, h]
      unfold advance
      split
      · exact Or.inr List.mem_cons_self
      · exact Or.inl rfl
    · exact Or.inr (List.mem_cons_of_mem t h)

namespace OrderlyDelivery

variable {cfg : Config} {envs : Nat → Env} {σ : Store} {d : Call} {g : Agent}
  {events : List ProviderEvent} {target : CallState}

/-- What the events that pass call for. -/
def calls (σ : Store) (events : List ProviderEvent) : List CallState :=
  (passing (fun e => decide (Recorded σ.events e)) events).filterMap
    fun e => eventTypeToCallState e.eventType

theorem mem_calls {t : CallState} (ht : t ∈ calls σ events) :
    ∃ e ∈ events, eventTypeToCallState e.eventType = some t := by
  obtain ⟨e, he, ht⟩ := List.mem_filterMap.mp ht
  exact ⟨e, passing_subset he, ht⟩

/-- Every event of an orderly delivery is heard. -/
theorem calls_of_mem (h : OrderlyDelivery σ events target) {part : List ProviderEvent}
    (hpart : part ⊆ events) {e : ProviderEvent} (he : e ∈ part) {t : CallState}
    (ht : eventTypeToCallState e.eventType = some t) : t ∈ calls σ part := by
  have hunknown : ∀ e' : ProviderEvent, e'.key = e.key →
      decide (Recorded σ.events e') = false := by
    refine fun e' hkey => decide_eq_false fun hrec => h.fresh e (hpart he) ?_
    unfold Recorded at hrec ⊢
    rwa [hkey] at hrec
  obtain ⟨e', hpass, he', hkey⟩ := mem_passing he hunknown
  refine List.mem_filterMap.mpr ⟨e', hpass, ?_⟩
  rw [h.keys e' (hpart he') e (hpart he) hkey]
  exact ht

/-- The state of the call after a part of the delivery. -/
theorem state_after (hdial : Dialling σ d g) (henvs : ∀ n, (envs n).fault = none)
    {part : List ProviderEvent} (habout : ∀ e ∈ part, e.About d) {s : CallState}
    (hs : InState cfg envs σ d part s) : s = (calls σ part).foldl advance .INITIATED := by
  obtain ⟨d', hd', rfl⟩ := hs
  obtain ⟨d'', hd'', hstate⟩ := processAll_state henvs habout hdial.call hdial.sound (.refl d) 0
  cases hd'.symm.trans hd''
  rw [hstate, hdial.state]
  rfl

theorem not_completedUnanswered (h : OrderlyDelivery σ events target) (hdial : Dialling σ d g)
    (henvs : ∀ n, (envs n).fault = none) (habout : ∀ e ∈ events, e.About d) :
    ¬ CompletedUnanswered cfg envs σ d events := by
  rintro ⟨before, event, after, s, s', rfl, hs, hs', hunanswered, rfl⟩
  have hbefore : before ⊆ before ++ event :: after := List.subset_append_left _ _
  have hupto : before ++ [event] ⊆ before ++ event :: after := fun e he => by
    simp only [List.mem_append, List.mem_cons, List.not_mem_nil, or_false] at he ⊢
    tauto
  -- the completion is among the events so far, so an answer is among those before it
  have hfold := state_after hdial henvs (fun e he => habout e (hupto he)) hs'
  have hcompleted : CallState.COMPLETED ∈ calls σ (before ++ [event]) := by
    rcases foldl_advance_mem .INITIATED (calls σ (before ++ [event])) with heq | hmem
    · cases hfold.trans heq
    · exact hfold ▸ hmem
  obtain ⟨e, he, htype⟩ := mem_calls hcompleted
  have hanswer : ∃ e' ∈ before, e'.eventType = "ANSWERED" ∨ e'.eventType = "CONNECTED" := by
    obtain ⟨l, l', hl⟩ := List.append_of_mem he
    have hprefix : l ++ e :: l' ++ after = before ++ event :: after := by
      rw [← hl, List.append_assoc]
      rfl
    have hshort : l <+: before := by
      refine List.prefix_of_prefix_length_le ⟨e :: l' ++ after, by rw [← hprefix]; simp⟩
        (List.prefix_append before (event :: after)) ?_
      have hlength := congrArg List.length hl
      simp only [List.length_append, List.length_cons, List.length_nil] at hlength
      omega
    have hanswered := h.answered
    rw [← hprefix, List.append_assoc, List.map_append, List.cons_append, List.map_cons,
      eventTypeToCallState_completed htype] at hanswered
    rcases answer_of_answersFirst hanswered with hmem | hmem
    all_goals
      obtain ⟨e', he', hkind⟩ := List.mem_map.mp hmem
      exact ⟨e', hshort.subset he', by simp [hkind]⟩
  obtain ⟨e', he', hkind⟩ := hanswer
  obtain ⟨t, ht, hrank⟩ : ∃ t, eventTypeToCallState e'.eventType = some t
      ∧ CallSm.rank .ANSWERED ≤ CallSm.rank t := by
    rcases hkind with hkind | hkind <;> rw [hkind]
    · exact ⟨.ANSWERED, rfl, le_refl _⟩
    · exact ⟨.CONNECTED, rfl, by decide⟩
  have hreached : CallSm.rank t ≤ CallSm.rank s :=
    state_after hdial henvs (fun e he => habout e (hbefore he)) hs ▸
      rank_le_foldl_advance (h.calls_of_mem hbefore he' ht)
  have hlow : CallSm.rank s < CallSm.rank .ANSWERED := by
    rcases hunanswered with rfl | rfl <;> decide
  exact absurd (hrank.trans hreached) (Nat.not_le.mpr hlow)

/-- **An orderly delivery** ends the call as announced, and its agent is where he belongs. The
terminal state is the highest one and there is only one that is called for; the agent follows the
call, as an answer has come before the end. -/
theorem outcome (cfg : Config) (h : OrderlyDelivery σ events target) (hdial : Dialling σ d g)
    (henvs : ∀ n, (envs n).fault = none) (habout : ∀ e ∈ events, e.About d) :
    ∃ d' g', (processAll cfg envs events 0 σ).calls.get? d.id = some d'
      ∧ (processAll cfg envs events 0 σ).agents.get? d.agentId = some g'
      ∧ d'.state = target ∧ CallSm.agentStateForCallState target = some g'.state
      ∧ g'.toLeaseFields = clearedLeaseFields := by
  obtain ⟨d', g', hfollowing⟩ : ∃ d' g', Following cfg envs σ d g events d' g' :=
    following hdial henvs events habout
  have hfold := state_after hdial henvs habout ⟨d', hfollowing.call, rfl⟩
  have hstate : d'.state = target := by
    obtain ⟨e, he, ht⟩ := h.ends
    have hrank := rank_le_foldl_advance (s := .INITIATED)
      (h.calls_of_mem (List.Subset.refl events) he ht)
    rw [← hfold, (CallSm.isTerminal_iff_rank target).mp h.terminal] at hrank
    have hterm : CallSm.isTerminal d'.state = true :=
      (CallSm.isTerminal_iff_rank _).mpr (le_antisymm (CallSm.rank_le_six _) hrank)
    -- the call is terminal now, so the event that brought it there called for `target`
    rcases foldl_advance_mem .INITIATED (calls σ events) with heq | hmem
    · rw [hfold, heq] at hterm
      cases hterm
    · obtain ⟨e', he', ht'⟩ := mem_calls (hfold ▸ hmem)
      exact h.only e' he' _ ht' hterm
  refine ⟨d', g', hfollowing.call, hfollowing.agent, hstate, ?_⟩
  have hpaired := hfollowing.paired
  have hnot : ¬ (d'.state = .COMPLETED ∧ g'.state = .DIALING) := fun hleft =>
    h.not_completedUnanswered hdial henvs habout (hfollowing.overtaken.mpr hleft)
  have hterm := h.terminal
  rw [hstate] at hpaired hnot
  cases hpaired with
  -- the pairings of a call and its agent, with a call that is over
  | dialing hs | talking hs => rcases hs with rfl | rfl <;> cases hterm
  | wrapUp hfree hlease => exact ⟨by rw [hfree]; rfl, hlease⟩
  | freed hs hfree hlease =>
    rw [hfree]
    rcases hs with rfl | rfl <;> exact ⟨rfl, hlease⟩
  -- only an unanswered completion leaves the agent behind
  | leftBehind => exact absurd ⟨rfl, hdial.dialing⟩ hnot

end OrderlyDelivery

/-! ## Scripts are orderly

Neither disturbance loses an event, makes up one or repeats one more than once, so almost everything
can be read off the undisturbed steps. Only whether the answer comes first depends on the
arrangement; there are few arrangements of two lists of types, and all of them are checked. -/

namespace MockProvider

variable {F : Type} {α β : Type}

theorem length_swapNext (i : Nat) (l : List α) : (swapNext i l).length = l.length := by
  fun_induction swapNext i l with
  | case1 => rfl
  | case2 i x rest ih => exact congrArg Nat.succ ih
  | case3 => rfl

/-- Two neighbours may have changed places, and then one element may have been repeated. -/
def Rearranged (l l' : List α) : Prop :=
  ∃ m, (m = l ∨ ∃ i < l.length - 1, m = swapNext i l)
    ∧ (l' = m ∨ ∃ j < m.length, l' = insertAfter id j m)

theorem Rearranged.map {l l' : List α} (h : Rearranged l l') (g : α → β) :
    Rearranged (l.map g) (l'.map g) := by
  obtain ⟨m, hm, hl'⟩ := h
  refine ⟨m.map g, ?_, ?_⟩
  · rcases hm with rfl | ⟨i, hi, rfl⟩
    · exact Or.inl rfl
    · exact Or.inr ⟨i, by rwa [List.length_map], map_swapNext g i l⟩
  · rcases hl' with rfl | ⟨j, hj, rfl⟩
    · exact Or.inl rfl
    · have hid : ∀ x, g (id x) = id (g x) := fun _ => rfl
      exact Or.inr ⟨j, by rwa [List.length_map], map_insertAfter hid j m⟩

theorem Rearranged.mem {l l' : List α} (h : Rearranged l l') {x : α} : x ∈ l' ↔ x ∈ l := by
  obtain ⟨m, hm, hl'⟩ := h
  have hmem : x ∈ m ↔ x ∈ l := by
    rcases hm with rfl | ⟨i, -, rfl⟩
    · rfl
    · exact mem_swapNext
  rcases hl' with rfl | ⟨j, -, rfl⟩
  · exact hmem
  · exact mem_insertAfter_id.trans hmem

theorem Rearranged.count_le [DecidableEq α] {l l' : List α} (h : Rearranged l l') (hl : l.Nodup)
    (x : α) : l'.count x ≤ 2 := by
  obtain ⟨m, hm, hl'⟩ := h
  have hperm : m.Perm l := by
    rcases hm with rfl | ⟨i, -, rfl⟩
    · exact .refl _
    · exact swapNext_perm i l
  have hone : m.count x ≤ 1 := hperm.count_eq x ▸ List.nodup_iff_count_le_one.mp hl x
  rcases hl' with rfl | ⟨j, -, rfl⟩
  · omega
  · have := count_insertAfter_le j m x
    omega

variable [FloatOps F] {name providerCallId : String} {behaviour : MockBehaviour F}
  {draws : ScriptDraws F}

/-- The events of the steps, in their order. -/
def planned (name providerCallId : String) (behaviour : MockBehaviour F) (draws : ScriptDraws F) :
    List ProviderEvent :=
  (steps behaviour draws).1.zipIdx.map fun entry =>
    (scheduledEvent name providerCallId (draws.now entry.2) entry.2 entry.1).2

/-- **The events of a script** are the planned ones after at most one swap and at most one
repetition. -/
theorem events_rearranged : Rearranged (planned name providerCallId behaviour draws)
    (events (buildEventScript name behaviour providerCallId draws).1) := by
  have hplanned : events ((steps behaviour draws).1.zipIdx.map fun entry =>
      scheduledEvent name providerCallId (draws.now entry.2) entry.2 entry.1)
        = planned name providerCallId behaviour draws := by
    unfold events planned
    rw [List.map_map]
    rfl
  unfold buildEventScript
  dsimp only
  generalize ((steps behaviour draws).1.zipIdx.map fun entry =>
    scheduledEvent name providerCallId (draws.now entry.2) entry.2 entry.1) = scheduled at hplanned ⊢
  rw [← hplanned]
  refine ⟨events (applyOutOfOrder behaviour draws scheduled), ?_, ?_⟩
  -- the draw is reduced to a position that has a neighbour
  · unfold applyOutOfOrder
    split
    · exact Or.inl rfl
    · split
      · exact Or.inl rfl
      · rename_i hlength _
        refine Or.inr ⟨draws.swapped % (scheduled.length - 1), ?_, map_swapNext ..⟩
        unfold events
        rw [List.length_map]
        exact Nat.mod_lt _ (by omega)
  -- the repetition has a delay of its own, but the same event
  · generalize applyOutOfOrder behaviour draws scheduled = reordered
    unfold applyDuplication
    split
    · exact Or.inl rfl
    · split
      · exact Or.inl rfl
      · rename_i hsome _
        have hsame : ∀ step : F × ProviderEvent, (repetition step).2 = id step.2 := fun _ => rfl
        refine Or.inr ⟨draws.repeated % reordered.length, ?_, map_insertAfter hsame ..⟩
        unfold events
        rw [List.length_map]
        exact Nat.mod_lt _ (List.length_pos_iff.mpr fun hnil => hsome (by rw [hnil]; rfl))

theorem mem_planned {e : ProviderEvent} : e ∈ planned name providerCallId behaviour draws
    ↔ ∃ index step, (steps behaviour draws).1[index]? = some step
      ∧ (scheduledEvent name providerCallId (draws.now index) index step).2 = e := by
  unfold planned
  rw [List.mem_map]
  constructor
  · rintro ⟨⟨step, index⟩, hentry, he⟩
    exact ⟨index, step, List.mem_zipIdx_iff_getElem?.mp hentry, he⟩
  · rintro ⟨index, step, hstep, he⟩
    exact ⟨(step, index), List.mem_zipIdx_iff_getElem?.mpr hstep, he⟩

/-- The number of an event can be read off its id. -/
theorem index_of_eventId {index other : Nat}
    (h : s!"{providerCallId}-{index}" = s!"{providerCallId}-{other}") : index = other := by
  have hlists := congrArg String.toList h
  simp only [toString, String.toList_append] at hlists
  have hdigits := List.append_cancel_left hlists
  exact Nat.repr_injective (String.toList_inj.mp (by simpa using hdigits))

theorem planned_nodup : (planned name providerCallId behaviour draws).Nodup := by
  have hids : (planned name providerCallId behaviour draws).map ProviderEvent.providerEventId
      = (List.range' 0 (steps behaviour draws).1.length).map fun index =>
        s!"{providerCallId}-{index}" := by
    unfold planned
    rw [List.map_map, ← List.zipIdx_map_snd, List.map_map]
    rfl
  have hnodup : ((planned name providerCallId behaviour draws).map
      ProviderEvent.providerEventId).Nodup :=
    hids ▸ List.Nodup.map (fun _ _ h => index_of_eventId h) (List.nodup_range' ..)
  exact hnodup.of_map _

/-- Events of a script that have one id are one event. -/
theorem planned_eq {e e' : ProviderEvent} (he : e ∈ planned name providerCallId behaviour draws)
    (he' : e' ∈ planned name providerCallId behaviour draws) (hkey : e.key = e'.key) : e = e' := by
  obtain ⟨index, step, hstep, rfl⟩ := mem_planned.mp he
  obtain ⟨index', step', hstep', rfl⟩ := mem_planned.mp he'
  obtain rfl := index_of_eventId (congrArg Prod.snd hkey)
  cases hstep.symm.trans hstep'
  rfl

/-- The state that the status of the provider stands for. -/
abbrev announced (status : ProviderCallStatus) : CallState :=
  RecoveryWorker.providerStatusToCallState status

theorem types_rearranged (name providerCallId : String) (behaviour : MockBehaviour F)
    (draws : ScriptDraws F) : Rearranged ((steps behaviour draws).1.map fun step => step.2.1)
    ((events (buildEventScript name behaviour providerCallId draws).1).map
      ProviderEvent.eventType) := by
  have htypes : (planned name providerCallId behaviour draws).map ProviderEvent.eventType
      = (steps behaviour draws).1.map fun step => step.2.1 := by
    unfold planned
    rw [List.map_map]
    conv_rhs => rw [← List.zipIdx_map_fst 0 (steps behaviour draws).1, List.map_map]
    rfl
  exact htypes ▸ events_rearranged.map ProviderEvent.eventType

/-- The types of a script, with what can be said of all their arrangements. -/
theorem steps_cases (behaviour : MockBehaviour F) (draws : ScriptDraws F) :
    (steps behaviour draws).2 = .COMPLETED
      ∧ ((steps behaviour draws).1.map fun step => step.2.1)
        = ["RINGING", "ANSWERED", "CONNECTED", "COMPLETED"]
    ∨ (steps behaviour draws).2 = .FAILED
      ∧ ((steps behaviour draws).1.map fun step => step.2.1) = ["RINGING", "FAILED"] := by
  unfold steps
  split
  · exact Or.inl ⟨rfl, rfl⟩
  · exact Or.inr ⟨rfl, rfl⟩

theorem Rearranged.answersFirst {ts ts' : List String} (h : Rearranged ts ts')
    (hts : ∀ i < ts.length - 1, ∀ j < ts.length,
      SmartDialer.answersFirst (insertAfter id j (swapNext i ts)) = true
        ∧ SmartDialer.answersFirst (swapNext i ts) = true
        ∧ SmartDialer.answersFirst (insertAfter id j ts) = true)
    (hself : SmartDialer.answersFirst ts = true) (hlong : 1 < ts.length) :
    SmartDialer.answersFirst ts' = true := by
  obtain ⟨m, rfl | ⟨i, hi, rfl⟩, rfl | ⟨j, hj, rfl⟩⟩ := h
  · exact hself
  · exact (hts 0 (by omega) j hj).2.2
  · exact (hts i hi 0 (by omega)).2.1
  · exact (hts i hi j (by rwa [length_swapNext] at hj)).1

/-- **A script is orderly**, whatever the behaviour and the draws. What does not depend on the order
is read off the planned events, and `answersFirst` is checked for every arrangement of the two lists
of types. -/
theorem script_orderly {σ : Store}
    (hfresh : ∀ e ∈ events (buildEventScript name behaviour providerCallId draws).1,
      ¬ Recorded σ.events e) :
    OrderlyDelivery σ (events (buildEventScript name behaviour providerCallId draws).1)
      (announced (steps behaviour draws).2) := by
  have htypes := types_rearranged name providerCallId behaviour draws
  have hkeys : ∀ e ∈ events (buildEventScript name behaviour providerCallId draws).1,
      ∀ e' ∈ events (buildEventScript name behaviour providerCallId draws).1, e.key = e'.key →
      e.eventType = e'.eventType := fun e he e' he' hkey =>
    congrArg ProviderEvent.eventType
      (planned_eq (events_rearranged.mem.mp he) (events_rearranged.mem.mp he') hkey)
  -- an end that is among the types is among those of the events, and no other is
  have horderly : ∀ (ts : List String) (target : CallState), Rearranged ts
      ((events (buildEventScript name behaviour providerCallId draws).1).map
        ProviderEvent.eventType) →
      CallSm.isTerminal target = true → (∃ t ∈ ts, eventTypeToCallState t = some target) →
      (∀ t ∈ ts, ∀ s ∈ eventTypeToCallState t, CallSm.isTerminal s = true → s = target) →
      answersFirst ((events (buildEventScript name behaviour providerCallId draws).1).map
        ProviderEvent.eventType) = true →
      OrderlyDelivery σ (events (buildEventScript name behaviour providerCallId draws).1) target := by
    intro ts target htypes hterm hends honly hanswered
    refine ⟨hfresh, hkeys, hterm, ?_, fun e he t ht => ?_, hanswered⟩
    · obtain ⟨t, ht, htarget⟩ := hends
      obtain ⟨e, he, rfl⟩ := List.mem_map.mp (htypes.mem.mpr ht)
      exact ⟨e, he, htarget⟩
    · exact honly _ (htypes.mem.mp (List.mem_map_of_mem he)) t ht
  rcases steps_cases behaviour draws with
    ⟨hfinal, hsteps⟩ | ⟨hfinal, hsteps⟩
  all_goals
    rw [hsteps] at htypes
    rw [hfinal]
    exact horderly _ _ htypes (by decide) (by decide) (by decide)
      (htypes.answersFirst (by decide) (by decide) (by decide))

/-- **A script decides its call.** However its events are put out of order or repeated, an attached
call that they are about ends in the state that the provider reports of it from then on, and its
agent is where that state has him, held by nobody. -/
theorem script_decides {cfg : Config} {envs : Nat → Env} {σ : Store} {d : Call} {g : Agent}
    (hdial : Dialling σ d g) (henvs : ∀ n, (envs n).fault = none)
    (hattached : d.providerCallId = some providerCallId)
    (hfresh : ∀ e ∈ events (buildEventScript d.providerName behaviour providerCallId draws).1,
      ¬ Recorded σ.events e) :
    let script := buildEventScript d.providerName behaviour providerCallId draws
    ∃ d' g', (processAll cfg envs (events script.1) 0 σ).calls.get? d.id = some d'
      ∧ (processAll cfg envs (events script.1) 0 σ).agents.get? d.agentId = some g'
      ∧ d'.state = announced script.2
      ∧ CallSm.agentStateForCallState d'.state = some g'.state
      ∧ g'.toLeaseFields = clearedLeaseFields := by
  have habout : ∀ e ∈ events (buildEventScript d.providerName behaviour providerCallId draws).1,
      e.About d := by
    intro e he
    obtain ⟨index, step, -, rfl⟩ := mem_planned.mp (events_rearranged.mem.mp he)
    exact ⟨rfl, hattached⟩
  obtain ⟨d', g', hd', hg', hstate, hagent, hlease⟩ :=
    (script_orderly hfresh).outcome cfg hdial henvs habout
  exact ⟨d', g', hd', hg', hstate, hstate.symm ▸ hagent, hlease⟩

/-! A script whose completion overtakes `CONNECTED` and is reported twice. -/

def demoBehaviour : MockBehaviour ℚ where
  setupLatencyRange := (1 / 10, 1 / 5)
  failureRate := 0
  hangRate := 0
  answerRate := 1
  avgTalkTime := 120
  ringDuration := 3
  duplicateRate := 1
  outOfOrderRate := 1

def demoDraws : ScriptDraws ℚ where
  answer := 0
  talkTime := 100
  outOfOrder := 0
  swapped := 2
  duplicate := 0
  repeated := 2
  now _ := 0

example : (events (buildEventScript "mock_a" demoBehaviour "p" demoDraws).1).map
    ProviderEvent.eventType = ["RINGING", "ANSWERED", "COMPLETED", "COMPLETED", "CONNECTED"] := by
  decide +kernel

theorem script_decides_demo : ∃ d' g',
    (processAll {} (fun _ => {}) (events (buildEventScript "mock_a" demoBehaviour "p" demoDraws).1) 0
      attached.store).calls.get? demoCall.id = some d'
    ∧ (processAll {} (fun _ => {}) (events (buildEventScript "mock_a" demoBehaviour "p" demoDraws).1)
      0 attached.store).agents.get? demoCall.agentId = some g'
    ∧ d'.state = .COMPLETED ∧ g'.state = .WRAP_UP := by
  obtain ⟨g, hdialling⟩ := attached_dialling
  have hfresh : ∀ e ∈ events (buildEventScript demoCall.providerName demoBehaviour "p" demoDraws).1,
      ¬ Recorded attached.store.events e := by
    have hall : (events (buildEventScript demoCall.providerName demoBehaviour "p" demoDraws).1).all
        (fun e => decide (attached.store.events.get? e.key = none)) = true := by decide +kernel
    exact fun e he hrec => hrec (of_decide_eq_true (List.all_eq_true.mp hall e he))
  have henvs : ∀ n, ((fun _ => {} : Nat → Env) n).fault = none := fun _ => rfl
  obtain ⟨d', g', hd', hg', hstate, hagent, -⟩ := script_decides hdialling henvs rfl hfresh
  have hcompleted : d'.state = .COMPLETED := hstate.trans (by decide +kernel)
  rw [hcompleted] at hagent
  exact ⟨d', g', hd', hg', hcompleted, (Option.some.inj hagent).symm⟩

end MockProvider

end SmartDialer
