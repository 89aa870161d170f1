import SmartDialer.Events.Solo

/-!
# Who has recorded an event

The ledger takes an event once. So at most one execution of the event processor ever gets past
the recording of an event, and that one transitions a call at most once: every other delivery of
the event is a duplicate.

* `recorded_exec`: what one operation adds to the ledger.
* `Recordings`: one recorder for each event, and one transition for each recorder.
* `caused_once`: an event causes at most one transition in any run.
* `Unfailed`, `duplicate_of_extra`: without failures every other delivery is answered as a
  duplicate.
-/

namespace SmartDialer

open DocStore Concurrent

/-! ## The ledger

An event can be in the ledger although its processor has been told nothing, if the answer of the
insertion was lost. So what counts is whether the write has landed. -/

/-- The operation writes the event into the ledger if it takes effect. -/
def Op.Records (o : Op) (event : ProviderEvent) : Prop :=
  ∃ e, o = .recordEvent e ∧ e.key = event.key

/-- **An event is in the ledger from the first operation on that writes it there.** No operation
takes an event out of the ledger, and only `record_event` puts one in. -/
theorem recorded_exec (env : Env) (o : Op) (σ : Store) (event : ProviderEvent) :
    Recorded (exec env o σ).2.events event
      ↔ Recorded σ.events event ∨ o.Records event ∧ env.lands o = true := by
  cases hlands : env.lands o with
  | false =>
    rw [exec_of_not_lands hlands]
    simp
  | true =>
    rw [exec_of_lands hlands, and_iff_left rfl]
    -- only the insertion adds to the ledger; the mark keeps the keys
    cases o with
    | recordEvent e =>
      have hrecords : (Op.recordEvent e).Records event ↔ event.key = e.key :=
        ⟨fun ⟨_, he, hkey⟩ => by cases he; exact hkey.symm, fun hkey => ⟨e, rfl, hkey.symm⟩⟩
      show Recorded (EventRepo.recordEvent e env.now σ.events).2 event ↔ _
      rw [hrecords]
      -- a key that is there already leaves the ledger as it is
      by_cases hrec : Recorded σ.events e
      · rw [recordEvent_of_recorded env.now hrec]
        refine (or_iff_left_of_imp fun hkey => ?_).symm
        unfold Recorded at hrec ⊢
        rwa [hkey]
      · exact (recordEvent_of_fresh env.now hrec).2 event
    | markProcessed =>
      refine (recorded_markProcessed event).trans (or_iff_left_of_imp ?_).symm
      rintro ⟨e, he, -⟩
      cases he
    | insertCall draft =>
      have hsame : (apply env (.insertCall draft) σ).2.events = σ.events := by
        simp only [apply]
        split <;> rfl
      rw [hsame]
      refine (or_iff_left_of_imp ?_).symm
      rintro ⟨e, he, -⟩
      cases he
    | _ =>
      refine (or_iff_left_of_imp (b := Op.Records _ event) ?_).symm
      rintro ⟨e, he, -⟩
      cases he

/-! ## The event of a thread

A thread works on one event for all its life, that of its job. What changes is whether it has it in
hand, and whether it has moved a call for it. -/

/-- The event of a job. -/
def Job.event : Job → Option ProviderEvent
  | .processEvent event => some event
  | _ => none

/-- The event a thread has recorded and is working on. -/
def Stage.inHand : Stage → Option ProviderEvent
  | .eventRecorded event | .eventMatched event _ | .eventApplied event _ _ _
  | .eventAgentReturned event _ _ => some event
  | _ => none

/-- The thread is past its only transition of a call. -/
def Stage.spent : Stage → Bool
  | .eventApplied .. | .eventAgentReturned .. | .eventClosing _ | .eventDuplicate _
  | .eventFailed _ => true
  | _ => false

theorem ReservationPair.struck_event (pair : ReservationPair) (e : Exn) :
    (pair.struck e).event = none := by
  cases e <;> rfl

theorem Stage.event_of_dialing {s : Stage} {pair : ReservationPair} (h : s.dialing = some pair) :
    s.event = none := by
  cases s with
  | pairClaimed | callQueued | callInitiated | callOriginated | agentReturned => rfl
  | _ => cases h

theorem Stage.event_next (s : Stage) (o : Op) (r : Except Exn (Res o)) :
    (s.next o r).event = s.event := by
  have h := s.precedes_next o r
  generalize s.next o r = s' at h
  cases h with
  | isStruck e hs => rw [ReservationPair.struck_event, event_of_dialing hs]
  | closes hs | fails hs => exact hs.symm
  | _ => rfl

theorem Stage.event_of_inHand {s : Stage} {event : ProviderEvent} (h : s.inHand = some event) :
    s.event = some event := by
  cases s with
  | eventRecorded | eventMatched | eventApplied | eventAgentReturned => exact h
  | _ => cases h

/-- The event of a thread is that of its job. -/
theorem event_of_reachable {cfg : Config} {R : SystemRegime} {σ₀ : Store} {w : SystemWorld}
    (h : Reachable (system cfg) R (World.fresh σ₀) w) :
    ∀ p t, w.threads p = some t → t.stage.event = t.job.event := by
  refine h.threads (P := fun job s => s.event = job.event) (fun job => ?_)
    (fun job s o r hs => (Stage.event_next s o r).trans hs) fun _ _ ht => by cases ht
  cases job <;> rfl

/-! ## The marks in the trace

Both marks are answers: that the event has been recorded, and that a transition has been applied. A
thread that was struck has not been told, and goes on as if nothing had happened. -/

/-- The entry puts the event into the ledger, for the thread. -/
def recording : Entry Op Res Exn Env → Option (Nat × ProviderEvent)
  | ⟨p, .recordEvent event, _, .ok .RECORDED⟩ => some (p, event)
  | _ => none

/-- The thread whose transition of a call has been applied. -/
def mover : Entry Op Res Exn Env → Option Nat
  | ⟨p, .transitionCall _ _ _, _, .ok (some _)⟩ => some p
  | _ => none

/-- The thread has recorded the event. -/
def RecordedBy (tr : Trace) (p : Nat) (event : ProviderEvent) : Prop :=
  ∃ e ∈ tr, recording e = some (p, event)

/-- How many transitions of calls the thread has made. -/
def moves (tr : Trace) (p : Nat) : Nat :=
  tr.countP fun e => mover e = some p

theorem recordedBy_append {tr : Trace} {e : Entry Op Res Exn Env} {p : Nat}
    {event : ProviderEvent} : RecordedBy (tr ++ [e]) p event
      ↔ RecordedBy tr p event ∨ recording e = some (p, event) := by
  simp only [RecordedBy, List.mem_append, List.mem_singleton, or_and_right, exists_or,
    exists_eq_left]

theorem moves_append (tr : Trace) (e : Entry Op Res Exn Env) (p : Nat) :
    moves (tr ++ [e]) p = moves tr p + if mover e = some p then 1 else 0 := by
  unfold moves
  rw [List.countP_append, List.countP_singleton]
  simp only [decide_eq_true_eq]

section Step

variable {s : Stage} {o : Op} {p q : Nat} {env : Env} {σ : Store} {event : ProviderEvent}

/-- An event is recorded by the thread that has received it, and was not in the ledger. The
unique index decides between two threads that deliver the same event: the second is answered
`DUPLICATE`. -/
theorem recording_of_emits (hemits : Emits s o)
    (h : recording ⟨p, o, env, (exec env o σ).1⟩ = some (q, event)) :
    q = p ∧ s.next o (exec env o σ).1 = .eventRecorded event ∧ ¬ Recorded σ.events event
      ∧ Recorded (exec env o σ).2.events event := by
  cases hemits with
  | @record e =>
    cases hr : (exec env (.recordEvent e) σ).1 with
    | error x =>
      rw [hr] at h
      cases h
    | ok a =>
      have hexec := exec_of_ok hr
      rw [hr] at h
      cases a with
      | DUPLICATE => cases h
      | RECORDED =>
        cases h
        refine ⟨rfl, rfl, fun hrec => ?_, ?_⟩
        · rw [hexec] at hr
          have hdup := recordEvent_of_recorded env.now hrec
          have hans : (EventRepo.recordEvent event env.now σ.events).1 = .RECORDED :=
            Except.ok.inj hr
          rw [hdup] at hans
          cases hans
        · exact (recorded_exec env _ σ event).mpr (Or.inr ⟨⟨event, rfl, rfl⟩, lands_of_ok hr⟩)
  | _ => cases h

/-- What a thread has in hand it has had before, or records now. -/
theorem inHand_next {r : Except Exn (Res o)} (hemits : Emits s o)
    (h : (s.next o r).inHand = some event) :
    s.inHand = some event ∨ recording ⟨p, o, env, r⟩ = some (p, event) := by
  have hevent : s.event = some event := by
    rw [← Stage.event_next s o r]
    exact Stage.event_of_inHand h
  cases s with
  | eventReceived e =>
    cases hevent
    cases hemits
    rcases r with x | (_ | _)
    · cases h
    · exact Or.inr rfl
    · cases h
  | eventRecorded | eventMatched | eventApplied | eventAgentReturned => exact Or.inl hevent
  | eventDuplicate => cases h
  | eventClosing | eventFailed =>
    cases hemits
    cases r <;> cases h
  | _ => cases hevent

theorem recording_pid {e : Entry Op Res Exn Env} (h : recording e = some (q, event)) :
    q = e.pid := by
  unfold recording at h
  split at h
  · cases h
    rfl
  · cases h

theorem mover_pid {r : Except Exn (Res o)} (h : mover ⟨p, o, env, r⟩ = some q) : q = p := by
  unfold mover at h
  split at h
  · next heq =>
    cases h
    cases heq
    rfl
  · cases h

/-- A transition made for an event is the last one of its thread. -/
theorem mover_of_emits {r : Except Exn (Res o)} (hemits : Emits s o)
    (hevent : s.event = some event) (h : mover ⟨p, o, env, r⟩ = some q) :
    s.inHand = some event ∧ s.spent = false ∧ (s.next o r).spent = true := by
  cases hemits with
  | applyEvent =>
    rcases r with x | (_ | updated)
    · cases h
    · cases h
    · exact ⟨hevent, rfl, rfl⟩
  | reserveCall | initiateCall | failCall | endCall => cases hevent
  | _ => cases h

theorem dialing_of_spent (h : s.spent = true) (pair : ReservationPair) : s.dialing ≠ some pair := by
  cases s with
  | pairClaimed | callQueued | callInitiated | callOriginated | agentReturned => cases h
  | _ => exact nofun

theorem spent_next {r : Except Exn (Res o)} (h : s.spent = true) : (s.next o r).spent = true := by
  have hnext := s.precedes_next o r
  generalize s.next o r = s' at hnext
  cases hnext with
  | stays => exact h
  | isStruck e hs => exact absurd hs (dialing_of_spent h _)
  | reads | settlesAgent | closes | fails => rfl
  | _ => cases h

end Step

/-! ## One recorder for each event

Two threads cannot both be told that they have recorded an event, since the first one has left it in
the ledger. -/

/-- The ledger holds what has been recorded, by one thread for each key; whatever a thread has in
hand it has recorded; and a thread transitions a call once, for an event it has recorded. -/
structure Recordings (σ : Store) (tr : Trace) (st : Nat → Stage) : Prop where
  ledger : ∀ p event, RecordedBy tr p event → Recorded σ.events event
  unique : ∀ p q event event', RecordedBy tr p event → RecordedBy tr q event' →
    event.key = event'.key → p = q
  inHand : ∀ p event, (st p).inHand = some event → RecordedBy tr p event
  moved : ∀ p event, (st p).event = some event → moves tr p ≠ 0 →
    (st p).spent = true ∧ RecordedBy tr p event
  once : ∀ p event, (st p).event = some event → moves tr p ≤ 1

namespace Recordings

variable {σ : Store} {tr : Trace} {st : Nat → Stage}

/-- One operation. The ledger grows only; a new recording finds its event fresh, so nobody has
recorded it before; a transition takes its thread past its only one. -/
theorem op (h : Recordings σ tr st) (p : Nat) {o : Op} (env : Env) (hemits : Emits (st p) o) :
    Recordings (exec env o σ).2 (tr ++ [⟨p, o, env, (exec env o σ).1⟩])
      (Function.update st p ((st p).next o (exec env o σ).1)) := by
  have hmono : ∀ event, Recorded σ.events event → Recorded (exec env o σ).2.events event :=
    fun event hrec => (recorded_exec env o σ event).mpr (Or.inl hrec)
  refine ⟨fun q event hby => ?_, fun q q' event event' hby hby' hkey => ?_,
    fun q event hhand => ?_, fun q event hevent hmoves => ?_, fun q event hevent => ?_⟩
  · rcases recordedBy_append.mp hby with hby | hnow
    · exact hmono event (h.ledger q event hby)
    · exact (recording_of_emits hemits hnow).2.2.2
  · -- what is recorded now has not been recorded before
    have hnew : ∀ {q q' event event'}, RecordedBy tr q event →
        recording ⟨p, o, env, (exec env o σ).1⟩ = some (q', event') →
        event.key = event'.key → False := by
      intro q q' event event' hby hnow hkey
      obtain ⟨-, -, hfresh, -⟩ := recording_of_emits hemits hnow
      have hrec := h.ledger q event hby
      unfold Recorded at hrec hfresh
      rw [hkey] at hrec
      exact hfresh hrec
    rcases recordedBy_append.mp hby with hby | hnow
    · rcases recordedBy_append.mp hby' with hby' | hnow'
      · exact h.unique q q' event event' hby hby' hkey
      · exact (hnew hby hnow' hkey).elim
    · rcases recordedBy_append.mp hby' with hby' | hnow'
      · exact (hnew hby' hnow hkey.symm).elim
      · rw [(recording_of_emits hemits hnow).1, (recording_of_emits hemits hnow').1]
  · rw [recordedBy_append]
    by_cases hq : q = p
    · subst hq
      rw [Function.update_self] at hhand
      exact (inHand_next hemits hhand).imp_left (h.inHand q event)
    · rw [Function.update_of_ne hq] at hhand
      exact Or.inl (h.inHand q event hhand)
  · rw [moves_append] at hmoves
    rw [recordedBy_append]
    by_cases hq : q = p
    · subst hq
      rw [Function.update_self] at hevent ⊢
      rw [Stage.event_next] at hevent
      by_cases hnow : mover ⟨q, o, env, (exec env o σ).1⟩ = some q
      · obtain ⟨hhand, -, hspent⟩ := mover_of_emits hemits hevent hnow
        exact ⟨hspent, Or.inl (h.inHand q event hhand)⟩
      · rw [if_neg hnow] at hmoves
        obtain ⟨hspent, hby⟩ := h.moved q event hevent hmoves
        exact ⟨spent_next hspent, Or.inl hby⟩
    · rw [Function.update_of_ne hq] at hevent ⊢
      by_cases hnow : mover ⟨p, o, env, (exec env o σ).1⟩ = some q
      · exact absurd (mover_pid hnow) hq
      · rw [if_neg hnow] at hmoves
        obtain ⟨hspent, hby⟩ := h.moved q event hevent hmoves
        exact ⟨hspent, Or.inl hby⟩
  · rw [moves_append]
    have hsame : (st q).event = some event := by
      by_cases hq : q = p
      · subst hq
        rwa [Function.update_self, Stage.event_next] at hevent
      · rwa [Function.update_of_ne hq] at hevent
    by_cases hnow : mover ⟨p, o, env, (exec env o σ).1⟩ = some q
    · obtain rfl := mover_pid hnow
      obtain ⟨-, hfresh, -⟩ := mover_of_emits hemits hsame hnow
      -- a thread that moves a call has not moved one before
      have hzero : moves tr q = 0 := by
        by_contra hne
        rw [(h.moved q event hsame hne).1] at hfresh
        cases hfresh
      rw [hzero, if_pos hnow]
    · rw [if_neg hnow]
      exact h.once q event hsame

/-- A thread that starts has left no marks. -/
theorem spawn (h : Recordings σ tr st) (p : Nat) (job : Job) (hnone : ∀ e ∈ tr, e.pid ≠ p) :
    Recordings σ tr (Function.update st p job.start) := by
  have hmoves : moves tr p = 0 := by
    refine List.countP_eq_zero.mpr fun e he hmover => hnone e he ?_
    exact (mover_pid (of_decide_eq_true hmover)).symm
  have hstart : job.start.inHand = none := by
    cases job <;> rfl
  refine ⟨h.ledger, h.unique, fun q event hhand => ?_, fun q event hevent hne => ?_,
    fun q event hevent => ?_⟩
  all_goals
    by_cases hq : q = p
    · subst hq
      rw [Function.update_self] at *
      first
      | exact absurd (hstart.symm.trans hhand) nofun
      | exact absurd hmoves hne
      | rw [hmoves]
        exact Nat.zero_le 1
    · rw [Function.update_of_ne hq] at *
      first
      | exact h.inHand q event hhand
      | exact h.moved q event hevent hne
      | exact h.once q event hevent

theorem init (σ : Store) : Recordings σ [] fun _ => .idle where
  ledger := fun _ _ ⟨_, he, _⟩ => absurd he List.not_mem_nil
  unique := fun _ _ _ _ ⟨_, he, _⟩ => absurd he List.not_mem_nil
  inHand := fun _ _ h => by cases h
  moved := fun _ _ h => by cases h
  once := fun _ _ h => by cases h

theorem preserves (cfg : Config) (R : SystemRegime) : (system cfg).Preserves R Recordings where
  spawn := fun p job h _ hnone => h.spawn p job hnone
  op := fun p _ env h hemits _ _ => h.op p env hemits

end Recordings

theorem recordings_of_reachable {cfg : Config} {R : SystemRegime} {σ₀ : Store} {w : SystemWorld}
    (h : Reachable (system cfg) R (World.fresh σ₀) w) :
    Recordings w.store w.trace (w.lastStage (system cfg)) :=
  h.invariant system_conforms (Recordings.preserves cfg R) (World.Obeys.fresh _ σ₀) (.init σ₀)

/-- The key of the event for which the entry has transitioned a call. -/
def causedBy (w : SystemWorld) (e : Entry Op Res Exn Env) : Option (String × String) :=
  (mover e).bind fun p => (w.threads p).bind fun t => t.job.event.map ProviderEvent.key

theorem causedBy_eq_some {w : SystemWorld} {e : Entry Op Res Exn Env} {k : String × String} :
    causedBy w e = some k ↔ ∃ p t event, mover e = some p ∧ w.threads p = some t
      ∧ t.job.event = some event ∧ event.key = k := by
  simp only [causedBy, Option.bind_eq_some_iff, Option.map_eq_some_iff]
  constructor
  · rintro ⟨p, hp, t, ht, event, hevent, hkey⟩
    exact ⟨p, t, event, hp, ht, hevent, hkey⟩
  · rintro ⟨p, t, event, hp, ht, hevent, hkey⟩
    exact ⟨p, hp, t, ht, event, hevent, hkey⟩

/-- **An event causes at most one transition**, however often it is delivered. Transitions that one
event has caused were performed by threads that recorded it, so by one thread, and a thread moves a
call only once. -/
theorem caused_once {cfg : Config} {R : SystemRegime} {σ₀ : Store} {w : SystemWorld}
    (h : Reachable (system cfg) R (World.fresh σ₀) w) (k : String × String) :
    w.trace.countP (fun e => causedBy w e = some k) ≤ 1 := by
  have hinv := recordings_of_reachable h
  have hstage : ∀ {p t event}, w.threads p = some t → t.job.event = some event →
      (w.lastStage (system cfg) p).event = some event := by
    intro p t event ht hevent
    rw [World.lastStage_eq ht, event_of_reachable h p t ht]
    exact hevent
  have hby : ∀ {e p event}, e ∈ w.trace → mover e = some p →
      (w.lastStage (system cfg) p).event = some event → RecordedBy w.trace p event := by
    intro e p event he hmover hevent
    refine (hinv.moved p event hevent fun hzero => ?_).2
    exact List.countP_eq_zero.mp hzero e he (decide_eq_true hmover)
  by_cases hany : ∃ e ∈ w.trace, causedBy w e = some k
  · obtain ⟨e, he, hcaused⟩ := hany
    obtain ⟨p, t, event, hmover, ht, hevent, hkey⟩ := causedBy_eq_some.mp hcaused
    have hsame : ∀ e' ∈ w.trace, decide (causedBy w e' = some k) = true →
        decide (mover e' = some p) = true := by
      intro e' he' hcaused'
      obtain ⟨p', t', event', hmover', ht', hevent', hkey'⟩ :=
        causedBy_eq_some.mp (of_decide_eq_true hcaused')
      have hp := hinv.unique p' p event' event (hby he' hmover' (hstage ht' hevent'))
        (hby he hmover (hstage ht hevent)) (hkey'.trans hkey.symm)
      rw [← hp]
      exact decide_eq_true hmover'
    exact (List.countP_mono_left hsame).trans (hinv.once p event (hstage ht hevent))
  · rw [List.countP_eq_zero.mpr fun e he hcaused => hany ⟨e, he, of_decide_eq_true hcaused⟩]
    exact Nat.zero_le 1

/-! ## Without failures

If nothing fails, every thread that has finished has recorded its event or been told that somebody
else has. -/

/-- Only an insertion that meets another document raises when nothing fails. -/
theorem exec_ok_of_faultless {env : Env} {o : Op} (h : env.fault = none)
    (ho : ∀ draft, o ≠ .insertCall draft) (σ : Store) : ∃ a, (exec env o σ).1 = .ok a := by
  rw [exec_of_faultless h]
  cases o with
  | insertCall draft => exact absurd rfl (ho draft)
  | _ => exact ⟨_, rfl⟩

/-- No thread has failed on its event, and one that closes its event has recorded it. -/
structure Unfailed (tr : Trace) (st : Nat → Stage) : Prop where
  never : ∀ p event, st p ≠ .eventFailed event
  closing : ∀ p event, st p = .eventClosing event → RecordedBy tr p event

/-- How a thread gets to the end of its event when nothing fails. Closing is reached from a stage at
which the thread has the event in hand, and failing only by an exception. -/
theorem closing_next {s : Stage} {o : Op} {a : Res o} {event : ProviderEvent} (hemits : Emits s o)
    (hevent : s.event = some event) :
    s.next o (.ok a) ≠ .eventFailed event
    ∧ (s.next o (.ok a) = .eventClosing event →
      s.inHand = some event ∨ s = .eventClosing event ∨ s = .eventFailed event) := by
  cases s with
  | eventReceived e =>
    cases hemits
    cases a <;> exact ⟨nofun, nofun⟩
  | eventRecorded e =>
    cases hemits
    cases a <;> exact ⟨nofun, fun _ => Or.inl hevent⟩
  | eventMatched e seen =>
    refine ⟨?_, fun _ => Or.inl hevent⟩
    cases hemits with
    | applyEvent => cases a <;> exact nofun
    | ignoreEvent => exact nofun
  | eventApplied e updated t agent =>
    refine ⟨?_, fun _ => Or.inl hevent⟩
    cases hemits <;> exact nofun
  | eventAgentReturned e updated t =>
    refine ⟨?_, fun _ => Or.inl hevent⟩
    cases hemits
    exact nofun
  | eventClosing e =>
    cases hemits
    cases hevent
    exact ⟨nofun, fun _ => Or.inr (Or.inl rfl)⟩
  | eventDuplicate e => cases hemits
  | eventFailed e =>
    cases hemits
    cases hevent
    exact ⟨nofun, fun _ => Or.inr (Or.inr rfl)⟩
  | _ => cases hevent

namespace Unfailed

variable {σ : Store} {tr : Trace} {st : Nat → Stage}

/-- One operation that does not fail. -/
theorem op (hrec : Recordings σ tr st) (h : Unfailed tr st) (p : Nat) {o : Op} {env : Env}
    (hemits : Emits (st p) o) (hfault : env.fault = none) :
    Unfailed (tr ++ [⟨p, o, env, (exec env o σ).1⟩])
      (Function.update st p ((st p).next o (exec env o σ).1)) := by
  have hinsert : ∀ {event draft}, (st p).event = some event → o ≠ .insertCall draft := by
    rintro event draft hevent rfl
    generalize st p = s at hemits hevent
    cases hemits
    cases hevent
  have hsame : ∀ {s : Stage} {event}, s.event = some event →
      (st p).next o (exec env o σ).1 = s → (st p).event = some event := by
    intro s event hevent heq
    rw [← Stage.event_next (st p) o (exec env o σ).1, heq, hevent]
  refine ⟨fun q event hfailed => ?_, fun q event hclosing => recordedBy_append.mpr (Or.inl ?_)⟩
  · by_cases hq : q = p
    · subst hq
      rw [Function.update_self] at hfailed
      have hevent := hsame rfl hfailed
      obtain ⟨a, ha⟩ := exec_ok_of_faultless hfault (fun _ => hinsert hevent) σ
      rw [ha] at hfailed
      exact (closing_next hemits hevent).1 hfailed
    · rw [Function.update_of_ne hq] at hfailed
      exact h.never q event hfailed
  · by_cases hq : q = p
    · subst hq
      rw [Function.update_self] at hclosing
      have hevent := hsame rfl hclosing
      obtain ⟨a, ha⟩ := exec_ok_of_faultless hfault (fun _ => hinsert hevent) σ
      rw [ha] at hclosing
      rcases (closing_next hemits hevent).2 hclosing with hhand | hbefore | hfailed
      · exact hrec.inHand q event hhand
      · exact h.closing q event hbefore
      · exact absurd hfailed (h.never q event)
    · rw [Function.update_of_ne hq] at hclosing
      exact h.closing q event hclosing

theorem spawn (h : Unfailed tr st) (p : Nat) (job : Job) :
    Unfailed tr (Function.update st p job.start) := by
  refine ⟨fun q event => ?_, fun q event hclosing => ?_⟩
  · by_cases hq : q = p
    · rw [hq, Function.update_self]
      cases job <;> exact Stage.noConfusion
    · rw [Function.update_of_ne hq]
      exact h.never q event
  · by_cases hq : q = p
    · rw [hq, Function.update_self] at hclosing
      cases job <;> cases hclosing
    · rw [Function.update_of_ne hq] at hclosing
      exact h.closing q event hclosing

end Unfailed

theorem unfailed_of_reachable {cfg : Config} {R : SystemRegime} {σ₀ : Store} {w : SystemWorld}
    (hR : ∀ σ st p o env, R.guard σ st p o env → env.fault = none)
    (h : Reachable (system cfg) R (World.fresh σ₀) w) :
    Unfailed w.trace (w.lastStage (system cfg)) := by
  have hpreserves : (system cfg).Preserves R fun σ tr st => Recordings σ tr st ∧ Unfailed tr st :=
    { spawn := fun p job hinv _ hnone => ⟨hinv.1.spawn p job hnone, hinv.2.spawn p job⟩
      op := fun p _ env hinv hemits _ hguard => ⟨hinv.1.op p env hemits,
        hinv.2.op hinv.1 p hemits (hR _ _ _ _ _ hguard)⟩ }
  exact (h.invariant system_conforms hpreserves (World.Obeys.fresh _ σ₀)
    ⟨.init σ₀, fun _ _ => Stage.noConfusion, fun _ _ h => by cases h⟩).2

/-- The thread has answered `DUPLICATE_IGNORED`. -/
def Duplicate (t : Thread Job Op Res Exn Outcome Stage) : Prop :=
  ∃ r, t.prog = .ret (.event r) ∧ r.status = .DUPLICATE_IGNORED

/-- How a processor ends when nothing fails. Either it has recorded its event and is through with
it, or the event was a duplicate, and the answer says so. -/
theorem closing_of_finished {cfg : Config} {R : SystemRegime} {σ₀ : Store} {w : SystemWorld}
    (hR : ∀ σ st p o env, R.guard σ st p o env → env.fault = none)
    (h : Reachable (system cfg) R (World.fresh σ₀) w) {p : Nat}
    {t : Thread Job Op Res Exn Outcome Stage} {event : ProviderEvent} (ht : w.threads p = some t)
    (hjob : t.job = .processEvent event) (hfin : t.finished = true) :
    t.stage = .eventClosing event ∨ t.stage = .eventDuplicate event ∧ Duplicate t := by
  have hfollow := (h.obeys system_conforms (World.Obeys.fresh _ σ₀)).follows p t ht
  have hnever := (unfailed_of_reachable hR h).never p event
  rw [World.lastStage_eq ht] at hnever
  rw [hjob] at hfollow
  unfold Thread.finished at hfin
  -- a processor never raises without a fault, so it has returned its result
  cases hprog : t.prog with
  | op o k =>
    rw [hprog] at hfin
    cases hfin
  | raise x =>
    rw [hprog] at hfollow
    exact absurd hfollow hnever
  | ret out =>
    rw [hprog] at hfollow
    cases out with
    | event r =>
      rcases hfollow with ⟨hstage, -⟩ | ⟨hstage, hstatus⟩
      · exact Or.inl hstage
      · exact Or.inr ⟨hstage, r, hprog, hstatus⟩
    | _ => exact hfollow.elim

/-- **Every extra delivery is a duplicate.** -/
theorem duplicate_of_extra {cfg : Config} {R : SystemRegime} {σ₀ : Store} {w : SystemWorld}
    (hR : ∀ σ st p o env, R.guard σ st p o env → env.fault = none)
    (h : Reachable (system cfg) R (World.fresh σ₀) w) {p q : Nat}
    {t u : Thread Job Op Res Exn Outcome Stage} {event event' : ProviderEvent}
    (ht : w.threads p = some t) (hu : w.threads q = some u)
    (hjob : t.job = .processEvent event) (hjob' : u.job = .processEvent event')
    (hfin : t.finished = true) (hfin' : u.finished = true) (hkey : event.key = event'.key)
    (hpq : p ≠ q) : Duplicate t ∨ Duplicate u := by
  rcases closing_of_finished hR h ht hjob hfin with hclosing | ⟨-, hdup⟩
  · rcases closing_of_finished hR h hu hjob' hfin' with hclosing' | ⟨-, hdup⟩
    · have hunfailed := unfailed_of_reachable hR h
      rw [← World.lastStage_eq (M := system cfg) ht] at hclosing
      rw [← World.lastStage_eq (M := system cfg) hu] at hclosing'
      exact absurd ((recordings_of_reachable h).unique p q event event'
        (hunfailed.closing p event hclosing) (hunfailed.closing q event' hclosing') hkey) hpq
    · exact Or.inr hdup
  · exact Or.inl hdup

end SmartDialer
