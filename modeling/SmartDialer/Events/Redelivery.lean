import SmartDialer.Calls.Lifecycle
import SmartDialer.Events.Ledger

/-!
# An event delivered again

`record_event` is the gate: the delivery that writes the event into the ledger is the only one
that works on it, however far it gets. A later delivery is applied exactly when no earlier one
has come as far as the ledger.

Between the write into the ledger and the work on the call there is no transaction. A processor that
dies in between leaves an event that is recorded and never processed, and a later delivery of it
does nothing. The theorem says exactly when that is.
-/

namespace SmartDialer

open DocStore Concurrent Prog EventProcessor

variable {cfg : Config} {σ₀ : Store} {w : SystemWorld} {event : ProviderEvent} {d : Call}
  {t : CallState}

/-! ## The history of the ledger

The ledger is what the operations of the run have written into it, on top of what it held before. -/

/-- The event has been written into the ledger, before the run or in it. -/
def Delivered (σ₀ : Store) (trace : Trace) (event : ProviderEvent) : Prop :=
  Recorded σ₀.events event ∨ ∃ e ∈ trace, e.op.Records event ∧ e.env.lands e.op = true

theorem recorded_iff_delivered {R : SystemRegime}
    (h : Reachable (system cfg) R (World.fresh σ₀) w) (event : ProviderEvent) :
    Recorded w.store.events event ↔ Delivered σ₀ w.trace event := by
  have hpreserves : (system cfg).Preserves R fun σ tr _ =>
      Recorded σ.events event ↔ Delivered σ₀ tr event :=
    { spawn := fun _ _ h _ _ => h
      op := fun {σ tr _ _} p o env h _ _ _ => by
        refine (recorded_exec env o σ event).trans ?_
        rw [h]
        simp only [Delivered, List.mem_append, List.mem_singleton, or_and_right, exists_or,
          exists_eq_left, or_assoc] }
  refine h.invariant system_conforms hpreserves (World.Obeys.fresh _ σ₀) ?_
  simp [Delivered, World.fresh]

/-! ## The event once more

The delivery runs alone and meets no failure, so its result is that of one of the three kinds. -/

/-- The event has been processed exactly once, between the two stores. -/
def ProcessedOnce (cfg : Config) (event : ProviderEvent) (d : Call) (σ σ' : Store) : Prop :=
  match eventTypeToCallState event.eventType with
  | some t => Applied cfg event d t σ σ'
  | none => σ'.calls = σ.calls ∧ σ'.agents = σ.agents ∧ σ'.borrowers = σ.borrowers

/-- Doing nothing is not processing an event that moves the call. -/
theorem not_processedOnce_same {σ : Store} (hd : σ.calls.get? d.id = some d)
    (ht : eventTypeToCallState event.eventType = some t) (hfilter : CallRepo.transitionFilter t d) :
    ¬ ProcessedOnce cfg event d σ σ := by
  unfold ProcessedOnce
  rw [ht]
  rintro ⟨⟨now, hcalls⟩, -⟩
  rcases CallRepo.transitionCall_cases now d.id t (failureReason event t) σ.calls
    with ⟨d', -, -, -, hget, -⟩ | ⟨hno, -⟩
  · rw [← hcalls, hd] at hget
    have hrank := hfilter.2
    rw [Option.some.inj hget] at hrank
    exact lt_irrefl _ hrank
  · exact hno d hd hfilter

/-- The event delivered once more, to a processor that runs alone. -/
def redeliver (cfg : Config) (envs : Nat → Env) (event : ProviderEvent) (σ : Store) :
    Except Exn EventProcessingResult × Store :=
  let r := (processEvent cfg event).run exec envs 0 σ
  (r.1, r.2.1)

theorem redeliver_of_recorded {envs : Nat → Env} {σ : Store} (henvs : ∀ n, (envs n).fault = none)
    (hrec : Recorded σ.events event) :
    redeliver cfg envs event σ = (.ok { status := .DUPLICATE_IGNORED }, σ) := by
  obtain ⟨hans, hstore⟩ := run_of_wp (wp_processEvent_of_recorded cfg hrec)
    (fun _ n => henvs n) 0
  exact Prod.ext hans hstore

/-- An event that it does not know. -/
theorem redeliver_of_fresh {envs : Nat → Env} {σ : Store} (henvs : ∀ n, (envs n).fault = none)
    (hd : σ.calls.get? d.id = some d) (hsound : d.Sound) (habout : event.About d)
    (hfresh : ¬ Recorded σ.events event) :
    (∃ a, (redeliver cfg envs event σ).1 = .ok a ∧ a.status ≠ .DUPLICATE_IGNORED)
    ∧ ProcessedOnce cfg event d σ (redeliver cfg envs event σ).2 := by
  unfold ProcessedOnce
  cases ht : eventTypeToCallState event.eventType with
  | none =>
    obtain ⟨hans, -, hsame⟩ := run_of_wp (wp_processEvent_of_unknown cfg hfresh ht)
      (fun _ n => henvs n) 0
    exact ⟨⟨_, hans, by decide⟩, hsame⟩
  | some t =>
    obtain ⟨hans, -, happlied⟩ := run_of_wp (wp_processEvent cfg hfresh hd hsound habout ht)
      (fun _ n => henvs n) 0
    refine ⟨⟨_, hans, ?_⟩, happlied⟩
    unfold answer applied
    split
    · exact nofun
    · cases CallSm.shouldApplyEvent d.state t <;> exact nofun

/-- **When a redelivery takes effect.** In every world that any interleaving and any failures lead
to, a delivery of the event after its call has been attached is answered as a duplicate and changes
nothing if an earlier delivery has come as far as the ledger, and processes the event exactly once
if none has. -/
theorem redelivery {envs : Nat → Env} (h₀ : CallsSound σ₀.calls)
    (h : Reachable (system cfg) SystemRegime.anything (World.fresh σ₀) w)
    (hd : w.store.calls.get? d.id = some d) (habout : event.About d)
    (henvs : ∀ n, (envs n).fault = none) :
    (Delivered σ₀ w.trace event →
      redeliver cfg envs event w.store = (.ok { status := .DUPLICATE_IGNORED }, w.store))
    ∧ (¬ Delivered σ₀ w.trace event →
      (∃ a, (redeliver cfg envs event w.store).1 = .ok a ∧ a.status ≠ .DUPLICATE_IGNORED)
      ∧ ProcessedOnce cfg event d w.store (redeliver cfg envs event w.store).2) := by
  have hsound := (callFacts_of_reachable h₀ h).sound d.id d hd
  rw [← recorded_iff_delivered h event]
  exact ⟨redeliver_of_recorded henvs, redeliver_of_fresh henvs hd hsound habout⟩

/-! The theorem at a dial that no event has come for yet, and an event that overtakes the answer
of the provider. -/

theorem redelivery_demo : ProcessedOnce {} demoEvent demoCall attached.store
    (redeliver {} (fun _ => {}) demoEvent attached.store).2 := by
  have hreachable : Reachable (system {}) SystemRegime.anything (World.fresh demoStore) attached :=
    Reachable.of_acts _ attachedActions (fun _ _ _ => trivial) fun _ _ _ _ => trivial
  refine ((redelivery demoStore_sound hreachable (by decide +kernel) ⟨rfl, rfl⟩
    fun _ => rfl).2 fun hdelivered => ?_).2
  have hfresh : ¬ Recorded attached.store.events demoEvent := by decide +kernel
  exact absurd ((recorded_iff_delivered hreachable demoEvent).mpr hdelivered) hfresh

/-- The event comes while the provider still has the call in hand. -/
def overtakingActions : List (Action Job Env) :=
  .spawn 0 (.allocate demoCampaign 1 "w") :: List.replicate 10 (.perform 0 demoEnv)
    ++ .spawn 1 (.processEvent demoEvent) :: List.replicate 3 (.perform 1 demoEnv)
    ++ List.replicate 10 (.perform 0 demoEnv)

/-- The world after the dial. -/
def overtaken : SystemWorld := (World.fresh demoStore).acts (system {}) overtakingActions

/-- The event is in the ledger, but found no call; delivered again it is a duplicate, and the call
stays open. -/
theorem overtaking_event_lost : ¬ ∀ (cfg : Config) (envs : Nat → Env) (σ₀ : Store)
    (w : SystemWorld) (event : ProviderEvent) (d : Call), CallsSound σ₀.calls →
    Reachable (system cfg) SystemRegime.anything (World.fresh σ₀) w →
    w.store.calls.get? d.id = some d → event.About d → (∀ n, (envs n).fault = none) →
    ProcessedOnce cfg event d w.store (redeliver cfg envs event w.store).2 := by
  intro hclaim
  have hreachable : Reachable (system {}) SystemRegime.anything (World.fresh demoStore) overtaken :=
    Reachable.of_acts _ overtakingActions (fun _ _ _ => trivial) fun _ _ _ _ => trivial
  have hd : overtaken.store.calls.get? demoCall.id = some demoCall := by decide +kernel
  have hrec : Recorded overtaken.store.events demoEvent := by decide +kernel
  have honce := hclaim {} (fun _ => {}) demoStore overtaken demoEvent demoCall demoStore_sound
    hreachable hd ⟨rfl, rfl⟩ fun _ => rfl
  rw [redeliver_of_recorded (fun _ => rfl) hrec] at honce
  exact not_processedOnce_same (t := .COMPLETED) hd rfl (by decide) honce

end SmartDialer
