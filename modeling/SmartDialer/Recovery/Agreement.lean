import SmartDialer.Events.Answered
import SmartDialer.Recovery.Sweeps

/-!
# Two ways to end a call

A call that is over for the provider is ended by its `COMPLETED` event or, when the event has been
lost, by the sweep of orphaned calls. Both give the borrower back to `release_borrower`, with the
outcome each of them has worked out; the sweep takes every call for unanswered.

Each way is a program that runs alone from the same store, and each is executed up to the
`release_borrower` it ends with. What is compared is the fate of the borrower, that is, his status,
his attempts and his lease; when he may be called again depends on the clock of each.
-/

namespace SmartDialer

open DocStore Concurrent Prog EventProcessor

/-- What the end of a call decides about its borrower. -/
structure BorrowerFate where
  status : BorrowerStatus
  attemptCount : Nat
  lease : LeaseFields
  deriving DecidableEq

/-- The part of a borrower that is compared. -/
def Borrower.fate (b : Borrower) : BorrowerFate := ⟨b.status, b.attemptCount, b.toLeaseFields⟩

namespace RecoveryWorker

/-- The store after the event has been processed alone. -/
def endedByEvent (cfg : Config) (envs : Nat → Env) (event : ProviderEvent) (σ : Store) : Store :=
  ((processEvent cfg event).run exec envs 0 σ).2.1

/-- The store after the sweep of orphaned calls has dealt with the candidate, alone. -/
def endedBySweep (cfg : Config) (envs : Nat → Env) (orphan : Call) (σ : Store) : Store :=
  ((sweepOrphanedCallsLoop cfg [orphan] 0).run exec envs 0 σ).2.1

/-- The borrower has been reached for good. -/
def Contacted (b : DocId) (σ : Store) : Prop :=
  ∃ g, σ.borrowers.get? b = some g ∧ g.status = .CONTACTED

/-- Two ways to end call `d` come to the same for its borrower, and a borrower who has answered is
not called again. -/
structure SameEnd (d : Call) (σ σ' : Store) : Prop where
  fate : (σ.borrowers.get? d.borrowerId).map Borrower.fate
    = (σ'.borrowers.get? d.borrowerId).map Borrower.fate
  contacted : d.answeredAt ≠ none → Contacted d.borrowerId σ ∧ Contacted d.borrowerId σ'

section Ends

variable {cfg : Config} {envs : Nat → Env} {σ : Store} {d : Call} {event : ProviderEvent}

/-- `release_borrower` for the end of call `d`. -/
def givenBack (cfg : Config) (d : Call) (answered : Bool) (now : Time) (borrowers : Borrowers) :
    Borrowers :=
  (BorrowerRepo.releaseBorrower now d.borrowerId d.createdByWorker
    (RetryService.outcomeForTerminalCall answered) cfg.settings.MAX_CALL_ATTEMPTS
    cfg.settings.RETRY_BACKOFF_BASE_SECONDS borrowers).2

theorem filter_of_terminal (hsound : d.Sound) (hopen : d.terminal = false) {t : CallState}
    (ht : CallSm.isTerminal t = true) : CallRepo.transitionFilter t d := by
  by_contra hnot
  have hterm := hsound.ranked.terminal_of_not_filter ht hnot
  rw [hopen] at hterm
  cases hterm

/-- The event gives the borrower back with the answer of the call. -/
theorem borrowers_endedByEvent (hd : σ.calls.get? d.id = some d) (hsound : d.Sound)
    (hopen : d.terminal = false) (habout : event.About d) (hcompleted : event.eventType = "COMPLETED")
    (hfresh : ¬ Recorded σ.events event) (henvs : ∀ n, (envs n).fault = none) :
    ∃ now, (endedByEvent cfg envs event σ).borrowers
      = givenBack cfg d d.answeredAt.isSome now σ.borrowers := by
  have ht : eventTypeToCallState event.eventType = some .COMPLETED := by
    rw [hcompleted]
    rfl
  -- the event applies, and its transition finds the call open
  obtain ⟨-, -, happlied⟩ := run_of_wp (wp_processEvent cfg hfresh hd hsound habout ht)
    (fun _ n => henvs n) 0
  have hborrowers := happlied.borrowers
  rw [if_pos ⟨filter_of_terminal hsound hopen rfl, rfl⟩] at hborrowers
  exact hborrowers

theorem wp_reconcileWithProvider (orphan : Call) :
    (reconcileWithProvider cfg orphan).wp exec Faultless
      (fun r σ' => (∃ t, r = .ok t ∧ CallSm.isTerminal t = true) ∧ σ' = σ) σ := by
  unfold reconcileWithProvider
  cases orphan.providerCallId with
  | none => exact ⟨⟨.FAILED, rfl, rfl⟩, rfl⟩
  | some providerCallId =>
    refine (wp_catching _ _ _ _).mpr ?_
    unfold providerRegistryGet
    by_cases hprovider : orphan.providerName ∈ cfg.providers
    · rw [if_pos hprovider]
      refine wp_call_bind fun env => ⟨env.callStatus, rfl, ⟨_, rfl, ?_⟩, rfl⟩
      cases env.callStatus <;> rfl
    · rw [if_neg hprovider]
      exact ⟨⟨.FAILED, rfl, rfl⟩, rfl⟩

/-- The sweep gives the borrower back unanswered, whatever the provider says. The outcome of the
sweep is always that of an unanswered call: `answered` is `False` there for every status. -/
theorem borrowers_endedBySweep (hd : σ.calls.get? d.id = some d) (hsound : d.Sound)
    (hopen : d.terminal = false) (henvs : ∀ n, (envs n).fault = none) :
    ∃ now, (endedBySweep cfg envs d σ).borrowers = givenBack cfg d false now σ.borrowers := by
  have hspec : (sweepOrphanedCallsLoop cfg [d] 0).wp exec Faultless (fun _ σ' =>
      ∃ now, σ'.borrowers = givenBack cfg d false now σ.borrowers) σ := by
    unfold sweepOrphanedCallsLoop
    refine (wp_bind _ _ _ _).mpr (wp_mono (wp_reconcileWithProvider d) ?_)
    rintro _ σ' ⟨⟨t, rfl, ht⟩, rfl⟩
    refine wp_call_bind fun env => ?_
    rcases CallRepo.transitionCall_cases env.now d.id t
        (if t = .FAILED then some "orphaned" else none) σ'.calls
      with ⟨e, he, hfilter, hans, -, -⟩ | ⟨hno, -⟩
    · cases hd.symm.trans he
      have hev : d.Evolves (CallRepo.transitionUpdate t
          (if t = .FAILED then some "orphaned" else none) env.now d).fromMongo :=
        CallRepo.transitionUpdate_evolves hfilter
      refine ⟨some _, congrArg Except.ok hans, ?_⟩
      unfold releaseParties SmartDialer.releaseAgent releaseBorrower
      dsimp only
      rw [if_neg (show ¬ AgentSm.allowedSources .AVAILABLE .RECOVERY = [] by decide)]
      refine (wp_bind _ _ _ _).mpr (wp_call_bind fun env₁ => ⟨_, rfl, ?_⟩)
      refine wp_call_bind fun env₂ => ⟨_, rfl, ?_⟩
      refine ⟨env₂.now, ?_⟩
      unfold givenBack
      rw [← hev.borrowerId, ← hev.createdByWorker]
      rfl
    -- the call is unfinished, so the transition is not refused
    · exact absurd (filter_of_terminal hsound hopen ht) (hno d hd)
  exact run_of_wp hspec (fun _ n => henvs n) 0

/-- A held borrower is given back, any other one stays as he is. -/
theorem get?_givenBack {b : Borrower} (hb : σ.borrowers.get? d.borrowerId = some b)
    (answered : Bool) (now : Time) :
    (givenBack cfg d answered now σ.borrowers).get? d.borrowerId
      = some (if b.reservedBy = some d.createdByWorker ∧ b.status ∈ BorrowerRepo.releasableStatuses then
          BorrowerRepo.releaseUpdate now (RetryService.outcomeForTerminalCall answered)
            cfg.settings.MAX_CALL_ATTEMPTS cfg.settings.RETRY_BACKOFF_BASE_SECONDS b
        else b) := by
  unfold givenBack BorrowerRepo.releaseBorrower
  rw [Collection.get?_findOneAndUpdate, if_pos rfl, hb]
  rfl

/-- Whoever is still to be called has not been reached. -/
theorem retry_not_contacted {b : Borrower} {now : Time} {m backoff : Int} :
    (BorrowerRepo.buildRetryUpdate now m backoff b).status ≠ .CONTACTED := by
  unfold BorrowerRepo.buildRetryUpdate
  dsimp only
  split <;> exact nofun

/-- **Event and sweep agree about the borrower of a completed call exactly when it has not been
answered**, or he had been reached before. -/
theorem sameEnd_iff {envs' : Nat → Env} (hd : σ.calls.get? d.id = some d) (hsound : d.Sound)
    (hopen : d.terminal = false) {b : Borrower} (hb : σ.borrowers.get? d.borrowerId = some b)
    (habout : event.About d) (hcompleted : event.eventType = "COMPLETED")
    (hfresh : ¬ Recorded σ.events event) (henvs : ∀ n, (envs n).fault = none)
    (henvs' : ∀ n, (envs' n).fault = none) :
    SameEnd d (endedByEvent cfg envs event σ) (endedBySweep cfg envs' d σ)
      ↔ d.answeredAt = none ∨ b.status = .CONTACTED := by
  obtain ⟨now, hevent⟩ : ∃ now, (endedByEvent cfg envs event σ).borrowers = _ :=
    borrowers_endedByEvent hd hsound hopen habout hcompleted hfresh henvs
  obtain ⟨now', hsweep⟩ : ∃ now, (endedBySweep cfg envs' d σ).borrowers = _ :=
    borrowers_endedBySweep hd hsound hopen henvs'
  have hget : (givenBack cfg d d.answeredAt.isSome now σ.borrowers).get? _ = _ := get?_givenBack hb _ _
  have hget' : (givenBack cfg d false now' σ.borrowers).get? _ = _ := get?_givenBack hb _ _
  rw [← hevent] at hget
  rw [← hsweep] at hget'
  -- both give back a borrower who is still held for this worker
  by_cases hheld : b.reservedBy = some d.createdByWorker ∧ b.status ∈ BorrowerRepo.releasableStatuses
  · rw [if_pos hheld] at hget hget'
    have hnot : b.status ≠ .CONTACTED := fun h => by
      have hstatus := hheld.2
      rw [h] at hstatus
      exact absurd hstatus (by decide)
    rw [or_iff_left hnot]
    constructor
    · intro hsame
      by_contra hanswered
      obtain ⟨g, hg, hcontacted⟩ := (hsame.contacted hanswered).2
      cases hget'.symm.trans hg
      exact retry_not_contacted hcontacted
    · intro hunanswered
      rw [hunanswered] at hget
      refine ⟨?_, fun h => absurd hunanswered h⟩
      rw [hget, hget']
      rfl
  · -- neither of them finds the borrower
    rw [if_neg hheld] at hget hget'
    constructor
    · intro hsame
      by_contra hnot
      obtain ⟨hanswered, hstatus⟩ := not_or.mp hnot
      obtain ⟨g, hg, hcontacted⟩ := (hsame.contacted hanswered).2
      cases hget'.symm.trans hg
      exact hstatus hcontacted
    · intro h
      refine ⟨by rw [hget, hget'], fun hanswered => ?_⟩
      have hcontacted := h.resolve_left hanswered
      exact ⟨⟨b, hget, hcontacted⟩, b, hget', hcontacted⟩

end Ends

/-! The theorem at the call that has just been attached, and the same call once it is answered. -/

theorem attached_unrecorded (event : ProviderEvent) : ¬ Recorded attached.store.events event := by
  intro hrecorded
  obtain ⟨doc, hdoc⟩ := Option.ne_none_iff_exists'.mp hrecorded
  have hempty : attached.store.events.docs = [] := by decide +kernel
  have hmem := Collection.mem_of_get? hdoc
  rw [hempty] at hmem
  cases hmem

/-- The clock stands still, nothing fails, and the provider reports every call over. -/
def overEnv (_ : Nat) : Env := { callStatus := .COMPLETED }

theorem sameEnd_iff_demo : SameEnd demoCall
    (endedByEvent {} overEnv (eventOf "1" "COMPLETED") attached.store)
    (endedBySweep {} overEnv demoCall attached.store) :=
  (sameEnd_iff attached_started.call attached_started.sound rfl attached_started.borrower ⟨rfl, rfl⟩
    rfl (attached_unrecorded _) (fun _ => rfl) fun _ => rfl).mpr (Or.inl rfl)

/-- The call has been answered. -/
def answeredStore : Store := processAll {} overEnv [eventOf "2" "ANSWERED"] 0 attached.store

/-- The call as the event has left it. -/
def answeredCall : Call := CallRepo.transitionUpdate .ANSWERED none 0 demoCall

/-- The event reaches the borrower, the sweep has him called again. -/
theorem answered_call_lost : ¬ ∀ (cfg : Config) (envs : Nat → Env) (σ : Store) (d : Call)
    (b : Borrower) (event : ProviderEvent), σ.calls.get? d.id = some d → d.Sound →
    d.terminal = false → σ.borrowers.get? d.borrowerId = some b → event.About d →
    event.eventType = "COMPLETED" → ¬ Recorded σ.events event →
    (∀ n, (envs n).fault = none) → (∀ n, (envs n).callStatus = .COMPLETED) →
    SameEnd d (endedByEvent cfg envs event σ) (endedBySweep cfg envs d σ) := by
  intro hclaim
  have hfresh : ¬ Recorded answeredStore.events (eventOf "1" "COMPLETED") := by decide +kernel
  have hsame := hclaim {} overEnv answeredStore answeredCall heldBorrower (eventOf "1" "COMPLETED")
    (by decide +kernel) (CallRepo.transitionUpdate_sound ⟨rfl, by decide⟩ attached_started.sound) rfl
    (by decide +kernel) ⟨rfl, rfl⟩ rfl hfresh (fun _ => rfl) fun _ => rfl
  obtain ⟨g, hg, hcontacted⟩ := (hsame.contacted nofun).2
  have hnever : ∀ g ∈ (endedBySweep {} overEnv answeredCall answeredStore).borrowers.docs,
      g.status = .PENDING := by decide +kernel
  cases hcontacted.symm.trans (hnever g (Collection.mem_of_get? hg))

end RecoveryWorker

end SmartDialer
