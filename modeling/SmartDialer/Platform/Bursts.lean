import SmartDialer.Events.Ledger
import SmartDialer.Platform.Refinement

/-!
# Bursts of replayed events

The event bursts of the fault injector put events through the processor that the ledger has already.
Among whatever else goes on, they change nothing.

A burst first asks the ledger for events and then puts each of them through the processor again.
What it has asked for is stored, and a stored event is answered `DUPLICATE`, so its processing ends
there. The invariant, `Remembered`, says both of every thread at once; the conduct, `Replays`,
leaves open what a thread does after the ledger has taken a stored event for new, and the invariant
rules that out.
-/

namespace SmartDialer

open Concurrent DocStore EventProcessor HostFloat

variable {F : Type}

/-! ## What a burst knows

A thread knows an event from an answer of the ledger. `Stored` and `TakenForNew` are read off its
history and only ever become true, which is why the conduct can be stated in them. -/

/-- The query of `_replayable_events`. -/
def QueriesLedger : Op ⊕ PlatformOp F → Prop
  | .inr (.findLatest _) | .inr (.findProviderEventsForCall _) => True
  | _ => False

/-- An event that the thread has got out of the ledger. -/
inductive Stored (h : PlatformHistory F) (event : ProviderEvent) : Prop where
  | latest {limit : Int} {events : List ProviderEvent}
      (hanswer : ⟨.inr (.findLatest limit), .ok events⟩ ∈ h) (he : event ∈ events)
  | ofCall {providerCallId : String} {events : List ProviderEvent}
      (hanswer : ⟨.inr (.findProviderEventsForCall providerCallId), .ok events⟩ ∈ h)
      (he : event ∈ events)

/-- The ledger has taken an event of the thread for a new one. -/
def TakenForNew (h : PlatformHistory F) : Prop :=
  ∃ event, ⟨.inl (.recordEvent event), .ok .RECORDED⟩ ∈ h

/-- Only what is stored is recorded, unless the ledger has lost it. -/
def Replays (h : PlatformHistory F) (o : Op ⊕ PlatformOp F) : Prop :=
  (∃ event, o = .inl (.recordEvent event) ∧ Stored h event) ∨ TakenForNew h

theorem Stored.mono {h h' : PlatformHistory F} (hsub : h ⊆ h') {event : ProviderEvent}
    (hstored : Stored h event) : Stored h' event := by
  cases hstored with
  | latest hanswer he => exact .latest (hsub hanswer) he
  | ofCall hanswer he => exact .ofCall (hsub hanswer) he

theorem TakenForNew.mono {h h' : PlatformHistory F} (hsub : h ⊆ h') (htaken : TakenForNew h) :
    TakenForNew h' := by
  obtain ⟨event, hin⟩ := htaken
  exact ⟨event, hsub hin⟩

section Conduct

variable [FloatArith F] {pc : PlatformConfig F}

/-- The machine in which bursts only replay. -/
abbrev replaying (pc : PlatformConfig F) :=
  (platform pc).emitting fun h o => History.Led QueriesLedger h → Replays h o

theorem follows_taken {α : Type} {h : PlatformHistory F} (htaken : TakenForNew h)
    (x : PlatformPy F α) : (replaying pc).Follows h x fun h' _ => TakenForNew h' := by
  induction x generalizing h with
  | ret a => exact htaken
  | raise e => exact htaken
  | op o k ih =>
    exact ⟨fun _ => Or.inr htaken, fun r => ih r (htaken.mono (List.subset_append_left _ _))⟩

/-- All that have been answered for are duplicates. -/
def OnlyDuplicates (h : PlatformHistory F) (r : Except Exn (List EventProcessingResult)) : Prop :=
  TakenForNew h ∨ ∀ results, r = .ok results → ∀ x ∈ results, x.status = .DUPLICATE_IGNORED

/-- Replaying stored events: each is a duplicate, or one was taken for new. By induction on the
events. That a stored event is taken for new is ruled out later, by what the ledger knows in every
state of a run. -/
theorem replaying_replay (events : List ProviderEvent) {h : PlatformHistory F}
    (hstored : ∀ event ∈ events, Stored h event) :
    (replaying pc).Follows h (FaultInjector.replay pc.cfg events) OnlyDuplicates := by
  -- on the events: the history grows, and what was stored in it stays stored
  induction events generalizing h with
  | nil =>
    refine Or.inr fun results hr => ?_
    cases hr
    exact fun _ hx => absurd hx List.not_mem_nil
  | cons event events ih =>
    unfold FaultInjector.replay dialer processEvent call
    simp only [Prog.bind_def, Prog.lift_bind, Prog.lift_perform, Machine.follows_bind,
      Machine.follows_perform]
    refine ⟨fun _ => Or.inl ⟨event, rfl, hstored event List.mem_cons_self⟩, fun r => ?_⟩
    have hgrown : h ⊆ h ++ [⟨.inl (.recordEvent event), r⟩] := List.subset_append_left _ _
    cases r with
    | error e => exact Or.inr nofun
    | ok record =>
      cases record with
      -- the ledger takes the event for a new one, and nothing is promised any more
      | RECORDED =>
        have htaken : TakenForNew (h ++ [⟨.inl (.recordEvent event), .ok .RECORDED⟩]) :=
          ⟨event, List.mem_append_right _ (List.mem_singleton_self _)⟩
        refine (follows_taken htaken _).mono fun h' r htaken' => ?_
        cases r with
        | error e => exact Or.inl htaken'
        | ok result =>
          refine (follows_taken htaken' _).mono fun h'' r htaken'' => ?_
          cases r <;> exact Or.inl htaken''
      -- the event is ignored, and the next one follows
      | DUPLICATE =>
        show (replaying pc).Follows (h ++ _) (FaultInjector.replay pc.cfg events) _
        refine Machine.Follows.mono (ih fun event' hevent' =>
          (hstored event' (List.mem_cons_of_mem _ hevent')).mono hgrown) fun h' r hrest => ?_
        cases r with
        | error e => exact hrest.imp_right fun _ => nofun
        | ok results =>
          refine hrest.imp_right fun hall results' hr => ?_
          cases hr
          rintro x (_ | ⟨_, hx⟩)
          · rfl
          · exact hall results rfl x hx

/-- The jobs that replay. -/
def PlatformJob.bursts : PlatformJob F → Bool
  | .duplicateEventBurst _ | .outOfOrderBurst _ => true
  | _ => false

/-- All that a burst has replayed are duplicates. -/
def AllReplayed (h : PlatformHistory F) (r : Except Exn (PlatformOutcome F)) : Prop :=
  TakenForNew h ∨ ∀ results, r = .ok (.replayed results) →
    ∀ x ∈ results, x.status = .DUPLICATE_IGNORED

/-- What is known of a job that has ended. -/
def PlatformJob.Replayed (job : PlatformJob F) (h : PlatformHistory F)
    (r : Except Exn (PlatformOutcome F)) : Prop :=
  job.bursts = true → AllReplayed h r

/-- A burst, in whatever order it replays what it has found. Whatever the order is, the events come
from the ledger, which is all that counts. -/
theorem replaying_burst (pc : PlatformConfig F) (providerCallId : Option String)
    {arrange : List ProviderEvent → List ProviderEvent} (harrange : ∀ l, arrange l ⊆ l) :
    (replaying pc).Follows [] ((FaultInjector.replayableEvents providerCallId).bind fun events =>
      (FaultInjector.replay pc.cfg (arrange events)).bind fun results =>
        .ret (PlatformOutcome.replayed results)) AllReplayed := by
  have hreplay : ∀ (h : PlatformHistory F) (events : List ProviderEvent),
      (∀ event ∈ events, Stored h event) →
      (replaying pc).Follows h ((FaultInjector.replay pc.cfg (arrange events)).bind fun results =>
        .ret (PlatformOutcome.replayed results)) AllReplayed := by
    intro h events hstored
    rw [Machine.follows_bind]
    refine (replaying_replay (arrange events) fun event he =>
      hstored event (harrange events he)).mono fun h' r hdone => ?_
    cases r with
    | error e => exact hdone.imp_right fun _ => nofun
    | ok results =>
      refine hdone.imp_right fun hall results' hr => ?_
      cases hr
      exact hall results rfl
  -- the query itself comes first, when nothing has been asked yet
  have hunled : ∀ o : Op ⊕ PlatformOp F, History.Led QueriesLedger ([] : PlatformHistory F) →
      Replays ([] : PlatformHistory F) o :=
    fun o hled => absurd hled.choose_spec.1 (Option.not_mem_none _)
  cases providerCallId with
  | none =>
    refine ⟨hunled _, fun r => ?_⟩
    cases r with
    | error e => exact Or.inr nofun
    | ok events =>
      exact hreplay _ events fun event he => .latest (List.mem_singleton_self _) he
  | some providerCallId =>
    refine ⟨hunled _, fun r => ?_⟩
    cases r with
    | error e => exact Or.inr nofun
    | ok events =>
      exact hreplay _ events fun event he => .ofCall (List.mem_singleton_self _) he

/-- No other job begins with that query. So a thread whose history begins with it is known to replay
a burst. -/
theorem PlatformJob.first_of_not_bursts (job : PlatformJob F) (hjob : job.bursts = false) :
    ∀ o ∈ (PlatformJob.program pc job).first?, ¬ QueriesLedger o := by
  have hnot : ∀ {x : PlatformPy F (PlatformOutcome F)} {o : Op ⊕ PlatformOp F},
      x.first? = some o → ¬ QueriesLedger o → ∀ o' ∈ x.first?, ¬ QueriesLedger o' := by
    intro x o hx ho o' ho'
    cases hx.symm.trans ho'
    exact ho
  have hnone : ∀ {x : PlatformPy F (PlatformOutcome F)}, x.first? = none →
      ∀ o' ∈ x.first?, ¬ QueriesLedger o' := by
    intro x hx o' ho'
    cases hx.symm.trans ho'
  -- by what the job does first, if it does anything
  cases job with
  | duplicateEventBurst | outOfOrderBurst => cases hjob
  | dialerWorker workerId rounds =>
    cases rounds with
    | zero => exact hnone rfl
    | succ rounds => exact hnot (o := .inr (.findRunning 100)) rfl id
  | recoveryWorker rounds =>
    cases rounds with
    | zero => exact hnone rfl
    | succ rounds => exact hnot (o := .inl .utcNow) rfl id
  | deliverEvents events =>
    cases events with
    | nil => exact hnone rfl
    | cons event events =>
      exact hnot (o := .inr (.recordEventReceived event.providerName)) rfl id
  | agentAction agentId action => exact hnot (o := .inl (.findAgentById agentId)) rfl id
  | logEveryoneIn campaignId => exact hnot (o := .inr (.findForCampaign campaignId 10000)) rfl id
  | takeAgentsOffline campaignId count =>
    exact hnot (o := .inr (.findForCampaign campaignId 10000)) rfl id
  | heartbeats campaignId rounds =>
    cases rounds with
    | zero => exact hnone rfl
    | succ rounds => exact hnot (o := .inr (.findForCampaign campaignId 10000)) rfl id
  | createCampaign campaign => exact hnot (o := .inr (.insertCampaign campaign)) rfl id
  | changeStatus campaignId action => exact hnot (o := .inr (.findCampaignById campaignId)) rfl id
  | setMode campaignId mode => exact hnot (o := .inr (.findCampaignById campaignId)) rfl id
  | check campaignId final => exact hnot (o := .inr (.findActive campaignId 5000)) rfl id

/-- Bursts replay what is stored, and no other job begins like a burst. -/
theorem replaying_conforms : (replaying pc).Conforms PlatformJob.Replayed := by
  intro job
  cases hjob : job.bursts with
  | false =>
    refine (Machine.follows_unled (PlatformJob.first_of_not_bursts job hjob)).mono
      fun h r _ hbursts => ?_
    cases hjob.symm.trans hbursts
  | true =>
    cases job with
    | duplicateEventBurst providerCallId =>
      have hburst := replaying_burst pc providerCallId fun l => List.Subset.refl l
      rw [← Prog.bind_assoc] at hburst
      exact hburst.mono fun h r hdone _ => hdone
    | outOfOrderBurst providerCallId =>
      have hburst := replaying_burst pc providerCallId fun l => List.reverse_subset.mpr
        (List.Subset.refl l)
      rw [← Prog.bind_assoc] at hburst
      exact hburst.mono fun h r hdone _ => hdone
    | _ => cases hjob

/-! ## What the ledger knows

An event that is recorded stays recorded, whatever is performed after. So what a thread was answered
at any time is in the ledger now. -/

/-- What is stored is in the ledger, and no burst has found it missing. -/
structure Remembered (σ : PlatformStore F) (st : Nat → PlatformHistory F) : Prop where
  stored : ∀ p event, Stored (st p) event → Recorded σ.base.events event
  known : ∀ p, (st p).Led QueriesLedger → ¬ TakenForNew (st p)

theorem recorded_platformExec (env : PlatformEnv F) (o : Op ⊕ PlatformOp F) {σ : PlatformStore F}
    {event : ProviderEvent} (h : Recorded σ.base.events event) :
    Recorded (platformExec env o σ).2.base.events event := by
  cases o with
  | inl o => exact (recorded_exec env.base o σ.base event).mpr (Or.inl h)
  | inr o =>
    rw [platformExec_base]
    exact h

/-- A stored document answers for its event. -/
theorem recorded_toProviderEvent {events : ProviderEvents} {d : ProviderEventDocument}
    (hd : d ∈ events.docs) : Recorded events (EventRepo.toProviderEvent d) := by
  have hget : events.get? (key d) = some d := Collection.get?_of_mem hd
  exact fun hnone => Option.some_ne_none d (hget.symm.trans hnone)

theorem recorded_findLatest {limit : Int} {events : ProviderEvents} {event : ProviderEvent}
    (h : event ∈ EventRepo.findLatest limit events) : Recorded events event := by
  obtain ⟨d, hd, rfl⟩ := List.mem_map.mp h
  exact recorded_toProviderEvent
    ((List.mem_insertionSort _).mp (limited_subset (List.mem_reverse.mp hd)))

theorem recorded_findProviderEventsForCall {providerCallId : String} {events : ProviderEvents}
    {event : ProviderEvent} (h : event ∈ EventRepo.findProviderEventsForCall providerCallId events) :
    Recorded events event := by
  obtain ⟨d, hd, rfl⟩ := List.mem_map.mp h
  have hin := (List.mem_insertionSort _).mp hd
  exact recorded_toProviderEvent (Collection.mem_of_get? (Collection.mem_find.mp hin).1)

/-- An event that is in the ledger is a duplicate, and recording it again changes nothing. -/
theorem exec_recordEvent_of_recorded {env : Env} {event : ProviderEvent} {σ : Store}
    (h : Recorded σ.events event) :
    (exec env (.recordEvent event) σ).2 = σ
      ∧ (exec env (.recordEvent event) σ).1 ≠ .ok .RECORDED := by
  have hduplicate := recordEvent_of_recorded env.now h
  have happly : apply env (.recordEvent event) σ = (.ok .DUPLICATE, σ) := by
    show ((.ok (EventRepo.recordEvent event env.now σ.events).1 : Except Exn _), { σ with
      events := (EventRepo.recordEvent event env.now σ.events).2 }) = _
    rw [hduplicate]
  rcases exec_cases env (.recordEvent event) σ with heq | ⟨f, -, -, heq⟩
  · rw [heq, happly]
    exact ⟨rfl, nofun⟩
  · rw [heq, happly]
    refine ⟨?_, nofun⟩
    split <;> rfl

omit [FloatArith F] in
/-- What is stored after one more answer was stored before, or is in the answer. -/
theorem Stored.of_append {h : PlatformHistory F} {o : Op ⊕ PlatformOp F}
    {r : Except Exn (EitherRes Res (PlatformRes F) o)} {event : ProviderEvent}
    (hstored : Stored (h ++ [⟨o, r⟩]) event) : Stored h event
      ∨ (∃ limit events, (⟨o, r⟩ : Happening _ _ Exn) = ⟨.inr (.findLatest limit), .ok events⟩
        ∧ event ∈ events)
      ∨ ∃ providerCallId events, (⟨o, r⟩ : Happening _ _ Exn)
        = ⟨.inr (.findProviderEventsForCall providerCallId), .ok events⟩ ∧ event ∈ events := by
  cases hstored with
  | latest hanswer he =>
    rcases List.mem_append.mp hanswer with hanswer | hanswer
    · exact Or.inl (.latest hanswer he)
    · exact Or.inr (Or.inl ⟨_, _, (List.mem_singleton.mp hanswer).symm, he⟩)
  | ofCall hanswer he =>
    rcases List.mem_append.mp hanswer with hanswer | hanswer
    · exact Or.inl (.ofCall hanswer he)
    · exact Or.inr (Or.inr ⟨_, _, (List.mem_singleton.mp hanswer).symm, he⟩)

/-- What is stored after an operation is recorded after it. -/
theorem Remembered.stored_op {σ : PlatformStore F} {st : Nat → PlatformHistory F}
    (h : Remembered σ st) (p : Nat) (o : Op ⊕ PlatformOp F) (env : PlatformEnv F)
    {event : ProviderEvent} (hstored : Stored (st p ++ [⟨o, (platformExec env o σ).1⟩]) event) :
    Recorded (platformExec env o σ).2.base.events event := by
  refine recorded_platformExec env o ?_
  -- it was stored before, or one of the two queries has just answered it
  rcases hstored.of_append with hstored | ⟨limit, events, heq, he⟩ | ⟨id, events, heq, he⟩
  · exact h.stored p event hstored
  · obtain ⟨rfl, hans⟩ := Happening.mk.inj heq
    have hok : (platformExec env (.inr (.findLatest limit)) σ).1 = .ok events := eq_of_heq hans
    rw [platformExec_of_ok hok] at hok
    exact recorded_findLatest (Except.ok.inj hok ▸ he)
  · obtain ⟨rfl, hans⟩ := Happening.mk.inj heq
    have hok : (platformExec env (.inr (.findProviderEventsForCall id)) σ).1 = .ok events :=
      eq_of_heq hans
    rw [platformExec_of_ok hok] at hok
    exact recorded_findProviderEventsForCall (Except.ok.inj hok ▸ he)

/-- No burst finds a stored event missing. -/
theorem Remembered.known_op {σ : PlatformStore F} {st : Nat → PlatformHistory F}
    (h : Remembered σ st) (p : Nat) (o : Op ⊕ PlatformOp F) (env : PlatformEnv F)
    (hemits : History.Led QueriesLedger (st p) → Replays (st p) o)
    (hled : History.Led QueriesLedger (st p ++ [⟨o, (platformExec env o σ).1⟩])) :
    ¬ TakenForNew (st p ++ [⟨o, (platformExec env o σ).1⟩]) := by
  rintro ⟨event, hin⟩
  -- an event was taken for new before, or by this very operation
  rcases List.mem_append.mp hin with hin | hin
  · exact h.known p (hled.of_append (List.ne_nil_of_mem hin)) ⟨event, hin⟩
  · obtain ⟨rfl, hans⟩ := Happening.mk.inj (List.mem_singleton.mp hin)
    have hrecorded : (exec env.base (.recordEvent event) σ.base).1 = .ok .RECORDED :=
      (eq_of_heq hans).symm
    by_cases hne : st p = []
    · rw [hne] at hled
      exact History.led_cons.mp hled
    · have hled := hled.of_append hne
      rcases hemits hled with ⟨event', heq, hstored⟩ | htaken
      -- the burst records a stored event, which the ledger has
      · cases heq
        exact (exec_recordEvent_of_recorded (h.stored p event hstored)).2 hrecorded
      · exact h.known p hled htaken

/-- **Every step keeps what the ledger knows.** The ledger only grows, so what it knew it still
knows; the thread that has queried it has been shown recorded events. -/
theorem Remembered.preserves (R : PlatformRegime F) :
    (replaying pc).Preserves R fun σ _ st => Remembered σ st where
  spawn := fun {σ tr st} p job h _ _ => by
    have hnew : Function.update st p ((replaying pc).start job) p = [] := Function.update_self ..
    refine ⟨fun q event hstored => ?_, fun q hled => ?_⟩
    · by_cases hq : q = p
      · rw [hq, hnew] at hstored
        cases hstored with
        | latest hanswer _ | ofCall hanswer _ => exact absurd hanswer List.not_mem_nil
      · rw [Function.update_of_ne hq] at hstored
        exact h.stored q event hstored
    · by_cases hq : q = p
      · rw [hq, hnew]
        exact fun ⟨_, hin⟩ => List.not_mem_nil hin
      · rw [Function.update_of_ne hq] at hled ⊢
        exact h.known q hled
  op := fun {σ tr st live} p o env h hemits _ _ => by
    refine ⟨fun q event hstored => ?_, fun q hled => ?_⟩
    · by_cases hq : q = p
      · rw [hq, Function.update_self] at hstored
        exact h.stored_op p o env hstored
      · rw [Function.update_of_ne hq] at hstored
        exact recorded_platformExec env o (h.stored q event hstored)
    · by_cases hq : q = p
      · rw [hq, Function.update_self] at hled ⊢
        exact h.known_op p o env hemits hled
      · rw [Function.update_of_ne hq] at hled ⊢
        exact h.known q hled

theorem remembered_of_reachable {R : PlatformRegime F} {σ₀ : PlatformStore F} {w : PlatformWorld F}
    (h : Reachable (platform pc) R (World.fresh σ₀) w) :
    Remembered w.store fun p => historyOf p w.trace := by
  have hinit : Remembered σ₀ fun _ => ([] : PlatformHistory F) :=
    ⟨fun p event hstored => by
      cases hstored with
      | latest hanswer _ | ofCall hanswer _ => exact absurd hanswer List.not_mem_nil,
      fun p _ ⟨_, hin⟩ => List.not_mem_nil hin⟩
  have hremembered := (h.emitting _).invariant replaying_conforms (Remembered.preserves R)
    (World.Obeys.fresh _ σ₀) hinit
  exact (funext h.history : _ = _) ▸ hremembered

/-! ## Bursts among everything else

A burst performs its query or a replay. The query writes nothing, and the replay finds its event
recorded. -/

theorem PlatformJob.first_of_bursts (pc : PlatformConfig F) {job : PlatformJob F}
    (hjob : job.bursts = true) {o : Op ⊕ PlatformOp F} (ho : (PlatformJob.program pc job).first? = some o) :
    QueriesLedger o := by
  cases job with
  | duplicateEventBurst providerCallId | outOfOrderBurst providerCallId =>
    cases providerCallId <;> cases ho <;> trivial
  | _ => cases hjob

theorem platformExec_queriesLedger {o : Op ⊕ PlatformOp F} (ho : QueriesLedger o)
    (env : PlatformEnv F) (σ : PlatformStore F) : (platformExec env o σ).2 = σ := by
  cases o with
  | inl o => exact ho.elim
  | inr o =>
    unfold platformExec
    dsimp only
    cases o <;> first | exact ho.elim | skip
    all_goals
      split
      · rfl
      · split <;> rfl

/-- **A burst changes nothing.** Whatever else goes on and whatever fails, no step of a burst leaves
a trace in the store, and all that it has replayed when it ends has been ignored as duplicate. -/
theorem burst_harmless {R : PlatformRegime F} {σ₀ : PlatformStore F} {w : PlatformWorld F}
    (h : Reachable (platform pc) R (World.fresh σ₀) w) {p : Nat}
    {t : Thread (PlatformJob F) (Op ⊕ PlatformOp F) (EitherRes Res (PlatformRes F)) Exn
      (PlatformOutcome F) (PlatformHistory F)}
    (ht : w.threads p = some t) (hburst : t.job.bursts = true) :
    (∀ env, (w.act (platform pc) (.perform p env)).store = w.store)
      ∧ ∀ results, t.prog = .ret (.replayed results) →
        ∀ x ∈ results, x.status = .DUPLICATE_IGNORED := by
  have hremembered := remembered_of_reachable h
  have hstage : historyOf p w.trace = t.stage := (h.history p).symm.trans (World.lastStage_eq ht)
  have hstored := hremembered.stored p
  have hknown := hremembered.known p
  rw [hstage] at hstored hknown
  -- what the thread has done began with the query
  have hled : t.stage ≠ [] → t.stage.Led QueriesLedger := by
    intro hne
    rcases h.begun ht with ⟨hnil, -⟩ | ⟨x, hx, hfirst⟩
    · exact absurd hnil hne
    · exact ⟨x, hx, PlatformJob.first_of_bursts pc hburst hfirst⟩
  refine ⟨fun env => ?_, fun results hprog => ?_⟩
  -- a step of the burst: its query, or the recording of an event it has been answered
  · rcases w.act_cases (M := platform pc) (.perform p env) with heq | ⟨_, _, ha, _⟩ | ⟨_, _, ha, _⟩
      | ⟨q, env', t', o, k, ha, ht', -, hprog, heq⟩
    · rw [heq]
    · cases ha
    · cases ha
    cases ha
    cases ht.symm.trans ht'
    rw [heq]
    show (platformExec env o w.store).2 = w.store
    rcases h.begun ht with ⟨-, hwhole⟩ | ⟨x, hx, -⟩
    · refine platformExec_queriesLedger (PlatformJob.first_of_bursts pc hburst ?_) env w.store
      rw [← hwhole, hprog]
      rfl
    · have hne : t.stage ≠ [] := fun hnil => by rw [hnil] at hx; cases hx
      have hfollows :=
        ((h.emitting _).obeys replaying_conforms (World.Obeys.fresh _ σ₀)).follows p t ht
      rw [hprog] at hfollows
      rcases hfollows.1 (hled hne) with ⟨event, rfl, hevent⟩ | htaken
      · show ({ w.store with base := (exec env.base (.recordEvent event) w.store.base).2 }
          : PlatformStore F) = w.store
        rw [(exec_recordEvent_of_recorded (hstored event hevent)).1]
      · exact absurd htaken (hknown (hled hne))
  -- the burst has ended
  · have hreplayed := h.ended replaying_conforms ht hprog hburst
    rw [hstage] at hreplayed
    rcases hreplayed with htaken | hall
    · exact absurd htaken (hknown (hled fun hnil => by
        obtain ⟨_, hin⟩ := htaken
        rw [hnil] at hin
        cases hin))
    · exact hall results rfl

end Conduct

/-! An event that no call is waiting for is delivered, and a burst replays it. -/

def burstActions : List (Action (PlatformJob ℚ) (PlatformEnv ℚ)) :=
  .spawn 0 (.deliverEvents [demoEvent]) :: List.replicate 6 (.perform 0 demoPlatformEnv)
    ++ .spawn 1 (.duplicateEventBurst none) :: List.replicate 2 (.perform 1 demoPlatformEnv)

def replayed : PlatformWorld ℚ := (World.fresh demoPlatform).acts (platform {}) burstActions

theorem replayed_reachable : Reachable (platform {}) (platformUnder SystemRegime.anything)
    (World.fresh demoPlatform) replayed := by
  refine Reachable.of_acts _ burstActions (fun p job _ _ => trivial) fun e _ σ st => ?_
  show (platformUnder SystemRegime.anything).guard _ _ _ e.op _
  cases e.op with
  | inl o => exact fun _ _ => trivial
  | inr o => trivial

/-- What a burst has ended with. -/
def burstResults
    (t : Thread (PlatformJob ℚ) (Op ⊕ PlatformOp ℚ) (EitherRes Res (PlatformRes ℚ)) Exn
      (PlatformOutcome ℚ) (PlatformHistory ℚ)) : Option (List EventProcessingResult) :=
  match t.job, t.prog with
  | .duplicateEventBurst _, .ret (.replayed results) => some results
  | _, _ => none

theorem burstResults_eq_some
    {t : Thread (PlatformJob ℚ) (Op ⊕ PlatformOp ℚ) (EitherRes Res (PlatformRes ℚ)) Exn
      (PlatformOutcome ℚ) (PlatformHistory ℚ)} {results : List EventProcessingResult}
    (h : burstResults t = some results) :
    t.job.bursts = true ∧ t.prog = .ret (.replayed results) := by
  unfold burstResults at h
  split at h
  · rename_i hjob hprog
    rw [hjob, hprog]
    cases h
    exact ⟨rfl, rfl⟩
  · cases h

theorem burst_harmless_replayed : ∃ t results, replayed.threads 1 = some t
    ∧ t.prog = .ret (.replayed results) ∧ results.length = 1
    ∧ ∀ x ∈ results, x.status = .DUPLICATE_IGNORED := by
  have hended : ((replayed.threads 1).bind burstResults).map List.length = some 1 := by
    decide +kernel
  obtain ⟨results, hresults, hlength⟩ := Option.map_eq_some_iff.mp hended
  obtain ⟨t, ht, hburst⟩ := Option.bind_eq_some_iff.mp hresults
  obtain ⟨hjob, hprog⟩ := burstResults_eq_some hburst
  exact ⟨t, results, ht, hprog, hlength,
    (burst_harmless replayed_reachable ht hjob).2 results hprog⟩

end SmartDialer
