import SmartDialer.Platform.Watching

/-!
# Rounds of a dialer worker

A worker lists the running campaigns and ticks one after another. Whatever fails in a tick ends that
tick, a failed listing ends its round, and the rounds go on: a worker that has not been cancelled has
ticked every campaign it has listed, in the order of the listing.

The rounds are told as a grammar over the history of the worker: `Rounds` of a `Round` each, a
listing and the ticks of what it lists, one `Ticked` campaign after another. The worker's program is
gone through from the inside out, and what it leaves behind at each level is a word of that grammar,
unless it was cancelled.
-/

namespace SmartDialer

open Concurrent HostFloat Machine

variable {F : Type}

/-! ## Ticks in a history

A tick may end anywhere, because anything may fail in it. What marks it is that it names one
campaign only and that it has come as far as counting that campaign's agents. -/

/-- The campaign that a query or an update names. -/
def Op.campaign? : Op → Option DocId
  | .tryReserveAgent c .. | .findClaimableAgents c _ | .tryReserveBorrower c ..
  | .findClaimableBorrowers c _ | .countAgentsByState c | .countCallsByState c
  | .outcomeCountsBetween c .. | .recordSafetyDecision c .. => some c
  | .insertCall draft => some draft.campaignId
  | .findExpiredWrapUps _ _ c => c
  | _ => none

/-- The campaign that an operation of the platform names. -/
def PlatformOp.campaign? : PlatformOp F → Option DocId
  | .findCampaignById c | .setStatus c _ | .setDialingMode c _ | .averageTalkTimeSeconds c
  | .averageSetupTimeMs c | .countConnectedLongerThan c _ | .exchangeAvailable _ c _
  | .recordPacingRequest c _ | .findForCampaign c _ | .findActive c _ => some c
  | .insertCampaign campaign => some campaign.id
  | _ => none

/-- Nothing is listed, and no other campaign is named. -/
def OfTick (campaignId : DocId) : Op ⊕ PlatformOp F → Prop
  | .inl o => ∀ c ∈ o.campaign?, c = campaignId
  | .inr (.findRunning _) => False
  | .inr o => ∀ c ∈ o.campaign?, c = campaignId

/-- A tick of the campaign that has at least come to look at its agents. -/
structure Ticked (campaignId : DocId) (h : PlatformHistory F) : Prop where
  only : ∀ x ∈ h, OfTick campaignId x.op
  looked : ∃ r, ⟨.inl (.countAgentsByState campaignId), r⟩ ∈ h

/-- One tick after another. -/
inductive TickedThrough : List DocId → PlatformHistory F → Prop where
  | nil : TickedThrough [] []
  | cons {campaignId : DocId} {campaignIds : List DocId} {tick rest : PlatformHistory F}
      (htick : Ticked campaignId tick) (hrest : TickedThrough campaignIds rest) :
      TickedThrough (campaignId :: campaignIds) (tick ++ rest)

/-- A listing that failed, or a listing and a tick of each campaign in it. -/
inductive Round : PlatformHistory F → Prop where
  | failed {e : Exn} : Round [⟨.inr (.findRunning 100), .error e⟩]
  | listed {campaigns : List (CampaignDocument F)} {ticks : PlatformHistory F}
      (hticks : TickedThrough (campaigns.map fun campaign => campaign.id) ticks) :
      Round (⟨.inr (.findRunning 100), .ok campaigns⟩ :: ticks)

/-- One round after another. -/
inductive Rounds : Nat → PlatformHistory F → Prop where
  | nil : Rounds 0 []
  | cons {n : Nat} {round rest : PlatformHistory F} (hround : Round round) (hrest : Rounds n rest) :
      Rounds (n + 1) (round ++ rest)

/-! ## What a tick performs

Every operation of a tick names the campaign of the tick or none. For most of the tick this is read
off the program; the decision is the exception, since it is recorded under the campaign it was made
for, which only its computation shows (`naming_evaluateGuarded`). -/

/-- The stages of a dial for the campaign. -/
def Stage.Serves (campaign : Campaign) : Stage → Prop
  | .allocating c _ | .agentClaimed c _ _ | .pairClaimed c _ | .callQueued c _ _
  | .callInitiated c _ _ | .callOriginated c _ _ | .agentReturned c _ => c = campaign
  | .idle | .compensating _ => True
  | _ => False

theorem Stage.Serves.precedes {campaign : Campaign} {s s' : Stage} (hs : s.Serves campaign)
    (h : s.Precedes s') : s'.Serves campaign := by
  cases h with
  | isStruck e _ => cases e <;> trivial
  | closes hevent | fails hevent => cases s <;> first | exact hs.elim | cases hevent
  | _ => exact hs

theorem Stage.Serves.names {campaign : Campaign} {s : Stage} {o : Op} (hs : s.Serves campaign)
    (h : Emits s o) : ∀ c ∈ o.campaign?, c = campaign.id := by
  cases h <;> first
    | exact hs.elim
    | exact fun c hc => absurd hc (Option.not_mem_none c)
    | exact fun c hc => (Option.some.inj hc).symm.trans (congrArg (fun x => x.id) hs)

theorem names_allocate {cfg : Config} (campaign : Campaign) (approved : Int)
    (workerId : WorkerId) : (CallAllocator.allocate cfg campaign approved workerId).Performs
      fun o => ∀ c ∈ o.campaign?, c = campaign.id :=
  (follows_allocateLoop workerId _ _ _).performs (J := Stage.Serves campaign)
    (fun s o hs hemits => ⟨hs.names hemits, fun r => hs.precedes (Stage.precedes_next s o r)⟩) rfl

/-- A conduct without memory: no other campaign is named. -/
def namings (campaignId : DocId) : Conduct Job Op Res Exn Unit where
  idle := ()
  start := fun _ => ()
  Emits := fun _ o => ∀ c ∈ o.campaign?, c = campaignId
  next := fun _ _ _ => ()

abbrev naming (campaignId : DocId) :=
  (system {}).under (namings campaignId)

theorem naming_performs {campaignId : DocId} {α : Type} {x : Py α}
    (hx : x.Performs fun o => ∀ c ∈ o.campaign?, c = campaignId) :
    (naming campaignId).Follows () x fun _ _ => True :=
  follows_of_performs (fun _ _ ho => ho) hx

section Ticks

variable [FloatArith F] {pc : PlatformConfig F} {h : PlatformHistory F}

namespace SafetyController

variable {settings : SafetySettings F} {campaign : Campaign}

theorem names_observe (request : PacingRequest F) : (observe settings campaign request).Performs
    fun o => ∀ c ∈ o.campaign?, c = campaign.id := by
  have hown : ∀ c ∈ some campaign.id, c = campaign.id := fun c hc => (Option.some.inj hc).symm
  unfold observe readCapacity
  refine .bind (.bind (Prog.performs_perform.mpr nofun) fun _ =>
    .bind (Prog.performs_perform.mpr hown) fun _ => .bind (Prog.performs_perform.mpr hown) fun _ =>
    .bind (Prog.performs_perform.mpr nofun) fun _ => ?_) fun _ =>
    .bind (Prog.performs_perform.mpr nofun) fun _ => ?_
  · split
    · exact trivial
    · exact .bind (Prog.performs_perform.mpr hown) fun _ =>
        .bind (Prog.performs_perform.mpr nofun) fun _ => Prog.performs_ret _
  · split <;> trivial

/-- The decision is about the campaign. -/
def About (campaign : Campaign)
    (r : Except Exn (SafetyDecision F × AgentAvailabilityTracker)) : Prop :=
  ∀ answer, r = .ok answer → answer.1.campaignId = campaign.id

omit [FloatArith F] in
theorem naming_evaluationError (tracker : AgentAvailabilityTracker) (request : PacingRequest F)
    (pacingDecisionId : Option DocId) :
    (naming campaign.id).Follows () ((call .utcNow).bind fun createdAt => .ret
      (evaluationError campaign request pacingDecisionId createdAt, tracker))
      fun _ r => About campaign r := by
  refine ⟨nofun, fun r => ?_⟩
  cases r with
  | error e => exact fun answer hanswer => by cases hanswer
  | ok createdAt =>
    intro answer hanswer
    cases hanswer
    rfl

/-- Whatever is decided is decided about the campaign. Whichever way it is decided, the campaign is
the one of the request. -/
theorem naming_evaluateGuarded (tracker : AgentAvailabilityTracker) (request : PacingRequest F)
    (pacingDecisionId : Option DocId) :
    (naming campaign.id).Follows ()
      (evaluateGuarded settings tracker campaign request pacingDecisionId)
      fun _ r => About campaign r := by
  unfold evaluateGuarded evaluateUnguarded
  rw [Prog.bind_def, follows_bind, follows_catching, Prog.bind_def, follows_bind]
  refine (naming_performs (names_observe request)).mono fun s r _ => ?_
  cases r with
  -- a reading has raised
  | error e =>
    dsimp only
    split
    · exact naming_evaluationError tracker request pacingDecisionId
    · exact fun answer hanswer => by cases hanswer
  | ok observed =>
    obtain ⟨reading, age⟩ := observed
    dsimp only
    split
    -- the ringing ceiling cannot be computed
    · exact naming_evaluationError _ request pacingDecisionId
    · have hnow : (call .utcNow).Performs fun o => ∀ c ∈ o.campaign?, c = campaign.id :=
        Prog.performs_perform.mpr nofun
      rw [Prog.bind_def, follows_bind]
      refine (naming_performs hnow).mono fun s r _ => ?_
      cases r with
      | error e =>
        dsimp only
        split
        · exact naming_evaluationError tracker request pacingDecisionId
        · exact fun answer hanswer => by cases hanswer
      | ok createdAt =>
        intro answer hanswer
        cases hanswer
        rfl

/-- The decision is recorded under the campaign it was made for. -/
theorem names_evaluate (tracker : AgentAvailabilityTracker) (request : PacingRequest F)
    (pacingDecisionId : Option DocId) (persist : Bool) :
    (evaluate settings tracker campaign request pacingDecisionId persist).Performs
      fun o => ∀ c ∈ o.campaign?, c = campaign.id := by
  have hfollows : (naming campaign.id).Follows ()
      (evaluate settings tracker campaign request pacingDecisionId persist) fun _ _ => True := by
    unfold evaluate persistDecision
    rw [Prog.bind_def, follows_bind]
    refine (naming_evaluateGuarded tracker request pacingDecisionId).mono fun s r habout => ?_
    cases r with
    | error e => trivial
    | ok answer =>
      obtain ⟨decision, tracker'⟩ := answer
      have hown : ∀ c ∈ some decision.campaignId, c = campaign.id :=
        fun c hc => (Option.some.inj hc).symm.trans (habout _ rfl)
      refine naming_performs (.bind ?_ fun _ => Prog.performs_ret _)
      split
      · refine .catching (Prog.performs_perform.mpr hown) fun e => ?_
        split <;> trivial
      · trivial
  exact hfollows.performs (J := fun _ => True) (fun _ _ _ ho => ⟨ho, fun _ => trivial⟩) trivial

end SafetyController

theorem names_tick (tracker : AgentAvailabilityTracker) (campaign : Campaign)
    (request : PacingRequest F) (pacingDecisionId : Option DocId) (workerId : WorkerId) :
    (DialerBase.tick pc.safety pc.cfg tracker campaign request pacingDecisionId workerId).Performs
      fun o => ∀ c ∈ o.campaign?, c = campaign.id := by
  unfold DialerBase.tick
  exact .bind (SafetyController.names_evaluate _ _ _ _) fun _ =>
    .bind (names_allocate _ _ _) fun _ => Prog.performs_ret _

/-- Ending wrap-ups names the campaign once, and then agents. -/
theorem names_releaseFinishedWrapUps (cfg : Config) (campaign : Campaign) :
    (WrapUpService.releaseFinishedWrapUps cfg campaign).Performs
      fun o => ∀ c ∈ o.campaign?, c = campaign.id := by
  have hown : ∀ c ∈ some campaign.id, c = campaign.id := fun c hc => (Option.some.inj hc).symm
  have hloop : ∀ agents : List Agent, (WrapUpService.releaseLoop agents).Performs
      fun o => ∀ c ∈ o.campaign?, c = campaign.id := by
    intro agents
    induction agents with
    | nil => trivial
    | cons agent agents ih =>
      unfold WrapUpService.releaseLoop transitionAgent
      refine .bind (.bind ?_ fun _ => Prog.performs_perform.mpr nofun) fun _ => ih
      unfold validateTransition
      split <;> trivial
  unfold WrapUpService.releaseFinishedWrapUps WrapUpService.findFinishedWrapUps
  exact .bind (.bind (Prog.performs_perform.mpr nofun) fun _ => Prog.performs_perform.mpr hown)
    fun _ => hloop _

omit [FloatArith F] in
theorem ofTick_dialer {α : Type} {x : Py α} {campaignId : DocId}
    (hx : x.Performs fun o => ∀ c ∈ o.campaign?, c = campaignId) :
    (dialer F x).Performs (OfTick campaignId) :=
  hx.lift fun _ ho => ho

/-- A snapshot is taken of one campaign. -/
theorem ofTick_querySnapshot (settings : SafetySettings F) (workerId : WorkerId)
    (campaign : PacedCampaign F) :
    (MetricsSnapshotBuilder.querySnapshot settings workerId campaign).Performs
      (OfTick campaign.id) := by
  have hown : ∀ c ∈ some campaign.id, c = campaign.id := fun c hc => (Option.some.inj hc).symm
  have hraising : ∀ x : Except String Time, (raising (F := F) x).Performs
      (OfTick campaign.id) := by
    intro x
    cases x <;> trivial
  have hcall : ∀ {o : Op}, (∀ c ∈ o.campaign?, c = campaign.id) →
      (dialer F (call o)).Performs (OfTick campaign.id) :=
    fun ho => ofTick_dialer (Prog.performs_perform.mpr ho)
  have hask : ∀ {o : PlatformOp F}, OfTick campaign.id (.inr o) →
      (ask o).Performs (OfTick campaign.id) := fun ho => Prog.performs_perform.mpr ho
  unfold MetricsSnapshotBuilder.querySnapshot
  refine .bind (hcall nofun) fun _ => .bind (hcall hown) fun _ => .bind (hcall hown) fun _ =>
    .bind (hask hown) fun _ => .bind (hask hown) fun _ => .bind (hraising _) fun _ =>
    .bind (hcall hown) fun _ => .bind (hcall hown) fun _ => .bind ?_ fun _ =>
    .bind (hask hown) fun _ => .bind (hcall nofun) fun _ => .bind (hask nofun) fun _ =>
    Prog.performs_ret _
  unfold MetricsSnapshotBuilder.queryLongConnected
  split
  · exact .bind (hraising _) fun _ => hask hown
  · trivial

theorem ofTick_tickAndWrapUp (workerId : WorkerId) (campaign : PacedCampaign F) :
    (DialerWorker.tickAndWrapUp pc workerId campaign).Performs (OfTick campaign.id) := by
  have hown : ∀ c ∈ some campaign.id, c = campaign.id := fun c hc => (Option.some.inj hc).symm
  unfold DialerWorker.tickAndWrapUp DialerBase.tickCampaign
  refine .bind (.bind (ofTick_querySnapshot _ _ _) fun snapshot => .bind ?_ fun _ =>
    .bind (Prog.performs_perform.mpr nofun) fun _ => ofTick_dialer (names_tick _ _ _ _ _)) fun _ =>
    ofTick_dialer (names_releaseFinishedWrapUps pc.cfg campaign.toCampaign)
  unfold DialerBase.recordRequest
  split
  · trivial
  · exact .bind (Prog.performs_perform.mpr hown) fun _ => Prog.performs_ret _

/-! ## What a worker leaves behind

`Through` says of each level that it has added a word of its grammar to the history, or that the
worker was brought down by what is no `Exception`. The third way out, a clock that refuses to
answer, is carried along and ruled out at the end. -/

/-- The thread has asked for the time and been refused, which no clock does. -/
def Timeless (h : PlatformHistory F) : Prop :=
  ∃ e, ⟨.inl .utcNow, .error e⟩ ∈ h

omit [FloatArith F] in
theorem Timeless.append {h : PlatformHistory F} (ht : Timeless h) (h' : PlatformHistory F) :
    Timeless (h ++ h') :=
  ht.imp fun _ he => List.mem_append_left _ he

/-- What fails in a tick ends it, after the agents have been looked at. -/
theorem remembering_tickAndWrapUp (workerId : WorkerId) (campaign : PacedCampaign F) :
    (remembering pc).Follows h (DialerWorker.tickAndWrapUp pc workerId campaign)
      fun h' _ => Timeless h' ∨ ∃ tick, h' = h ++ tick ∧ Ticked campaign.id tick := by
  have hperforms : (DialerWorker.tickAndWrapUp pc workerId campaign).Performs
      (OfTick campaign.id) := ofTick_tickAndWrapUp workerId campaign
  refine ⟨trivial, fun now => ?_⟩
  cases now with
  | error e => exact Or.inl ⟨e, List.mem_append_right _ (List.mem_singleton_self _)⟩
  | ok now =>
    -- from the count of agents on, whatever happens is part of the tick
    refine ⟨trivial, fun counts => ?_⟩
    refine (Follows.adds ((hperforms.2 (.ok now)).2 counts)
      (follows_freely (fun _ _ => trivial) _ _)).mono fun h' r hadded => Or.inr ?_
    obtain ⟨⟨added, rfl, honly⟩, -⟩ := hadded
    refine ⟨⟨.inl .utcNow, .ok now⟩ :: ⟨.inl (.countAgentsByState campaign.id), counts⟩ :: added,
      (List.append_assoc _ _ _).trans (List.append_assoc _ _ _), fun x hx => ?_, counts,
      List.mem_cons_of_mem _ List.mem_cons_self⟩
    rcases List.mem_cons.mp hx with rfl | hx
    · exact hperforms.1
    · rcases List.mem_cons.mp hx with rfl | hx
      · exact (hperforms.2 (.ok now)).1
      · exact honly x hx

/-- What a guarded computation leaves behind, and what it raises is no `Exception`. -/
theorem remembering_guarded {α : Type} {x : PlatformPy F α} {handled : α}
    {Q : PlatformHistory F → Prop} (hx : (remembering pc).Follows h x fun h' _ => Q h') :
    (remembering pc).Follows h (exceptException x handled) fun h' r =>
      Q h' ∧ ∀ e, r = .error e → e.isException = false := by
  unfold exceptException
  rw [follows_catching]
  refine hx.mono fun h' r hQ => ?_
  cases r with
  | ok a => exact ⟨hQ, nofun⟩
  | error e =>
    dsimp only
    split
    · exact ⟨hQ, nofun⟩
    · rename_i hnot
      refine ⟨hQ, fun e' he' => ?_⟩
      cases he'
      exact Bool.eq_false_iff.mpr hnot

/-- So much has been gone through, or the worker has been cancelled. -/
def Through (h h' : PlatformHistory F) (P : PlatformHistory F → Prop) (r : Except Exn Unit) : Prop :=
  Timeless h' ∨ match r with
    | .ok _ => ∃ added, h' = h ++ added ∧ P added
    | .error e => e.isException = false

omit [FloatArith F] in
theorem Through.after {h h' before : PlatformHistory F} {P P' : PlatformHistory F → Prop}
    {r : Except Exn Unit} (hP : ∀ added, P added → P' (before ++ added))
    (hthrough : Through (h ++ before) h' P r) : Through h h' P' r := by
  refine hthrough.imp_right fun hdone => ?_
  cases r with
  | error e => exact hdone
  | ok _ =>
    obtain ⟨added, rfl, hadded⟩ := hdone
    exact ⟨before ++ added, List.append_assoc h before added, hP added hadded⟩

theorem remembering_timeless {h' : PlatformHistory F} (ht : Timeless h') (x : PlatformPy F Unit)
    (P : PlatformHistory F → Prop) : (remembering pc).Follows h' x fun h'' r => Through h h'' P r :=
  (Follows.grows (follows_freely (fun _ _ => trivial) _ _)).mono fun h'' r hgrown => by
    obtain ⟨⟨added, rfl⟩, -⟩ := hgrown
    exact Or.inl (ht.append added)

/-- The campaigns of a listing are ticked through. -/
theorem remembering_tickLoop (workerId : WorkerId) (campaigns : List (CampaignDocument F)) :
    (remembering pc).Follows h (DialerWorker.tickLoop pc workerId campaigns)
      fun h' r => Through h h' (TickedThrough (campaigns.map fun campaign => campaign.id)) r := by
  -- on the campaigns: a tick that failed has been caught, and the next one follows
  induction campaigns generalizing h with
  | nil => exact Or.inr ⟨[], (List.append_nil h).symm, .nil⟩
  | cons campaign campaigns ih =>
    unfold DialerWorker.tickLoop DialerWorker.tickCampaign
    rw [Prog.bind_def, follows_bind]
    refine (remembering_guarded (remembering_tickAndWrapUp workerId
      campaign.toPacedCampaign)).mono fun h' r hr => ?_
    obtain ⟨hticked, hraised⟩ := hr
    cases r with
    | error e => exact Or.inr (hraised e rfl)
    | ok _ =>
      rcases hticked with ht | ⟨tick, rfl, htick⟩
      · exact remembering_timeless ht _ _
      · exact ih.mono fun h'' r => Through.after fun _ => .cons htick

/-- A round is a failed listing, or a listing that is ticked through. An exception of the listing
ends the round, and those of the campaigns are caught inside it. -/
theorem remembering_runOnce (workerId : WorkerId) :
    (remembering pc).Follows h (exceptException (DialerWorker.runOnce pc workerId) ())
      fun h' r => Through h h' Round r := by
  unfold exceptException DialerWorker.runOnce ask
  rw [follows_catching, Prog.bind_def, follows_bind, follows_perform]
  refine ⟨trivial, fun listing => ?_⟩
  cases listing with
  -- the listing itself has failed
  | error e =>
    dsimp only
    split
    · exact Or.inr ⟨_, rfl, .failed⟩
    · rename_i hnot
      exact Or.inr (Bool.eq_false_iff.mpr hnot)
  | ok campaigns =>
    -- the campaigns it has answered
    refine (remembering_tickLoop workerId campaigns).mono fun h' r hthrough => ?_
    replace hthrough : Through h h' Round r := Through.after (fun _ => .listed) hthrough
    cases r with
    | ok _ => exact hthrough
    | error e =>
      dsimp only
      rcases hthrough with ht | hcancelled
      · split <;> exact Or.inl ht
      · rw [if_neg (Bool.eq_false_iff.mp hcancelled)]
        exact Or.inr hcancelled

/-- The rounds follow each other. -/
theorem remembering_run (workerId : WorkerId) (rounds : Nat) :
    (remembering pc).Follows h (DialerWorker.run pc workerId rounds)
      fun h' r => Through h h' (Rounds rounds) r := by
  -- on the rounds: what ends one without an `Exception` ends the worker
  induction rounds generalizing h with
  | zero => exact Or.inr ⟨[], (List.append_nil h).symm, .nil⟩
  | succ n ih =>
    unfold DialerWorker.run
    rw [Prog.bind_def, follows_bind]
    refine (remembering_runOnce workerId).mono fun h' r hr => ?_
    cases r with
    | error e => exact hr
    | ok _ =>
      rcases hr with ht | ⟨round, rfl, hround⟩
      · exact remembering_timeless ht _ _
      · exact ih.mono fun h'' r => Through.after fun _ => .cons hround

/-- What is known of a worker that has ended. -/
def PlatformJob.Worked : PlatformJob F → PlatformHistory F → Except Exn (PlatformOutcome F) → Prop
  | .dialerWorker _ rounds, h, .ok _ => Timeless h ∨ Rounds rounds h
  | .dialerWorker _ _, h, .error e => Timeless h ∨ e.isException = false
  | _, _, _ => True

theorem worked_conforms : (remembering pc).Conforms PlatformJob.Worked := by
  intro job
  cases job with
  | dialerWorker workerId rounds =>
    show (remembering pc).Follows [] ((DialerWorker.run pc workerId rounds).bind fun _ =>
      Prog.ret PlatformOutcome.ended) _
    rw [follows_bind]
    refine (remembering_run workerId rounds).mono fun h r hthrough => ?_
    cases r with
    | error e => exact hthrough
    | ok _ =>
      refine hthrough.imp_right fun hdone => ?_
      obtain ⟨added, rfl, hrounds⟩ := hdone
      exact hrounds
  | _ => exact (follows_freely (fun _ _ => trivial) _ _).mono fun _ _ _ => trivial

/-- Clocks answer. -/
theorem not_timeless {R : PlatformRegime F} {σ₀ : PlatformStore F} {w : PlatformWorld F}
    (h : Reachable (platform pc) R (World.fresh σ₀) w) (p : Nat) :
    ¬ Timeless (historyOf p w.trace) := by
  rintro ⟨e, he⟩
  obtain ⟨entry, hentry, -, hhappening⟩ := mem_historyOf.mp he
  obtain ⟨v, -, hresp⟩ := h.answered hentry
  obtain ⟨q, op, env, resp⟩ := entry
  cases hhappening
  have hfailed : (exec env.base .utcNow v.store.base).1 = .error e := hresp.symm
  rcases exec_cases env.base .utcNow v.store.base with heq | ⟨f, -, hraises, -⟩
  · rw [heq] at hfailed
    cases hfailed
  · cases hraises

/-- **A worker goes through with its rounds.** Whatever else goes on and whatever fails, a worker
that has ended has ticked every campaign of every listing it got, in the order of the listing and
each tick within its campaign, and only what is no `Exception` can have brought it down. -/
theorem worker_goes_through {R : PlatformRegime F} {σ₀ : PlatformStore F} {w : PlatformWorld F}
    (h : Reachable (platform pc) R (World.fresh σ₀) w) {p : Nat} {workerId : WorkerId}
    {rounds : Nat}
    {t : Thread (PlatformJob F) (Op ⊕ PlatformOp F) (EitherRes Res (PlatformRes F)) Exn
      (PlatformOutcome F) (PlatformHistory F)}
    (ht : w.threads p = some t) (hjob : t.job = .dialerWorker workerId rounds) :
    (∀ a, t.prog = .ret a → Rounds rounds (historyOf p w.trace))
      ∧ ∀ e, t.prog = .raise e → e.isException = false := by
  have htime := not_timeless h p
  have hfollows :=
    ((h.emitting _).obeys worked_conforms (World.Obeys.fresh _ σ₀)).follows p t ht
  have hstage : t.stage = historyOf p w.trace := (World.lastStage_eq ht).symm.trans (h.history p)
  rw [hjob] at hfollows
  rw [← hstage] at htime ⊢
  constructor
  · intro a ha
    rw [ha] at hfollows
    exact hfollows.resolve_left htime
  · intro e he
    rw [he] at hfollows
    exact hfollows.resolve_left htime

end Ticks

/-! A worker whose first tick fails at its second query, and whose second listing fails. -/

def stumblingActions : List (Action (PlatformJob ℚ) (PlatformEnv ℚ)) :=
  .spawn 0 (.dialerWorker "w" 2) :: List.replicate 3 (.perform 0 demoPlatformEnv)
    ++ List.replicate 2 (.perform 0 { demoPlatformEnv with
        base := { demoPlatformEnv.base with fault := some { exn := .database, applied := false } } })

def stumbling : PlatformWorld ℚ := (World.fresh demoPlatform).acts (platform {}) stumblingActions

theorem stumbling_reachable : Reachable (platform {}) (platformUnder SystemRegime.anything)
    (World.fresh demoPlatform) stumbling := by
  refine Reachable.of_acts _ stumblingActions (fun p job _ _ => trivial) fun e _ σ st => ?_
  show (platformUnder SystemRegime.anything).guard _ _ _ e.op _
  cases e.op with
  | inl o => exact fun _ _ => trivial
  | inr o => trivial

/-- The thread is a worker of two rounds that has ended. -/
def workerEnded
    (t : Thread (PlatformJob ℚ) (Op ⊕ PlatformOp ℚ) (EitherRes Res (PlatformRes ℚ)) Exn
      (PlatformOutcome ℚ) (PlatformHistory ℚ)) : Bool :=
  match t.job, t.prog with
  | .dialerWorker _ 2, .ret .ended => true
  | _, _ => false

theorem workerEnded_iff
    {t : Thread (PlatformJob ℚ) (Op ⊕ PlatformOp ℚ) (EitherRes Res (PlatformRes ℚ)) Exn
      (PlatformOutcome ℚ) (PlatformHistory ℚ)} (h : workerEnded t = true) :
    ∃ workerId, t.job = .dialerWorker workerId 2 ∧ t.prog = .ret .ended := by
  unfold workerEnded at h
  split at h
  · rename_i workerId hjob hprog
    exact ⟨workerId, hjob, hprog⟩
  · cases h

theorem worker_goes_through_stumbling : ∃ t, stumbling.threads 0 = some t ∧ t.prog = .ret .ended
    ∧ (historyOf 0 stumbling.trace).length = 5 ∧ Rounds 2 (historyOf 0 stumbling.trace) := by
  have hended : (stumbling.threads 0).any workerEnded = true := by decide +kernel
  obtain ⟨t, ht, hworker⟩ := (Option.any_eq_true _ _).mp hended
  obtain ⟨workerId, hjob, hprog⟩ := workerEnded_iff hworker
  exact ⟨t, ht, hprog, by decide +kernel,
    (worker_goes_through stumbling_reachable ht hjob).1 .ended hprog⟩

end SmartDialer
