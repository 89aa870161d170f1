import SmartDialer.Providers.MockProvider

/-!
# What a simulated provider reports (`app/providers/mock_base.py`)

Over all the runs of a provider: what `get_call_status` answers, the events that are handed on, and
the counters of `health_snapshot`.
-/

namespace SmartDialer

open HostFloat

/-! ## Runs of a provider

A run starts with an object that knows of no call and takes any sequence of actions, those included
that name calls or tasks there are none of. -/

namespace MockProvider

open CallBoard Relation Concurrent

variable {F : Type} [FloatOps F] {name : String} {behaviour : MockBehaviour F}
  {actions : List (MockAction F)} {id : String}

/-- A provider that has just been built. -/
abbrev built (name : String) (behaviour : MockBehaviour F) : MockProvider F := { name, behaviour }

theorem sound_built {hung : String → Prop} : (built name behaviour).board.Sound hung where
  counted := rfl
  tasks n task hn := by cases List.getElem?_nil.symm.trans hn
  active id n hn := by cases hn
  finished id hfin := absurd rfl hfin
  handed e he := absurd he List.not_mem_nil

theorem sound_run (name : String) (behaviour : MockBehaviour F) (actions : List (MockAction F)) :
    ((built name behaviour).run actions).board.Sound fun id => .hangup id ∈ actions :=
  sound_built.steps (run_steps (built name behaviour) actions)

theorem run_append (p : MockProvider F) (actions more : List (MockAction F)) :
    p.run (actions ++ more) = (p.run actions).run more := List.foldl_append

theorem name_run (p : MockProvider F) (actions : List (MockAction F)) :
    (p.run actions).name = p.name := by
  have hsteps : ∀ {hung : String → Prop} {b b' : CallBoard F}, ReflTransGen (Step hung) b b' →
      b'.name = b.name := by
    intro hung b b' h
    induction h with
    | refl => rfl
    | tail _ hstep ih => cases hstep <;> exact ih
  exact hsteps (p.run_steps actions)

omit [FloatOps F] in
/-- A final status is that of a call that is finished. -/
theorem told_of_status {p : MockProvider F} {status : ProviderCallStatus}
    (hstatus : p.getCallStatus id = status) (hfinal : status = .COMPLETED ∨ status = .FAILED) :
    p.board.Told id status (p.board.handedFor id) := by
  refine ⟨?_, rfl⟩
  show p.finishedCalls id = some status
  unfold getCallStatus at hstatus
  split at hstatus
  · rcases hfinal with rfl | rfl <;> cases hstatus
  · cases hfinished : p.finishedCalls id with
    | none => rw [hfinished] at hstatus; rcases hfinal with rfl | rfl <;> cases hstatus
    | some s => rw [hfinished] at hstatus; exact congrArg some hstatus

theorem status_of_finished {p : MockProvider F} {hung : String → Prop} (h : p.board.Sound hung)
    {status : ProviderCallStatus} (hfinished : p.finishedCalls id = some status) :
    p.getCallStatus id = status := by
  have hactive : p.activeCalls id = none := by
    cases hn : p.activeCalls id with
    | none => rfl
    | some n => cases (h.active id n hn).1.symm.trans hfinished
  unfold getCallStatus
  rw [hactive, hfinished]
  rfl

/-- **What the provider has said last of a call, it stands by**: once the status is `COMPLETED` or
`FAILED` it never changes again, and no more events about the call are handed on. -/
theorem final_status_lasts {status : ProviderCallStatus}
    (hstatus : ((built name behaviour).run actions).getCallStatus id = status)
    (hfinal : status = .COMPLETED ∨ status = .FAILED) (more : List (MockAction F)) :
    let later := (built name behaviour).run (actions ++ more)
    later.getCallStatus id = status
      ∧ later.board.handedFor id = ((built name behaviour).run actions).board.handedFor id := by
  have hmore : ∀ id, MockAction.hangup id ∈ more → MockAction.hangup (F := F) id ∈ actions ++ more :=
    fun _ hin => List.mem_append_right _ hin
  have hsteps : ReflTransGen (Step fun id => .hangup id ∈ actions ++ more)
      ((built name behaviour).run actions).board
      ((built name behaviour).run (actions ++ more)).board := by
    rw [run_append]
    exact ReflTransGen.mono (fun _ _ => Step.mono hmore) _ _ (run_steps _ more)
  have hsound : ((built name behaviour).run actions).board.Sound
      fun id => .hangup id ∈ actions ++ more := by
    have hearlier : ∀ id, MockAction.hangup id ∈ actions →
        MockAction.hangup (F := F) id ∈ actions ++ more := fun _ hin => List.mem_append_left _ hin
    exact sound_built.steps (ReflTransGen.mono (fun _ _ => Step.mono hearlier) _ _
      (run_steps (built name behaviour) actions))
  -- the continuation starts from the sound state that the first run has reached
  have htold := (told_of_status hstatus hfinal).steps hsound hsteps
  exact ⟨status_of_finished (sound_run name behaviour (actions ++ more)) htold.finished,
    htold.handed⟩

/-- **Events are told apart by their ids** over all the calls of a provider, and none is handed on
more than twice. -/
theorem handed_apart (name : String) (behaviour : MockBehaviour F)
    (actions : List (MockAction F)) :
    Set.InjOn ProviderEvent.key {e | e ∈ ((built name behaviour).run actions).handed}
      ∧ ∀ e, ((built name behaviour).run actions).handed.count e ≤ 2 := by
  have hsound := sound_run name behaviour actions
  refine ⟨fun e he e' he' hkey => ?_, fun e => ?_⟩
  · obtain ⟨n, task, hn, hin⟩ := hsound.handed e he
    obtain ⟨n', task', hn', hin'⟩ := hsound.handed e' he'
    obtain ⟨behaviour₁, draws, hscript⟩ := (hsound.tasks n task hn).rearranged
    -- the id names the call, so both are of one task
    have hsame : n = n' := by
      obtain ⟨behaviour₂, draws', hscript'⟩ := (hsound.tasks n' task' hn').rearranged
      obtain ⟨index, step, -, rfl⟩ := mem_planned.mp (hscript.mem.mp hin)
      obtain ⟨index', step', -, rfl⟩ := mem_planned.mp (hscript'.mem.mp hin')
      have hids := congrArg Prod.snd hkey
      rw [(hsound.tasks n task hn).id, (hsound.tasks n' task' hn').id] at hids
      exact Nat.succ.inj (eventId_injective hids).1
    subst hsame
    cases hn.symm.trans hn'
    exact planned_eq (hscript.mem.mp hin) (hscript.mem.mp hin') hkey
  · by_cases he : e ∈ ((built name behaviour).run actions).handed
    · obtain ⟨n, task, hn, hin⟩ := hsound.handed e he
      have htask := hsound.tasks n task hn
      obtain ⟨behaviour', draws, hscript⟩ := htask.rearranged
      have hown : ((built name behaviour).run actions).handed.count e
          = (((built name behaviour).run actions).board.handedFor task.providerCallId).count e := by
        let isFor (e : ProviderEvent) : Bool := e.providerCallId = task.providerCallId
        have hfor : isFor e = true := decide_eq_true (htask.about hin).2
        exact (List.count_filter hfor).symm
      rw [hown]
      exact (htask.handed.sublist.count_le e).trans (hscript.count_le planned_nodup e)
    · rw [List.count_eq_zero.mpr he]
      exact Nat.zero_le 2

/-- A call that is answered and talked through. -/
def demoMockActions : List (MockAction ℚ) :=
  [.originate "+1" 5 0 1 (1 / 10), .wake 0 1 demoDraws] ++ List.replicate 11 (.resume 0)

/-- A hangup that comes too late, and another call. -/
def laterMockActions : List (MockAction ℚ) :=
  [.hangup "mock_a-call-1", .originate "+2" 5 0 1 (1 / 10), .wake 1 1 demoDraws, .resume 0, .resume 1]

theorem final_status_lasts_answered :
    ((built "mock_a" demoBehaviour).run (demoMockActions ++ laterMockActions)).getCallStatus
        "mock_a-call-1" = .COMPLETED
      ∧ ((built "mock_a" demoBehaviour).run (demoMockActions ++ laterMockActions)).board.handedFor
          "mock_a-call-1"
        = ((built "mock_a" demoBehaviour).run demoMockActions).board.handedFor "mock_a-call-1" :=
  final_status_lasts (by decide +kernel) (Or.inl rfl) laterMockActions

/-- **What the provider says of a call is what its events make of it**: if it was never hung up, the
events that have been handed on leave the call, however they were put out of order or repeated, in
the state that recovery takes the final status for. -/
theorem final_status_agrees {status : ProviderCallStatus} {cfg : Config} {envs : Nat → Env}
    {σ : Store} {d : Call} {g : Agent} (hkept : .hangup id ∉ actions)
    (hstatus : ((built name behaviour).run actions).getCallStatus id = status)
    (hfinal : status = .COMPLETED ∨ status = .FAILED) (hdial : Dialling σ d g)
    (hname : d.providerName = name) (hattached : d.providerCallId = some id)
    (henvs : ∀ n, (envs n).fault = none)
    (hfresh : ∀ e ∈ ((built name behaviour).run actions).board.handedFor id,
      ¬ Recorded σ.events e) :
    let events := ((built name behaviour).run actions).board.handedFor id
    ∃ d' g', (processAll cfg envs events 0 σ).calls.get? d.id = some d'
      ∧ (processAll cfg envs events 0 σ).agents.get? d.agentId = some g'
      ∧ d'.state = announced status
      ∧ CallSm.agentStateForCallState d'.state = some g'.state
      ∧ g'.toLeaseFields = clearedLeaseFields := by
  have hsound := sound_run name behaviour actions
  have htold := told_of_status hstatus hfinal
  obtain ⟨n, task, hn, rfl⟩ := hsound.finished id (htold.finished ▸ nofun)
  have htask := hsound.tasks n task hn
  obtain ⟨behaviour', draws, hscript⟩ := htask.script
  have hprovider : ((built name behaviour).run actions).board.name = name :=
    name_run (built name behaviour) actions
  rw [hprovider] at hscript
  -- it was not hung up, so it is over because its whole script has been handed on
  obtain ⟨hstatus', hall⟩ := (htask.told status htold.finished).resolve_left hkept
  have hfinalStatus : (steps behaviour' draws).2 = status := by
    have hsnd := congrArg Prod.snd hscript
    exact hsnd.trans hstatus'.symm
  have hevents : events (buildEventScript name behaviour' task.providerCallId draws).1
      = ((built name behaviour).run actions).board.handedFor task.providerCallId := by
    rw [hscript]
    exact hall.symm
  rw [← hevents] at hfresh ⊢
  have habout : ∀ e ∈ events (buildEventScript name behaviour' task.providerCallId draws).1,
      e.About d := by
    intro e he
    obtain ⟨index, step, -, rfl⟩ := mem_planned.mp (events_rearranged.mem.mp he)
    exact ⟨hname, hattached⟩
  obtain ⟨d', g', hd', hg', hstate, hagent, hlease⟩ :=
    (script_orderly hfresh).outcome cfg hdial henvs habout
  rw [hfinalStatus] at hstate hagent
  exact ⟨d', g', hd', hg', hstate, hstate.symm ▸ hagent, hlease⟩

/-! The call that `demoMockActions` reports on, as the dialer has just attached it. -/

def reportedCall : Call := { demoCall with providerCallId := some "mock_a-call-1" }

def reportedEnv : Env :=
  { demoEnv with
    originateResult := { accepted := true, latencyMs := 0, providerCallId := some "mock_a-call-1" } }

def reportedStore : Store :=
  ((World.fresh demoStore).acts (system {}) (.spawn 0 (.allocate demoCampaign 1 "w") ::
    List.replicate 20 (.perform 0 reportedEnv))).store

theorem reported_dialling : ∃ g, Dialling reportedStore reportedCall g := by
  have hagent : (reportedStore.agents.get? demoAgent.id).map (fun g => (g.state, g.reservedBy))
      = some (.DIALING, some "w") := by decide +kernel
  obtain ⟨g, hg, hfields⟩ := Option.map_eq_some_iff.mp hagent
  obtain ⟨hstate, hworker⟩ := Prod.mk.inj hfields
  exact ⟨g, by decide +kernel, ⟨rfl, rfl, fun _ => le_rfl, fun _ => rfl, by decide⟩, rfl, nofun, hg,
    hstate, hworker⟩

theorem final_status_agrees_answered :
    let events := ((built "mock_a" demoBehaviour).run demoMockActions).board.handedFor "mock_a-call-1"
    ∃ d' g', (processAll {} (fun _ => {}) events 0 reportedStore).calls.get? demoCall.id = some d'
      ∧ (processAll {} (fun _ => {}) events 0 reportedStore).agents.get? demoCall.agentId = some g'
      ∧ d'.state = .COMPLETED ∧ g'.state = .WRAP_UP := by
  obtain ⟨g, hdial⟩ := reported_dialling
  have hfresh : ∀ e ∈ ((built "mock_a" demoBehaviour).run demoMockActions).board.handedFor
      "mock_a-call-1", ¬ Recorded reportedStore.events e := by
    have hall : (((built "mock_a" demoBehaviour).run demoMockActions).board.handedFor
        "mock_a-call-1").all (fun e => decide (reportedStore.events.get? e.key = none)) = true := by
      decide +kernel
    exact fun e he hrec => hrec (of_decide_eq_true (List.all_eq_true.mp hall e he))
  have hkept : MockAction.hangup "mock_a-call-1" ∉ demoMockActions := by
    simp [demoMockActions]
  have henvs : ∀ n, ((fun _ => {} : Nat → Env) n).fault = none := fun _ => rfl
  obtain ⟨d', g', hd', hg', hstate, hagent, -⟩ :=
    final_status_agrees hkept (by decide +kernel) (Or.inl rfl) hdial rfl rfl henvs hfresh
  have hcompleted : d'.state = .COMPLETED := hstate.trans (by decide)
  rw [hcompleted] at hagent
  exact ⟨d', g', hd', hg', hcompleted, (Option.some.inj hagent).symm⟩

end MockProvider

/-! ## What becomes of the attempts

An attempt is counted when it starts, and once more when it is answered, times out or is rejected; a
cancelled one is counted only when it starts. -/

/-- The id that an `originate_call` has answered with. -/
def OriginatePhase.callId : OriginatePhase → Option String
  | .accepted id => some id
  | _ => none

/-- It has not ended. -/
def OriginatePhase.underWay : OriginatePhase → Bool
  | .hanging | .settingUp => true
  | _ => false

theorem OriginatePhase.length_eq (phases : List OriginatePhase) :
    phases.length = (phases.filterMap callId).length + phases.count .rejected
      + phases.count .timedOut + phases.count .cancelled + phases.countP underWay := by
  induction phases with
  | nil => rfl
  | cons phase phases ih =>
    cases phase <;> simp [List.filterMap_cons, List.countP_cons, ih, callId, underWay] <;> omega

/-- An attempt ends: what it adds to each count. The counts of the final phases gain the new phase,
as an attempt under way is in none of them. -/
theorem OriginatePhase.settled {phases : List OriginatePhase} {n : Nat} {phase : OriginatePhase}
    (h : phases[n]? = some phase) (hunder : phase.underWay = true) (phase' : OriginatePhase) :
    (phases.set n phase').count .rejected = phases.count .rejected + [phase'].count .rejected
      ∧ (phases.set n phase').count .timedOut = phases.count .timedOut + [phase'].count .timedOut
      ∧ ((phases.set n phase').filterMap callId).Perm
        (phases.filterMap callId ++ [phase'].filterMap callId) := by
  obtain ⟨hn, rfl⟩ := List.getElem?_eq_some_iff.mp h
  have hset : phases.set n phase' = phases.take n ++ phase' :: phases.drop (n + 1) := by
    rw [List.set_eq_take_append_cons_drop, if_pos hn]
  have hwas : phases.take n ++ phases[n] :: phases.drop (n + 1) = phases := by
    rw [List.getElem_cons_drop, List.take_append_drop]
  -- the list is taken apart at the attempt, where the old phase counts for nothing
  have hcounts : ∀ settled : OriginatePhase, settled.underWay = false →
      (phases.set n phase').count settled = phases.count settled + [phase'].count settled := by
    intro settled hsettled
    have hne : phases[n] ≠ settled := fun heq => by rw [heq, hsettled] at hunder; cases hunder
    rw [hset]
    conv_rhs => rw [← hwas]
    rw [List.count_append, List.count_cons, List.count_append, List.count_cons_of_ne hne,
      List.count_singleton]
    omega
  refine ⟨hcounts _ rfl, hcounts _ rfl, ?_⟩
  -- an attempt under way has not answered with an id
  have hnone : callId phases[n] = none := by
    cases hphase : phases[n] <;> first | rfl | (rw [hphase] at hunder; cases hunder)
  rw [hset]
  conv_rhs => rw [← hwas]
  rw [List.filterMap_append, List.filterMap_append, List.filterMap_cons_none hnone]
  have hcons : (phase' :: phases.drop (n + 1)).filterMap callId
      = [phase'].filterMap callId ++ (phases.drop (n + 1)).filterMap callId := by
    rw [← List.filterMap_append]
    rfl
  rw [hcons, List.append_assoc]
  exact List.perm_append_comm.append_left _

namespace MockProvider

variable {F : Type} {p q : MockProvider F}

/-- The counters tell how the attempts have ended. -/
structure Accounted (p : MockProvider F) : Prop where
  attempts : p.originateAttempts = p.originates.length
  rejected : p.originateRejected = p.originates.count .rejected
  timedOut : p.originateTimedOut = p.originates.count .timedOut
  accepted : p.originateAccepted = p.callCounter
  answered : (p.originates.filterMap OriginatePhase.callId).Perm
    ((List.range p.callCounter).map fun n => providerCallId p.name (n + 1))

/-- What `Accounted` is about. -/
def accounts (p : MockProvider F) : String × Nat × Nat × Nat × Nat × Nat × List OriginatePhase :=
  (p.name, p.callCounter, p.originateAttempts, p.originateAccepted, p.originateRejected,
    p.originateTimedOut, p.originates)

theorem Accounted.congr (h : p.Accounted) (heq : q.accounts = p.accounts) : q.Accounted := by
  unfold accounts at heq
  simp only [Prod.mk.injEq] at heq
  obtain ⟨hname, hcounter, hattempts, haccepted, hrejected, htimedOut, horiginates⟩ := heq
  constructor
  · rw [hattempts, horiginates]; exact h.attempts
  · rw [hrejected, horiginates]; exact h.rejected
  · rw [htimedOut, horiginates]; exact h.timedOut
  · rw [haccepted, hcounter]; exact h.accepted
  · rw [horiginates, hcounter, hname]; exact h.answered

variable [FloatOps F]

theorem Accounted.accept (h : p.Accounted) {n : Nat} (hphase : p.originates[n]? = some .settingUp)
    (draws : ScriptDraws F) : (p.accept n draws).Accounted := by
  obtain ⟨hrejected, htimedOut, hanswered⟩ :=
    OriginatePhase.settled hphase rfl (.accepted (providerCallId p.name (p.callCounter + 1)))
  constructor
  · exact h.attempts.trans List.length_set.symm
  · exact h.rejected.trans hrejected.symm
  · exact h.timedOut.trans htimedOut.symm
  · exact congrArg Nat.succ h.accepted
  · refine hanswered.trans ((h.answered.append_right _).trans ?_)
    show (_ ++ [providerCallId p.name (p.callCounter + 1)]).Perm
      ((List.range (p.callCounter + 1)).map fun n => providerCallId p.name (n + 1))
    rw [List.range_succ, List.map_append]
    exact .refl _

theorem Accounted.wake (h : p.Accounted) (n : Nat) (failure : F) (draws : ScriptDraws F) :
    (p.wake n failure draws).Accounted := by
  unfold MockProvider.wake
  split
  · rename_i hphase
    -- the hang is over: a timeout
    obtain ⟨hrejected, htimedOut, hanswered⟩ := OriginatePhase.settled hphase rfl .timedOut
    constructor
    · exact h.attempts.trans List.length_set.symm
    · exact h.rejected.trans hrejected.symm
    · exact (congrArg Nat.succ h.timedOut).trans htimedOut.symm
    · exact h.accepted
    · exact hanswered.trans ((List.append_nil _).symm ▸ h.answered)
  · rename_i hphase
    split
    -- the set-up is over, and the draw is below the failure rate
    · obtain ⟨hrejected, htimedOut, hanswered⟩ := OriginatePhase.settled hphase rfl .rejected
      constructor
      · exact h.attempts.trans List.length_set.symm
      · exact (congrArg Nat.succ h.rejected).trans hrejected.symm
      · exact h.timedOut.trans htimedOut.symm
      · exact h.accepted
      · exact hanswered.trans ((List.append_nil _).symm ▸ h.answered)
    · exact h.accept hphase draws
  · exact h

omit [FloatOps F] in
theorem Accounted.cancel (h : p.Accounted) (n : Nat) : (p.cancel n).Accounted := by
  have hcancelled : ∀ phase : OriginatePhase, p.originates[n]? = some phase →
      phase.underWay = true →
      Accounted { p with originates := p.originates.set n .cancelled } := by
    intro phase hphase hunder
    obtain ⟨hrejected, htimedOut, hanswered⟩ := OriginatePhase.settled hphase hunder .cancelled
    constructor
    · exact h.attempts.trans List.length_set.symm
    · exact h.rejected.trans hrejected.symm
    · exact h.timedOut.trans htimedOut.symm
    · exact h.accepted
    · exact hanswered.trans ((List.append_nil _).symm ▸ h.answered)
  unfold MockProvider.cancel
  split
  · rename_i hphase
    exact hcancelled _ hphase rfl
  · rename_i hphase
    exact hcancelled _ hphase rfl
  · exact h

theorem Accounted.originate (h : p.Accounted) (phoneNumber : String)
    (timeoutSeconds now hang latency : F) :
    (p.originate phoneNumber timeoutSeconds now hang latency).Accounted := by
  unfold MockProvider.originate
  split
  · exact h
  · generalize hphase : (if p.isInOutage now || FloatOps.lt hang p.behaviour.hangRate then
      OriginatePhase.hanging
      else if FloatOps.le timeoutSeconds latency then .hanging else .settingUp) = phase
    -- whatever the draws are, the new attempt is under way
    have hunder : phase = .hanging ∨ phase = .settingUp := by
      rw [← hphase]
      split
      · exact Or.inl rfl
      · split
        · exact Or.inl rfl
        · exact Or.inr rfl
    obtain ⟨hattempts, hrejected, htimedOut, haccepted, hanswered⟩ := h
    constructor
    · show p.originateAttempts + 1 = (p.originates ++ [phase]).length
      rw [List.length_append, hattempts]
      rfl
    · show p.originateRejected = (p.originates ++ [phase]).count .rejected
      rw [List.count_append, hrejected]
      rcases hunder with rfl | rfl <;> rfl
    · show p.originateTimedOut = (p.originates ++ [phase]).count .timedOut
      rw [List.count_append, htimedOut]
      rcases hunder with rfl | rfl <;> rfl
    · exact haccepted
    · show ((p.originates ++ [phase]).filterMap OriginatePhase.callId).Perm _
      rw [List.filterMap_append]
      rcases hunder with rfl | rfl <;> exact (List.append_nil _).symm ▸ hanswered

omit [FloatOps F] in
theorem accounts_cancelAll (pending : List Nat) (p : MockProvider F) :
    (pending.foldl cancelTask p).accounts = p.accounts := by
  induction pending generalizing p with
  | nil => rfl
  | cons n pending ih => exact ih (p.cancelTask n)

/-- **What an action does to the books.** Only an `originate_call` writes to the books, in three
places: where it starts, where it wakes up and where it is cancelled. -/
theorem Accounted.act (h : p.Accounted) (a : MockAction F) : (p.act a).Accounted := by
  cases a with
  | originate phoneNumber timeoutSeconds now hang latency =>
    exact h.originate phoneNumber timeoutSeconds now hang latency
  | wake n failure draws => exact h.wake n failure draws
  | cancel n => exact h.cancel n
  -- from here on an action changes calls and tasks, which are not on the books
  | hangup id =>
    refine h.congr ?_
    show (p.hangup id).accounts = p.accounts
    unfold hangup
    split <;> rfl
  | resume n =>
    refine h.congr ?_
    show (p.resume n).accounts = p.accounts
    have hdeliver : ∀ task scheduled, (p.deliver n task scheduled).accounts = p.accounts := by
      intro task scheduled
      unfold deliver
      split
      · rfl
      · split <;> rfl
    unfold resume
    split
    · rfl
    · split
      · split <;> rfl
      · split <;> first | rfl | exact hdeliver _ _
  | raise n =>
    refine h.congr ?_
    show (p.raise n).accounts = p.accounts
    unfold raise
    split
    · rfl
    · split <;> rfl
  | shutdown =>
    refine h.congr ?_
    show p.shutdown.accounts = p.accounts
    unfold shutdown
    split
    · rfl
    · exact accounts_cancelAll p.pendingTasks p
  | gathered n =>
    refine h.congr ?_
    show (p.gathered n).accounts = p.accounts
    unfold gathered
    split
    · rfl
    · split <;> rfl
  | configure | setOutage => exact h.congr rfl

theorem accounted_run (name : String) (behaviour : MockBehaviour F)
    (actions : List (MockAction F)) : ((built name behaviour).run actions).Accounted := by
  induction actions using List.reverseRecOn with
  | nil => exact ⟨rfl, rfl, rfl, rfl, .refl _⟩
  | append_singleton actions a ih =>
    rw [run_append]
    exact ih.act a

/-- **Every attempt is accounted for**: the counters of a snapshot and what is under way or cancelled
make up the attempts, and the calls that have been accepted are the first so many of their kind, each
with an id of its own and one delivery task. -/
theorem originates_accounted (name : String) (behaviour : MockBehaviour F)
    (actions : List (MockAction F)) (now : F) :
    let p := (built name behaviour).run actions
    let snapshot := p.healthSnapshot now
    let ids := (List.range snapshot.originateAccepted).map fun n => providerCallId name (n + 1)
    snapshot.originateAttempts = snapshot.originateAccepted + snapshot.originateRejected
        + snapshot.originateTimedOut + p.originates.count .cancelled
        + p.originates.countP OriginatePhase.underWay
      ∧ (p.originates.filterMap OriginatePhase.callId).Perm ids ∧ ids.Nodup
      ∧ p.tasks.map DeliveryTask.providerCallId = ids := by
  have h := accounted_run name behaviour actions
  have hsound := sound_run name behaviour actions
  have hname := name_run (built name behaviour) actions
  have hanswered := h.answered
  rw [hname, ← h.accepted] at hanswered
  refine ⟨?_, hanswered, ?_, ?_⟩
  · show MockProvider.originateAttempts _ = _
    rw [h.attempts, OriginatePhase.length_eq, hanswered.length_eq, List.length_map,
      List.length_range, ← h.rejected, ← h.timedOut]
    rfl
  · exact List.Nodup.map (fun _ _ heq => Nat.succ.inj (providerCallId_injective heq))
      List.nodup_range
  -- the n-th task is of the call with number n + 1
  · have hlength : ((built name behaviour).run actions).tasks.length
        = ((built name behaviour).run actions).originateAccepted :=
      hsound.counted.symm.trans h.accepted.symm
    refine List.ext_getElem ?_ fun n hn _ => ?_
    · rw [List.length_map, hlength, List.length_map, List.length_range]
      rfl
    · rw [List.length_map] at hn
      rw [List.getElem_map, List.getElem_map, List.getElem_range]
      refine (hsound.tasks n _ (List.getElem?_eq_getElem hn)).id.trans ?_
      show providerCallId ((built name behaviour).run actions).name (n + 1) = _
      rw [hname]

end MockProvider

end SmartDialer
