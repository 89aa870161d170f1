import SmartDialer.Calls.Evolution

/-!
# One event at a time

What an execution of the event processor that runs alone and meets no failure makes of the store:
the event is recorded, its call takes the transition if that raises the rank, and a call that has
been ended gives its borrower back.

The lemmas are weakest preconditions: if the operations succeed, the program ends with this answer
and in such a store. One for each function of the processor, from `_finish` up to `process_event`,
each using those below it.

* `AgentFollows`, `LetsGo`: the agent's and the borrower's share of an event.
* `Applied`, `answer`: what an event makes of its call and of both, and what is answered.
* `wp_processEvent`, `wp_processEvent_of_unknown`, `wp_processEvent_of_recorded`: the three kinds of
  deliveries.
* `processAll`: several events, one after another.
-/

namespace SmartDialer

open DocStore Concurrent Prog

/-- No operation fails. -/
def Faultless (_ : Op) (env : Env) : Prop := env.fault = none

theorem exec_of_faultless {o : Op} {env : Env} (h : Faultless o env) (σ : Store) :
    exec env o σ = apply env o σ := by
  have hstrikes : env.strikes o = none := by
    unfold Env.strikes
    rw [show env.fault = none from h]
    rfl
  unfold exec
  rw [hstrikes]

/-- The rule of an operation that goes through. -/
theorem wp_call {o : Op} {Q : Except Exn (Res o) → Store → Prop} {σ : Store}
    (h : ∀ env : Env, Q (apply env o σ).1 (apply env o σ).2) :
    (call o).wp exec Faultless Q σ := by
  refine (wp_perform o Q σ).mpr fun env henv => ?_
  rw [exec_of_faultless henv]
  exact h env

theorem wp_call_bind {α : Type} {o : Op} {f : Res o → Py α} {Q : Except Exn α → Store → Prop}
    {σ : Store} (h : ∀ env : Env, ∃ a, (apply env o σ).1 = .ok a
      ∧ (f a).wp exec Faultless Q (apply env o σ).2) :
    (call o >>= f).wp exec Faultless Q σ := by
  refine (wp_bind (call o) f Q σ).mpr (wp_call fun env => ?_)
  obtain ⟨a, ha, hf⟩ := h env
  rw [ha]
  exact hf

/-! ## The event ledger

`record_event` inserts a document; the unique index on provider and event id makes a second
insertion fail, which is the answer `DUPLICATE`. -/

theorem recordEvent_of_recorded {event : ProviderEvent} {events : ProviderEvents} (now : Time)
    (h : Recorded events event) : EventRepo.recordEvent event now events = (.DUPLICATE, events) := by
  obtain ⟨e, he⟩ := Option.ne_none_iff_exists'.mp h
  have hnone : events.insertOne (EventRepo.eventDocument event now) = none :=
    Collection.insertOne_eq_none.mpr ⟨e, Collection.mem_of_get? he, Collection.key_of_get? he⟩
  unfold EventRepo.recordEvent
  rw [hnone]

/-- A fresh one is recorded, and with it all that have its key. -/
theorem recordEvent_of_fresh {event : ProviderEvent} {events : ProviderEvents} (now : Time)
    (h : ¬ Recorded events event) : (EventRepo.recordEvent event now events).1 = .RECORDED
      ∧ ∀ e, Recorded (EventRepo.recordEvent event now events).2 e ↔ Recorded events e
        ∨ e.key = event.key := by
  cases hins : events.insertOne (EventRepo.eventDocument event now) with
  | none =>
    obtain ⟨d, hd, hkey⟩ := Collection.insertOne_eq_none.mp hins
    refine absurd (fun hnone => ?_) h
    have hget := Collection.get?_of_mem hd
    rw [hkey] at hget
    cases hget.symm.trans hnone
  | some events' =>
    unfold EventRepo.recordEvent
    rw [hins]
    refine ⟨rfl, fun e => ?_⟩
    unfold Recorded
    rw [Collection.get?_of_insertOne hins]
    by_cases hkey : e.key = event.key
    · have hsame : event.key = DocStore.key (EventRepo.eventDocument event now) := rfl
      simp [hkey, hsame]
    · have hother : e.key ≠ DocStore.key (EventRepo.eventDocument event now) := hkey
      simp only [hother, hkey, if_false, or_false]

theorem recorded_markProcessed {n i : String} {status : EventProcessingStatus}
    {applied : Option String} {events : ProviderEvents} (e : ProviderEvent) :
    Recorded (EventRepo.markProcessed n i status applied events) e ↔ Recorded events e := by
  unfold Recorded EventRepo.markProcessed
  rw [Collection.get?_findOneAndUpdate]
  split
  · next hkey => rw [hkey, ne_eq, ne_eq, Option.map_eq_none_iff]
  · exact Iff.rfl

/-! ## The call of an event

The processor finds the call by provider and provider call id, of which the index of the collection
allows one. -/

/-- The event is about the call. -/
def ProviderEvent.About (event : ProviderEvent) (d : Call) : Prop :=
  d.providerName = event.providerName ∧ d.providerCallId = some event.providerCallId

theorem ProviderEvent.About.evolves {event : ProviderEvent} {d d' : Call} (h : event.About d)
    (hev : d.Evolves d') : event.About d' := by
  refine ⟨hev.providerName.trans h.1, (hev.providerCallId ?_).trans h.2⟩
  rw [h.2]
  nofun

/-- The query finds the call that the event is about. There is no other, by the unique index on
provider name and provider call id. -/
theorem findByProviderCallId_of_about {event : ProviderEvent} {calls : Calls} {c : DocId} {d : Call}
    (hd : calls.get? c = some d) (hsound : d.Sound) (habout : event.About d) :
    CallRepo.findByProviderCallId event.providerName event.providerCallId calls = some d := by
  unfold CallRepo.findByProviderCallId
  cases hfind : calls.coll.docs.find? fun d => d.providerName = event.providerName
      ∧ d.providerCallId = some event.providerCallId with
  | none =>
    have hnone := List.find?_eq_none.mp hfind d (Collection.mem_of_get? hd)
    rw [decide_eq_true_eq] at hnone
    exact absurd habout hnone
  | some e =>
    -- the provider index leaves no other candidate
    have habout' : e.providerName = event.providerName
        ∧ e.providerCallId = some event.providerCallId := by
      have hsome := List.find?_some hfind
      rwa [decide_eq_true_eq] at hsome
    have hkey : ∀ x : Call, x.providerName = event.providerName
        → x.providerCallId = some event.providerCallId →
        x.providerKey = some (event.providerName, event.providerCallId) := by
      intro x hn hp
      unfold Call.providerKey
      rw [hn, hp]
      rfl
    have he := Collection.get?_of_mem (List.mem_of_find?_eq_some hfind)
    have hid := calls.uniqueProviderKey.eq hd he (hkey d habout.1 habout.2)
      (hkey e habout'.1 habout'.2)
    have hsame : some d = some e := by
      rw [← he, ← hid]
      exact hd.symm
    cases hsame
    rw [Option.map_some, hsound.fromMongo]

/-! ## What the processing of a recorded event makes of the parties

Both shares are stated with the function of the repository that does the work, so that whoever needs
more than the shape can go on from there. -/

namespace EventProcessor

variable {cfg : Config} {event : ProviderEvent} {σ : Store}

/-- The agent's share of an applied event. -/
def AgentFollows (updated : Call) (t : CallState) (agents agents' : Agents) : Prop :=
  match CallSm.agentStateForCallState t, agents.get? updated.agentId with
  | some target, some agent =>
    if agent.state = target then agents' = agents
    else if t ∈ agentReleasingCallStates then
      ∃ now, agents' = (AgentRepo.releaseAgent now agent.id updated.createdByWorker target
        .EVENT_PROCESSOR agents).2
    else if AgentSm.Valid agent.state target .EVENT_PROCESSOR then
      ∃ now, agents' = (AgentRepo.transitionAgent now agent.id agent.state target
        agent.stateVersion agents).2
    else agents' = agents
  | _, _ => agents' = agents

/-- What an agent transition makes of the store. -/
structure AgentMoved (updated : Call) (t : CallState) (σ σ' : Store) : Prop where
  agents : AgentFollows updated t σ.agents σ'.agents
  calls : σ'.calls = σ.calls
  borrowers : σ'.borrowers = σ.borrowers
  events : σ'.events = σ.events

/-- `_apply_agent_transition`: it never raises here, since a refused transition is caught. The agent
is left alone, released by the worker of the call, or moved along an edge of the table; each with
the condition under which it happens. -/
theorem wp_applyAgentTransition {updated : Call} {t : CallState} :
    (applyAgentTransition updated t).wp exec Faultless
      (fun r σ' => r = .ok () ∧ AgentMoved updated t σ σ') σ := by
  unfold applyAgentTransition
  have hsame : AgentFollows updated t σ.agents σ.agents → AgentMoved updated t σ σ := fun h =>
    ⟨h, rfl, rfl, rfl⟩
  unfold AgentFollows at hsame
  cases htarget : CallSm.agentStateForCallState t with
  | none =>
    rw [htarget] at hsame
    exact ⟨rfl, hsame rfl⟩
  | some target =>
    rw [htarget] at hsame
    refine wp_call_bind fun env => ⟨_, rfl, ?_⟩
    cases hagent : σ.agents.get? updated.agentId with
    | none =>
      rw [hagent] at hsame
      exact ⟨rfl, hsame rfl⟩
    | some agent =>
      rw [hagent] at hsame
      have hfollows : ∀ agents' : Agents, AgentFollows updated t σ.agents agents' →
          AgentMoved updated t σ { σ with agents := agents' } := fun _ h => ⟨h, rfl, rfl, rfl⟩
      unfold AgentFollows at hfollows
      rw [htarget, hagent] at hfollows
      show Prog.wp exec Faultless (if agent.state = target then _ else _) _ _
      by_cases hstate : agent.state = target
      · rw [if_pos hstate]
        simp only [hstate, if_true] at hsame
        exact ⟨rfl, hsame trivial⟩
      rw [if_neg hstate]
      simp only [hstate, if_false] at hsame hfollows
      -- a state that ends the call gives the agent back, any other moves him along
      by_cases hterm : t ∈ agentReleasingCallStates
      · rw [if_pos hterm]
        simp only [hterm, if_true] at hfollows
        have hsources : AgentSm.allowedSources target .EVENT_PROCESSOR ≠ [] := by
          revert htarget hterm
          cases t <;> rintro ⟨⟩ <;> decide
        unfold SmartDialer.releaseAgent
        rw [if_neg hsources]
        exact wp_call_bind fun env => ⟨_, rfl, rfl, hfollows _ ⟨env.now, rfl⟩⟩
      rw [if_neg hterm]
      simp only [hterm, if_false] at hsame hfollows
      refine (wp_catching _ _ _ _).mpr ?_
      unfold transitionAgent validateTransition
      -- an edge that is not allowed raises, and the exception is swallowed
      by_cases hvalid : AgentSm.Valid agent.state target .EVENT_PROCESSOR
      · simp only [hvalid, if_true] at hfollows
        rw [if_neg (by simp [hvalid.1]), if_neg (by simp [hvalid.2])]
        refine wp_call_bind fun env => ⟨_, rfl, ?_⟩
        exact ⟨rfl, hfollows _ ⟨env.now, rfl⟩⟩
      · simp only [hvalid, if_false] at hsame
        by_cases hcan : AgentSm.canTransition agent.state target = true
        · have hactor : ¬ AgentSm.isActorAllowed agent.state target .EVENT_PROCESSOR = true :=
            fun hactor => hvalid ⟨hcan, hactor⟩
          rw [if_neg (by simp [hcan]), if_pos (by simp [hactor])]
          exact ⟨rfl, hsame trivial⟩
        · rw [if_pos (by simp [hcan])]
          exact ⟨rfl, hsame trivial⟩

/-- `_finish` marks the record of the event and succeeds. -/
theorem wp_finish {status : EventProcessingStatus} {applied : Option String}
    {Q : Except Exn EventProcessingResult → Store → Prop}
    (h : Q (.ok { status, appliedTransition := applied }) { σ with
      events := EventRepo.markProcessed event.providerName event.providerEventId status applied
        σ.events }) :
    (finish event status applied).wp exec Faultless Q σ := by
  unfold finish
  exact wp_call_bind fun _ => ⟨(), rfl, h⟩

/-- The borrower's share of an event that has ended a call. -/
def LetsGo (cfg : Config) (d : Call) (t : CallState) (borrowers borrowers' : Borrowers) : Prop :=
  ∃ now, borrowers' = (BorrowerRepo.releaseBorrower now d.borrowerId d.createdByWorker
    (RetryService.outcomeForTerminalCall (decide (t = .COMPLETED) && d.answeredAt.isSome))
    cfg.settings.MAX_CALL_ATTEMPTS cfg.settings.RETRY_BACKOFF_BASE_SECONDS borrowers).2

/-- The transition leaves everything alone that the release of the borrower reads. -/
theorem LetsGo.before {d : Call} {t : CallState} {reason : Option String} {now : Time}
    {borrowers borrowers' : Borrowers}
    (h : LetsGo cfg (CallRepo.transitionUpdate t reason now d).fromMongo t borrowers borrowers')
    (hterm : CallSm.isTerminal t = true) : LetsGo cfg d t borrowers borrowers' := by
  obtain ⟨now', hnow'⟩ := h
  refine ⟨now', ?_⟩
  rw [hnow']
  cases t with
  | COMPLETED | FAILED | CANCELLED => rfl
  | _ => cases hterm

theorem AgentFollows.before {d : Call} {t : CallState} {reason : Option String} {now : Time}
    {agents agents' : Agents}
    (h : AgentFollows (CallRepo.transitionUpdate t reason now d).fromMongo t agents agents') :
    AgentFollows d t agents agents' := by
  cases t <;> exact h

/-- What an applied event makes of the store once the call has been moved. -/
structure SettledBy (cfg : Config) (updated : Call) (t : CallState) (σ σ' : Store) : Prop where
  calls : σ'.calls = σ.calls
  agents : AgentFollows updated t σ.agents σ'.agents
  borrowers : if CallSm.isTerminal t then LetsGo cfg updated t σ.borrowers σ'.borrowers
    else σ'.borrowers = σ.borrowers
  recorded : ∀ e, Recorded σ'.events e ↔ Recorded σ.events e

/-- The answer to an event that has moved its call. -/
def applied (d : Call) (t : CallState) : EventProcessingResult where
  status := .PROCESSED
  appliedTransition := some s!"{d.state.value}->{t.value}"

/-- `_apply_event` from the applied transition on: agent, borrower, mark. -/
theorem wp_settleEvent {seen updated : Call} {t : CallState} :
    (settleEvent cfg event seen updated t).wp exec Faultless
      (fun r σ' => r = .ok (applied seen t) ∧ SettledBy cfg updated t σ σ') σ := by
  unfold settleEvent
  refine (wp_bind _ _ _ _).mpr (wp_mono wp_applyAgentTransition ?_)
  rintro _ σ₁ ⟨rfl, hmoved⟩
  have hmem : t ∈ agentReleasingCallStates ↔ CallSm.isTerminal t = true := by
    cases t <;> decide
  refine (wp_bind _ _ _ _).mpr ?_
  by_cases hterm : CallSm.isTerminal t = true
  · rw [if_pos (hmem.mpr hterm)]
    unfold releaseBorrower
    refine wp_call_bind fun env => ⟨_, rfl, ?_⟩
    refine wp_finish ⟨rfl, hmoved.calls, hmoved.agents, ?_, fun e => ?_⟩
    · rw [if_pos hterm, ← hmoved.borrowers]
      exact ⟨env.now, rfl⟩
    · rw [recorded_markProcessed]
      show Recorded σ₁.events e ↔ _
      rw [hmoved.events]
  · rw [if_neg (fun h => hterm (hmem.mp h))]
    refine wp_finish ⟨rfl, hmoved.calls, hmoved.agents, ?_, fun e => ?_⟩
    · rw [if_neg hterm]
      exact hmoved.borrowers
    · rw [recorded_markProcessed, hmoved.events]

/-- What an event makes of call and parties: if it raises the rank of its unfinished call, the
call takes the transition, the agent follows and, when that ends the call, the borrower is given
back; otherwise all three are as they were. -/
structure Applied (cfg : Config) (event : ProviderEvent) (d : Call) (t : CallState)
    (σ σ' : Store) : Prop where
  calls : ∃ now, σ'.calls
    = (CallRepo.transitionCall now d.id t (failureReason event t) σ.calls).2
  agents : if CallRepo.transitionFilter t d then AgentFollows d t σ.agents σ'.agents
    else σ'.agents = σ.agents
  borrowers : if CallRepo.transitionFilter t d ∧ CallSm.isTerminal t then
      LetsGo cfg d t σ.borrowers σ'.borrowers
    else σ'.borrowers = σ.borrowers

/-- What `process_event` answers for an event it has recorded. -/
def answer (d : Call) (t : CallState) : EventProcessingResult :=
  if CallRepo.transitionFilter t d then applied d t
  else { status := ignoredApplicabilityStatus (CallSm.shouldApplyEvent d.state t) }

/-- `_apply_event`: whether the event applies is decided by the call alone, since nobody else acts
between the read and the transition. -/
theorem wp_applyEvent {d : Call} {t : CallState} (hd : σ.calls.get? d.id = some d)
    (hsound : d.Sound) (habout : event.About d) (ht : eventTypeToCallState event.eventType = some t) :
    (applyEvent cfg event).wp exec Faultless (fun r σ' => r = .ok (answer d t)
      ∧ (∀ e, Recorded σ'.events e ↔ Recorded σ.events e) ∧ Applied cfg event d t σ σ') σ := by
  have hrank : CallSm.rank .INITIATED ≤ CallSm.rank d.state := hsound.attached (by simp [habout.2])
  have happly : CallSm.shouldApplyEvent d.state t = .APPLY ↔ CallRepo.transitionFilter t d := by
    unfold CallRepo.transitionFilter
    rw [CallSm.shouldApplyEvent_eq_apply hrank, hsound.rank, hsound.terminal]
  unfold applyEvent answer
  refine wp_call_bind fun env => ⟨_, rfl, ?_⟩
  rw [findByProviderCallId_of_about hd hsound habout]
  dsimp only
  rw [ht]
  show Prog.wp exec Faultless (if _ then _ else _) _ σ
  -- nobody moves the call between the read and the update, so the two agree
  by_cases hfilter : CallRepo.transitionFilter t d
  · rw [if_neg (not_not.mpr (happly.mpr hfilter)), if_pos hfilter]
    refine wp_call_bind fun env => ⟨_, rfl, ?_⟩
    rcases CallRepo.transitionCall_cases env.now d.id t (failureReason event t) σ.calls
      with ⟨d', hd', -, hans, -, -⟩ | ⟨hno, -, -⟩
    · cases hd.symm.trans hd'
      rw [hans]
      refine wp_mono wp_settleEvent fun r σ' h => ?_
      obtain ⟨hok, hcalls, hagents, hborrowers, hrecorded⟩ := h
      refine ⟨hok, hrecorded, ⟨env.now, hcalls⟩, ?_, ?_⟩
      · rw [if_pos hfilter]
        exact hagents.before
      by_cases hterm : CallSm.isTerminal t = true
      · rw [if_pos hterm] at hborrowers
        rw [if_pos ⟨hfilter, hterm⟩]
        exact hborrowers.before hterm
      · rw [if_neg hterm] at hborrowers
        rw [if_neg (fun h => hterm h.2)]
        exact hborrowers
    · exact absurd hfilter (hno d hd)
  · rw [if_pos (fun h => hfilter (happly.mp h)), if_neg hfilter]
    refine wp_finish ⟨rfl, fun e => recorded_markProcessed e, ⟨env.now, ?_⟩, ?_, ?_⟩
    · exact (CallRepo.transitionCall_of_refused hd hfilter env.now (failureReason event t)).symm
    · rw [if_neg hfilter]
    · rw [if_neg (fun h => hfilter h.1)]

/-- Exactly the event joins the ledger. -/
def Records (event : ProviderEvent) (σ σ' : Store) : Prop :=
  ∀ e, Recorded σ'.events e ↔ Recorded σ.events e ∨ e.key = event.key

/-- **What a fresh event makes of the store**: it is recorded and applied to its call. -/
theorem wp_processEvent (cfg : Config) {d : Call} {t : CallState} (hfresh : ¬ Recorded σ.events event)
    (hd : σ.calls.get? d.id = some d) (hsound : d.Sound) (habout : event.About d)
    (ht : eventTypeToCallState event.eventType = some t) :
    (processEvent cfg event).wp exec Faultless (fun r σ' => r = .ok (answer d t)
      ∧ Records event σ σ' ∧ Applied cfg event d t σ σ') σ := by
  unfold processEvent
  refine wp_call_bind fun env => ?_
  obtain ⟨hans, hrecorded⟩ := recordEvent_of_fresh env.now hfresh
  refine ⟨.RECORDED, congrArg Except.ok hans, (wp_catching _ _ _ _).mpr ?_⟩
  refine wp_mono (wp_applyEvent hd hsound habout ht) ?_
  rintro _ σ' ⟨rfl, hsame, happlied⟩
  exact ⟨rfl, fun e => (hsame e).trans (hrecorded e), happlied.calls, happlied.agents,
    happlied.borrowers⟩

/-- A fresh event of a type that says nothing is recorded, and nothing else happens. -/
theorem wp_processEvent_of_unknown (cfg : Config) (hfresh : ¬ Recorded σ.events event)
    (ht : eventTypeToCallState event.eventType = none) :
    (processEvent cfg event).wp exec Faultless (fun r σ' => r = .ok { status := .INVALID_IGNORED }
      ∧ Records event σ σ' ∧ σ'.calls = σ.calls ∧ σ'.agents = σ.agents
      ∧ σ'.borrowers = σ.borrowers) σ := by
  unfold processEvent
  refine wp_call_bind fun env => ?_
  obtain ⟨hans, hrecorded⟩ := recordEvent_of_fresh env.now hfresh
  refine ⟨.RECORDED, congrArg Except.ok hans, (wp_catching _ _ _ _).mpr ?_⟩
  unfold applyEvent
  refine wp_call_bind fun _ => ⟨_, rfl, ?_⟩
  have hmarked : ∀ e, Recorded (EventRepo.markProcessed event.providerName event.providerEventId
      .INVALID_IGNORED none (EventRepo.recordEvent event env.now σ.events).2) e
      ↔ Recorded σ.events e ∨ e.key = event.key := fun e =>
    (recorded_markProcessed e).trans (hrecorded e)
  cases CallRepo.findByProviderCallId event.providerName event.providerCallId
      (apply env (.recordEvent event) σ).2.calls with
  | none => exact wp_finish ⟨rfl, hmarked, rfl, rfl, rfl⟩
  | some seen =>
    dsimp only
    rw [ht]
    exact wp_finish ⟨rfl, hmarked, rfl, rfl, rfl⟩

/-- **A recorded event is answered `DUPLICATE_IGNORED` and changes nothing.** -/
theorem wp_processEvent_of_recorded (cfg : Config) (hrecorded : Recorded σ.events event) :
    (processEvent cfg event).wp exec Faultless
      (fun r σ' => r = .ok { status := .DUPLICATE_IGNORED } ∧ σ' = σ) σ := by
  unfold processEvent
  refine wp_call_bind fun env => ?_
  have hdup := recordEvent_of_recorded env.now hrecorded
  refine ⟨.DUPLICATE, congrArg Except.ok (congrArg Prod.fst hdup), rfl, ?_⟩
  show ({ σ with events := (EventRepo.recordEvent event env.now σ.events).2 } : Store) = σ
  rw [hdup]

end EventProcessor

/-! ## Events one after another

Each delivery runs alone, and the next one finds what it has left. -/

/-- The store after the events have been processed one after another, from operation `n` on. -/
def processAll (cfg : Config) (envs : Nat → Env) : List ProviderEvent → Nat → Store → Store
  | [], _, σ => σ
  | event :: events, n, σ =>
    let r := (EventProcessor.processEvent cfg event).run exec envs n σ
    processAll cfg envs events r.2.2 r.2.1

end SmartDialer
