import SmartDialer.Events.Confluence

/-!
# The agent follows the call

Each event moves the call by one table and its agent by another; a third one says where the agent
belongs. `Paired` relates the two, and an event keeps them so. They part at one place only: an
agent who has never been `CONNECTED` cannot reach `WRAP_UP`, so a call that is completed before it
has been answered leaves its agent behind.

* `Paired.step`: one applied event, by the table of the agent.
* `Following`: where call and agent are after some events, and what the ledger holds.
* `Following.step`: one more event, in the three ways it can come.
* `agent_follows_call`: any events, in any order.
-/

namespace SmartDialer

open DocStore Concurrent Prog EventProcessor

/-- An attached call that has just been started, with the agent who dials it. -/
structure Dialling (σ : Store) (d : Call) (g : Agent) : Prop where
  call : σ.calls.get? d.id = some d
  sound : d.Sound
  state : d.state = .INITIATED
  attached : d.providerCallId ≠ none
  agent : σ.agents.get? d.agentId = some g
  dialing : g.state = .DIALING
  worker : g.reservedBy = some d.createdByWorker

/-- Call state and agent as they belong together, where `g` is the agent who dials. The last case
is the call that was completed before it was answered. -/
inductive Paired (g : Agent) : CallState → Agent → Prop where
  | dialing {s : CallState} (hs : s = .INITIATED ∨ s = .RINGING) : Paired g s g
  | talking {s : CallState} {g' : Agent} (hs : s = .ANSWERED ∨ s = .CONNECTED)
      (hstate : g'.state = .CONNECTED) (hlease : g'.toLeaseFields = g.toLeaseFields) :
      Paired g s g'
  | wrapUp {g' : Agent} (hstate : g'.state = .WRAP_UP) (hlease : g'.toLeaseFields = clearedLeaseFields) :
      Paired g .COMPLETED g'
  | freed {s : CallState} {g' : Agent} (hs : s = .FAILED ∨ s = .CANCELLED)
      (hstate : g'.state = .AVAILABLE) (hlease : g'.toLeaseFields = clearedLeaseFields) :
      Paired g s g'
  | leftBehind : Paired g .COMPLETED g

/-- A call that is completed while it is still `INITIATED` or `RINGING`. -/
def Overtakes (s s' : CallState) : Prop := (s = .INITIATED ∨ s = .RINGING) ∧ s' = .COMPLETED

section Step

variable {cfg : Config} {σ σ' : Store} {d : Call} {g g' : Agent} {event : ProviderEvent}
  {t : CallState}

namespace EventProcessor

theorem AgentFollows.same {agents agents' : Agents} (h : AgentFollows d t agents agents')
    (hg : agents.get? d.agentId = some g) (hstate : CallSm.agentStateForCallState t = some g.state) :
    agents'.get? d.agentId = some g := by
  unfold AgentFollows at h
  simp only [hstate, hg, if_true] at h
  rw [h]
  exact hg

/-- An agent who is dialling takes up the call. -/
theorem AgentFollows.connects {agents agents' : Agents} (h : AgentFollows d t agents agents')
    (hg : agents.get? d.agentId = some g) (hdialing : g.state = .DIALING)
    (ht : t = .ANSWERED ∨ t = .CONNECTED) :
    ∃ now, agents'.get? d.agentId = some (AgentRepo.transitionUpdate now .DIALING .CONNECTED g) := by
  have hid : g.id = d.agentId := Collection.key_of_get? hg
  unfold AgentFollows at h
  have hsame : CallSm.agentStateForCallState t = some .CONNECTED := by rcases ht with rfl | rfl <;> rfl
  have hnot : t ∉ agentReleasingCallStates := by rcases ht with rfl | rfl <;> decide
  have hne : g.state ≠ .CONNECTED := by
    rw [hdialing]
    decide
  have hvalid : AgentSm.Valid g.state .CONNECTED .EVENT_PROCESSOR := by
    rw [hdialing]
    decide
  simp only [hsame, hg, hne, hnot, hvalid, if_true, if_false] at h
  obtain ⟨now, rfl⟩ := h
  have hmoved := AgentRepo.get?_transitionAgent hg now .CONNECTED
  rw [hdialing] at hmoved
  rw [hid, hdialing]
  exact ⟨now, hmoved⟩

/-- An agent leaves the call where the table lets the event processor take him there. -/
theorem AgentFollows.leaves {agents agents' : Agents} (h : AgentFollows d t agents agents')
    (hg : agents.get? d.agentId = some g) (hworker : g.reservedBy = some d.createdByWorker)
    {target : AgentState} (htarget : CallSm.agentStateForCallState t = some target)
    (ht : t ∈ agentReleasingCallStates) (hne : g.state ≠ target)
    (hsource : g.state ∈ AgentSm.allowedSources target .EVENT_PROCESSOR) :
    ∃ g', agents'.get? d.agentId = some g' ∧ g'.state = target
      ∧ g'.toLeaseFields = clearedLeaseFields := by
  have hid : g.id = d.agentId := Collection.key_of_get? hg
  unfold AgentFollows at h
  simp only [htarget, hg, hne, ht, if_true, if_false] at h
  obtain ⟨now, rfl⟩ := h
  rw [hid]
  exact ⟨_, AgentRepo.get?_releaseAgent hg now hworker hsource, rfl, rfl⟩

/-- An agent whom the table does not let go stays as he is. -/
theorem AgentFollows.stays {agents agents' : Agents} (h : AgentFollows d t agents agents')
    (hg : agents.get? d.agentId = some g) {target : AgentState}
    (htarget : CallSm.agentStateForCallState t = some target) (ht : t ∈ agentReleasingCallStates)
    (hne : g.state ≠ target) (hsource : g.state ∉ AgentSm.allowedSources target .EVENT_PROCESSOR) :
    agents'.get? d.agentId = some g := by
  have hid : g.id = d.agentId := Collection.key_of_get? hg
  unfold AgentFollows at h
  simp only [htarget, hg, hne, ht, if_true, if_false] at h
  obtain ⟨now, rfl⟩ := h
  rcases Collection.findOneAndUpdate_cases agents g.id
      (fun d' => d'.reservedBy = some d.createdByWorker
        ∧ d'.state ∈ AgentSm.allowedSources target .EVENT_PROCESSOR)
      (AgentRepo.releaseUpdate now target .EVENT_PROCESSOR)
      (fun d => AgentRepo.conditionalAccounting_id _ now d)
    with ⟨d', hd', ⟨-, hin⟩, -⟩ | ⟨-, -, hsame⟩
  · rw [hid] at hd'
    cases hg.symm.trans hd'
    exact absurd hin hsource
  · exact (congrArg (fun agents : Agents => agents.get? d.agentId) hsame).trans hg

end EventProcessor

/-- **One applied event keeps call and agent together**, and parts them only where it completes a
call that has not been answered. -/
theorem Paired.step (h : Paired g d.state g') (hdialing : g.state = .DIALING)
    (hworker : g.reservedBy = some d.createdByWorker)
    (hg' : σ.agents.get? d.agentId = some g') (hsound : d.Sound)
    (hfilter : CallRepo.transitionFilter t d) (hfollows : AgentFollows d t σ.agents σ'.agents) :
    ∃ g'', σ'.agents.get? d.agentId = some g'' ∧ Paired g t g''
      ∧ (Overtakes d.state t ↔ t = .COMPLETED ∧ g''.state = .DIALING) := by
  obtain ⟨hopen, hrank⟩ := (transitionFilter_iff hsound).mp hfilter
  have hnot : ∀ {s : CallState} {g'' : Agent}, s ≠ .COMPLETED →
      (Overtakes d.state s ↔ s = .COMPLETED ∧ g''.state = .DIALING) := fun hne =>
    iff_of_false (fun h => hne h.2) fun h => hne h.1
  generalize hs' : d.state = s at h hopen hrank
  rw [hs'] at hnot
  -- how the agent stands to the call, and which transitions are open from there
  -- by where the two are before the event
  cases h with
  | dialing hs =>
    cases t with
    | QUEUED | RESERVED | INITIATED =>
      rcases hs with rfl | rfl <;> exact absurd hrank (by decide)
    | RINGING =>
      exact ⟨g, hfollows.same hg' (by rw [hdialing]; rfl), .dialing (Or.inr rfl), hnot nofun⟩
    | ANSWERED | CONNECTED =>
      obtain ⟨now, hget⟩ := hfollows.connects hg' hdialing (by simp)
      exact ⟨_, hget, .talking (by simp) rfl rfl, hnot nofun⟩
    | COMPLETED =>
      refine ⟨g, ?_, .leftBehind, iff_of_true ⟨hs, rfl⟩ ⟨rfl, hdialing⟩⟩
      exact hfollows.stays hg' rfl (by decide) (by rw [hdialing]; decide) (by rw [hdialing]; decide)
    | FAILED | CANCELLED =>
      obtain ⟨g'', hget, hstate, hlease⟩ := hfollows.leaves hg' hworker rfl (by decide)
        (by rw [hdialing]; decide) (by rw [hdialing]; decide)
      exact ⟨g'', hget, .freed (by simp) hstate hlease, hnot nofun⟩
  | talking hs hstate hlease =>
    have hworker' : g'.reservedBy = some d.createdByWorker :=
      (congrArg LeaseFields.reservedBy hlease).trans hworker
    cases t with
    | QUEUED | RESERVED | INITIATED | RINGING | ANSWERED =>
      rcases hs with rfl | rfl <;> exact absurd hrank (by decide)
    | CONNECTED =>
      exact ⟨g', hfollows.same hg' (by rw [hstate]; rfl), .talking (Or.inr rfl) hstate hlease,
        hnot nofun⟩
    | COMPLETED =>
      obtain ⟨g'', hget, hwrap, hcleared⟩ := hfollows.leaves hg' hworker' rfl (by decide)
        (by rw [hstate]; decide) (by rw [hstate]; decide)
      refine ⟨g'', hget, .wrapUp hwrap hcleared, iff_of_false (fun h => ?_) fun h => ?_⟩
      · rcases hs with rfl | rfl <;> rcases h.1 with h | h <;> cases h
      · cases hwrap.symm.trans h.2
    | FAILED | CANCELLED =>
      obtain ⟨g'', hget, hfree, hcleared⟩ := hfollows.leaves hg' hworker' rfl (by decide)
        (by rw [hstate]; decide) (by rw [hstate]; decide)
      exact ⟨g'', hget, .freed (by simp) hfree hcleared, hnot nofun⟩
  | wrapUp => cases hopen
  | freed hs => rcases hs with rfl | rfl <;> cases hopen
  | leftBehind => cases hopen

end Step

/-! ## One event after another

The ledger takes part in the invariant, since an event that has been recorded before is not
processed again. `ended` is about events that the ledger has not known in another guise. -/

section Run

variable {cfg : Config} {envs : Nat → Env} {σ : Store} {d : Call} {g : Agent}

variable (cfg envs σ d) in
/-- The store after the events. -/
def heard (events : List ProviderEvent) : Store := processAll cfg envs events 0 σ

variable (cfg envs σ d) in
/-- The call is in state `s` after the events. -/
def InState (events : List ProviderEvent) (s : CallState) : Prop :=
  ∃ d', (heard cfg envs σ events).calls.get? d.id = some d' ∧ d'.state = s

variable (cfg envs σ d) in
/-- One of the events completed the call before it was answered. -/
def CompletedUnanswered (events : List ProviderEvent) : Prop :=
  ∃ before event after s s', events = before ++ event :: after ∧ InState cfg envs σ d before s
    ∧ InState cfg envs σ d (before ++ [event]) s' ∧ Overtakes s s'

variable (σ) in
/-- The ledger knows the event from nothing but itself: no event with its id has been recorded
before, and those among `events` say the same. -/
def Original (events : List ProviderEvent) (event : ProviderEvent) : Prop :=
  ¬ Recorded σ.events event ∧ ∀ e ∈ events, e.key = event.key → e.eventType = event.eventType

/-- The event calls for the end of the call. -/
def Final (event : ProviderEvent) : Prop :=
  ∃ t, eventTypeToCallState event.eventType = some t ∧ CallSm.isTerminal t = true

variable (cfg envs σ d g) in
/-- Where call and agent are after the events. -/
structure Following (events : List ProviderEvent) (d' : Call) (g' : Agent) : Prop where
  call : (heard cfg envs σ events).calls.get? d.id = some d'
  agent : (heard cfg envs σ events).agents.get? d.agentId = some g'
  evolves : d.Evolves d'
  sound : d'.Sound
  paired : Paired g d'.state g'
  overtaken : CompletedUnanswered cfg envs σ d events
    ↔ d'.state = .COMPLETED ∧ g'.state = .DIALING
  recorded : ∀ e, Recorded (heard cfg envs σ events).events e
    ↔ Recorded σ.events e ∨ ∃ e' ∈ events, e'.key = e.key
  ended : ∀ e ∈ events, Final e → Original σ events e → d'.terminal = true

/-- The last event is processed in the store that the others leave. -/
theorem processAll_concat (event : ProviderEvent) (events : List ProviderEvent) (n : Nat) :
    ∃ m, processAll cfg envs (events ++ [event]) n σ
      = ((processEvent cfg event).run exec envs m (processAll cfg envs events n σ)).2.1 := by
  induction events generalizing n σ with
  | nil => exact ⟨n, rfl⟩
  | cons e events ih => exact ih _

theorem heard_concat (cfg : Config) (envs : Nat → Env) (σ : Store) (event : ProviderEvent)
    (events : List ProviderEvent) :
    ∃ m, heard cfg envs σ (events ++ [event])
      = ((processEvent cfg event).run exec envs m (heard cfg envs σ events)).2.1 :=
  processAll_concat event events 0

theorem InState.eq {events : List ProviderEvent} {s : CallState} {d' : Call}
    (h : InState cfg envs σ d events s)
    (hd' : (heard cfg envs σ events).calls.get? d.id = some d') : d'.state = s := by
  obtain ⟨e, he, hstate⟩ := h
  cases he.symm.trans hd'
  exact hstate

/-- Only the last event can add to what has been overtaken. -/
theorem completedUnanswered_concat {events : List ProviderEvent} {event : ProviderEvent}
    {d' d'' : Call} (hd' : (heard cfg envs σ events).calls.get? d.id = some d')
    (hd'' : (heard cfg envs σ (events ++ [event])).calls.get? d.id = some d'') :
    CompletedUnanswered cfg envs σ d (events ++ [event])
      ↔ CompletedUnanswered cfg envs σ d events ∨ Overtakes d'.state d''.state := by
  constructor
  · rintro ⟨before, e, after, s, s', hsplit, hs, hs', hovertakes⟩
    rcases List.eq_nil_or_concat after with rfl | ⟨after, last, rfl⟩
    · obtain ⟨rfl, hlast⟩ := List.append_inj' hsplit rfl
      cases hlast
      rw [hs.eq hd', hs'.eq hd'']
      exact Or.inr hovertakes
    · have hsplit' : events ++ [event] = (before ++ e :: after) ++ [last] := by simpa using hsplit
      obtain ⟨rfl, -⟩ := List.append_inj' hsplit' rfl
      exact Or.inl ⟨before, e, after, s, s', rfl, hs, hs', hovertakes⟩
  · rintro (⟨before, e, after, s, s', rfl, hs, hs', hovertakes⟩ | hovertakes)
    · exact ⟨before, e, after ++ [event], s, s', by simp, hs, hs', hovertakes⟩
    · exact ⟨events, event, [], _, _, rfl, ⟨d', hd', rfl⟩, ⟨d'', hd'', rfl⟩, hovertakes⟩

theorem not_overtakes_self (s : CallState) : ¬ Overtakes s s := by
  rintro ⟨rfl | rfl, h⟩ <;> cases h

theorem Original.of_concat {events : List ProviderEvent} {event e : ProviderEvent}
    (h : Original σ (events ++ [event]) e) : Original σ events e :=
  ⟨h.1, fun e' he' => h.2 e' (List.mem_append_left _ he')⟩

/-! ### One more event

An event leaves call and agent where they were in three cases: the ledger knows it already, its type
is none that the processor maps, or the call is as far as the event would take it. `Following.stay`
carries the invariant over all three. What is left is the event that moves the call. -/

variable {events : List ProviderEvent} {event : ProviderEvent} {d' : Call} {g' : Agent}

theorem exists_key_concat {e : ProviderEvent} : (∃ e' ∈ events ++ [event], e'.key = e.key)
    ↔ (∃ e' ∈ events, e'.key = e.key) ∨ e.key = event.key := by
  constructor
  · rintro ⟨e', he', hkey⟩
    rcases List.mem_append.mp he' with he' | he'
    · exact Or.inl ⟨e', he', hkey⟩
    · cases List.mem_singleton.mp he'
      exact Or.inr hkey.symm
  · rintro (⟨e', he', hkey⟩ | hkey)
    · exact ⟨e', List.mem_append_left _ he', hkey⟩
    · exact ⟨event, List.mem_append_right _ List.mem_cons_self, hkey.symm⟩

theorem Recorded.of_key {ledger : ProviderEvents} {e : ProviderEvent} (h : Recorded ledger event)
    (hkey : e.key = event.key) : Recorded ledger e := by
  unfold Recorded at h ⊢
  rw [hkey]
  exact h

theorem Original.first {e : ProviderEvent} (h : Original σ (events ++ [event]) event)
    (he : e ∈ events) (hkey : e.key = event.key) :
    e.eventType = event.eventType ∧ Original σ events e := by
  have htype : ∀ e' ∈ events, e'.key = event.key → e'.eventType = event.eventType :=
    fun e' he' => h.2 e' (List.mem_append_left _ he')
  refine ⟨htype e he hkey, fun hrecorded => h.1 (hrecorded.of_key hkey.symm), fun e' he' hkey' => ?_⟩
  rw [htype e he hkey]
  exact htype e' he' (hkey'.trans hkey)

/-- What the processor records is the event alone, so the ledger goes on holding what it held at the
start and the keys of the events. -/
theorem Following.recorded_concat (h : Following cfg envs σ d g events d' g') {σ' : Store}
    (hrecords : Records event (heard cfg envs σ events) σ') (e : ProviderEvent) :
    Recorded σ'.events e ↔ Recorded σ.events e ∨ ∃ e' ∈ events ++ [event], e'.key = e.key := by
  rw [hrecords e, h.recorded e, exists_key_concat, or_assoc]

/-- **An event that moves neither call nor agent** leaves them as they belong together. Only the
ledger has to be followed up, and if the event was the end of the call, the call had ended. -/
theorem Following.stay (h : Following cfg envs σ d g events d' g')
    (hcalls : (heard cfg envs σ (events ++ [event])).calls = (heard cfg envs σ events).calls)
    (hagents : (heard cfg envs σ (events ++ [event])).agents = (heard cfg envs σ events).agents)
    (hrecorded : ∀ e, Recorded (heard cfg envs σ (events ++ [event])).events e
      ↔ Recorded σ.events e ∨ ∃ e' ∈ events ++ [event], e'.key = e.key)
    (hlast : Final event → Original σ (events ++ [event]) event → d'.terminal = true) :
    Following cfg envs σ d g (events ++ [event]) d' g' := by
  have hcall : (heard cfg envs σ (events ++ [event])).calls.get? d.id = some d' := by
    rw [hcalls]
    exact h.call
  refine ⟨hcall, ?_, h.evolves, h.sound, h.paired, ?_, hrecorded, fun e he hfinal horiginal => ?_⟩
  · rw [hagents]
    exact h.agent
  · rw [completedUnanswered_concat h.call hcall, h.overtaken]
    exact or_iff_left (not_overtakes_self _)
  · rcases List.mem_append.mp he with he | he
    · exact h.ended e he hfinal horiginal.of_concat
    · cases List.mem_singleton.mp he
      exact hlast hfinal horiginal

/-- **A delivery that the ledger knows.** It changes nothing; if it is original its first delivery
was among the events, and has done what the type asks for. -/
theorem Following.step_known (henvs : ∀ n, (envs n).fault = none)
    (h : Following cfg envs σ d g events d' g')
    (hknown : Recorded (heard cfg envs σ events).events event) :
    Following cfg envs σ d g (events ++ [event]) d' g' := by
  obtain ⟨m, hrun⟩ := heard_concat cfg envs σ event events
  obtain ⟨-, hsame⟩ := run_of_wp (wp_processEvent_of_recorded cfg hknown) (fun _ n => henvs n) m
  have hsame : heard cfg envs σ (events ++ [event]) = heard cfg envs σ events := hrun.trans hsame
  refine h.stay (by rw [hsame]) (by rw [hsame]) (fun e => ?_) fun hfinal horiginal => ?_
  · rw [hsame, exists_key_concat, ← or_assoc, ← h.recorded e]
    exact (or_iff_left_of_imp hknown.of_key).symm
  · obtain ⟨e, he, hkey⟩ := ((h.recorded event).mp hknown).resolve_left horiginal.1
    obtain ⟨htype, hfirst⟩ := horiginal.first he hkey
    refine h.ended e he ?_ hfirst
    unfold Final
    rw [htype]
    exact hfinal

/-- **An event that moves the call.** The agent goes where the table has him for the new state, and
the event joins those that overtake the answer exactly if it completes a call that nobody took up. -/
theorem Following.step_moved (h : Dialling σ d g) (hfollowing : Following cfg envs σ d g events d' g')
    {t : CallState} (ht : eventTypeToCallState event.eventType = some t)
    (hfilter : CallRepo.transitionFilter t d')
    (hrecords : Records event (heard cfg envs σ events) (heard cfg envs σ (events ++ [event])))
    (happlied : Applied cfg event d' t (heard cfg envs σ events)
      (heard cfg envs σ (events ++ [event]))) :
    ∃ d'' g'', Following cfg envs σ d g (events ++ [event]) d'' g'' := by
  have hev := hfollowing.evolves
  have hsound := hfollowing.sound
  have hagent : (heard cfg envs σ events).agents.get? d'.agentId = some g' := by
    rw [hev.agentId]
    exact hfollowing.agent
  have hworker : g.reservedBy = some d'.createdByWorker := by
    rw [hev.createdByWorker]
    exact h.worker
  obtain ⟨d'', hd'', hev', hsound', hstate⟩ := happlied.advance hfollowing.call hsound
  have hstate : d''.state = t := hstate.trans (if_pos ((transitionFilter_iff hsound).mp hfilter))
  have hfollows := happlied.agents
  rw [if_pos hfilter] at hfollows
  obtain ⟨g'', hg'', hpaired, hiff⟩ :=
    hfollowing.paired.step h.dialing hworker hagent hsound hfilter hfollows
  refine ⟨d'', g'', hd'', ?_, hev.trans hev', hsound', hstate ▸ hpaired, ?_,
    hfollowing.recorded_concat hrecords, fun e he hfinal horiginal => ?_⟩
  · rw [← hev.agentId]
    exact hg''
  · rw [completedUnanswered_concat hfollowing.call hd'', hfollowing.overtaken, hstate, ← hiff]
    -- a call that was completed before would not have moved
    refine or_iff_right fun hdone => ?_
    have hopen := hfilter.1
    rw [hsound.terminal, hdone.1] at hopen
    cases hopen
  · rcases List.mem_append.mp he with he | he
    · exact (hev'.frozen (hfollowing.ended e he hfinal horiginal.of_concat)).1
    · cases List.mem_singleton.mp he
      obtain ⟨t', ht', hterm⟩ := hfinal
      cases ht.symm.trans ht'
      rw [hsound'.terminal, hstate]
      exact hterm

/-- **One more event**, by what the ledger, the table of event types and the filter of the call
update say to it. -/
theorem Following.step (h : Dialling σ d g) (henvs : ∀ n, (envs n).fault = none)
    (habout : event.About d) (hfollowing : Following cfg envs σ d g events d' g') :
    ∃ d'' g'', Following cfg envs σ d g (events ++ [event]) d'' g'' := by
  by_cases hknown : Recorded (heard cfg envs σ events).events event
  · exact ⟨d', g', hfollowing.step_known henvs hknown⟩
  obtain ⟨m, hrun⟩ := heard_concat cfg envs σ event events
  have hcall : (heard cfg envs σ events).calls.get? d'.id = some d' := by
    rw [Calls.id_of_get? hfollowing.call]
    exact hfollowing.call
  cases ht : eventTypeToCallState event.eventType with
  -- an event of no known type is recorded and applied to nothing
  | none =>
    obtain ⟨-, hrecords, hcalls, hagents, -⟩ := run_of_wp
      (wp_processEvent_of_unknown cfg hknown ht) (fun _ n => henvs n) m
    rw [← hrun] at hrecords hcalls hagents
    refine ⟨d', g', hfollowing.stay hcalls hagents (hfollowing.recorded_concat hrecords) ?_⟩
    rintro ⟨t, ht', -⟩ -
    cases ht.symm.trans ht'
  | some t =>
    obtain ⟨-, hrecords, happlied⟩ := run_of_wp (wp_processEvent cfg hknown hcall hfollowing.sound
      (habout.evolves hfollowing.evolves) ht) (fun _ n => henvs n) m
    rw [← hrun] at hrecords happlied
    by_cases hfilter : CallRepo.transitionFilter t d'
    · exact hfollowing.step_moved h ht hfilter hrecords happlied
    -- the event comes too late for the state it calls for
    · obtain ⟨now, hcalls⟩ := happlied.calls
      rw [CallRepo.transitionCall_of_refused hcall hfilter] at hcalls
      have hagents := happlied.agents
      rw [if_neg hfilter] at hagents
      refine ⟨d', g', hfollowing.stay hcalls hagents (hfollowing.recorded_concat hrecords) ?_⟩
      rintro ⟨t', ht', hterm⟩ -
      cases ht.symm.trans ht'
      exact hfollowing.sound.ranked.terminal_of_not_filter hterm hfilter

theorem Following.start (h : Dialling σ d g) : Following cfg envs σ d g [] d g where
  call := h.call
  agent := h.agent
  evolves := .refl d
  sound := h.sound
  paired := .dialing (Or.inl h.state)
  overtaken := by
    refine iff_of_false ?_ fun hdone => ?_
    · rintro ⟨before, e, after, s, s', hsplit, -⟩
      cases before <;> cases hsplit
    · cases h.state.symm.trans hdone.1
  recorded := fun e => by simp [heard, processAll]
  ended := fun _ he => by cases he

theorem following (h : Dialling σ d g) (henvs : ∀ n, (envs n).fault = none)
    (events : List ProviderEvent) (habout : ∀ e ∈ events, e.About d) :
    ∃ d' g', Following cfg envs σ d g events d' g' := by
  induction events using List.reverseRecOn with
  | nil => exact ⟨d, g, .start h⟩
  | append_singleton events event ih =>
    obtain ⟨d', g', hfollowing⟩ := ih fun e he => habout e (List.mem_append_left _ he)
    exact hfollowing.step h henvs (habout event (List.mem_append_right _ List.mem_cons_self))

end Run

/-- **The agent machine follows the call machine.** After any events of a dialled call, in any
order and with losses and duplicates: the agent is where the table has him for the state of the
call, unless one of the events has completed the call while it was `INITIATED` or `RINGING`, and
then the agent is as he was; the call is over as soon as it has heard of its end; and the lease of
the agent is cleared in `WRAP_UP` and `AVAILABLE`, and kept as it was everywhere else. -/
theorem agent_follows_call {cfg : Config} {envs : Nat → Env} {σ : Store} {d : Call} {g : Agent}
    (h : Dialling σ d g) (henvs : ∀ n, (envs n).fault = none) {events : List ProviderEvent}
    (habout : ∀ e ∈ events, e.About d) :
    ∃ d' g', (processAll cfg envs events 0 σ).calls.get? d.id = some d'
      ∧ (processAll cfg envs events 0 σ).agents.get? d.agentId = some g'
      ∧ (¬ CompletedUnanswered cfg envs σ d events →
        CallSm.agentStateForCallState d'.state = some g'.state)
      ∧ (CompletedUnanswered cfg envs σ d events → d'.state = .COMPLETED ∧ g' = g)
      ∧ (∀ e ∈ events, Final e → Original σ events e → CallSm.isTerminal d'.state = true)
      ∧ (g'.toLeaseFields = clearedLeaseFields ↔ g'.state = .WRAP_UP ∨ g'.state = .AVAILABLE)
      ∧ (¬ (g'.state = .WRAP_UP ∨ g'.state = .AVAILABLE) → g'.toLeaseFields = g.toLeaseFields) := by
  obtain ⟨d', g', hfollowing⟩ := following h henvs events habout
  obtain ⟨hcall, hagent, -, hsound, hpaired, hovertaken, -, hended⟩ := hfollowing
  have hleased : g.toLeaseFields ≠ clearedLeaseFields := fun hcleared => by
    have hnobody := congrArg LeaseFields.reservedBy hcleared
    cases h.worker.symm.trans hnobody
  -- all five facts are read off how the two stand to each other at the end
  refine ⟨d', g', hcall, hagent, ?_, ?_, fun e he hfinal horiginal => ?_, ?_⟩
  · intro hnot
    rw [hovertaken] at hnot
    generalize d'.state = s at hpaired hnot
    cases hpaired with
    | dialing hs => rcases hs with rfl | rfl <;> rw [h.dialing] <;> rfl
    | talking hs hstate => rcases hs with rfl | rfl <;> rw [hstate] <;> rfl
    | wrapUp hstate => rw [hstate]; rfl
    | freed hs hstate => rcases hs with rfl | rfl <;> rw [hstate] <;> rfl
    | leftBehind => exact absurd ⟨rfl, h.dialing⟩ hnot
  · intro hdone
    obtain ⟨hcompleted, hdialing⟩ := hovertaken.mp hdone
    refine ⟨hcompleted, ?_⟩
    rw [hcompleted] at hpaired
    cases hpaired with
    | dialing hs => rcases hs with hs | hs <;> cases hs
    | talking hs => rcases hs with hs | hs <;> cases hs
    | wrapUp hstate => cases hstate.symm.trans hdialing
    | freed hs => rcases hs with hs | hs <;> cases hs
    | leftBehind => rfl
  · rw [← hsound.terminal]
    exact hended e he hfinal horiginal
  · generalize d'.state = s at hpaired
    cases hpaired with
    | dialing | leftBehind => simp [h.dialing, hleased]
    | talking _ hstate hlease => simp [hstate, hlease, hleased]
    | wrapUp hstate hlease => simp [hstate, hlease]
    | freed _ hstate hlease => simp [hstate, hlease]

/-! The theorem at a delivery that loses the answer, repeats an event and brings another too late. -/

theorem attached_dialling : ∃ g, Dialling attached.store demoCall g := by
  have hagent : (attached.store.agents.get? demoAgent.id).map (fun g => (g.state, g.reservedBy))
      = some (.DIALING, some "w") := by decide +kernel
  obtain ⟨g, hg, hfields⟩ := Option.map_eq_some_iff.mp hagent
  obtain ⟨hstate, hworker⟩ := Prod.mk.inj hfields
  exact ⟨g, by decide +kernel, ⟨rfl, rfl, fun _ => le_rfl, fun _ => rfl, by decide⟩, rfl, nofun, hg,
    hstate, hworker⟩

/-- The answer is lost, `CONNECTED` comes twice, and `RINGING` comes too late. -/
def patchyDelivery : List ProviderEvent :=
  [eventOf "2" "CONNECTED", eventOf "1" "RINGING", eventOf "2" "CONNECTED", eventOf "3" "COMPLETED"]

/-- The agent ends in his wrap-up, without a lease. -/
theorem agent_follows_call_demo : ∃ g',
    (processAll {} (fun _ => {}) patchyDelivery 0 attached.store).agents.get? demoAgent.id = some g'
    ∧ g'.state = .WRAP_UP ∧ g'.toLeaseFields = clearedLeaseFields := by
  obtain ⟨g, hdialling⟩ := attached_dialling
  have habout : ∀ e ∈ patchyDelivery, e.About demoCall := by
    have hall : ∀ e ∈ patchyDelivery, demoCall.providerName = e.providerName
        ∧ demoCall.providerCallId = some e.providerCallId := by decide
    exact hall
  have henvs : ∀ n, ((fun _ => {} : Nat → Env) n).fault = none := fun _ => rfl
  obtain ⟨d', g', -, hg', -, -, -, hlease, -⟩ := agent_follows_call hdialling henvs habout
  have hwrap : ((processAll {} (fun _ => {}) patchyDelivery 0 attached.store).agents.get?
      demoAgent.id).map Agent.state = some .WRAP_UP := by decide +kernel
  have hstate : g'.state = .WRAP_UP := by
    have hagent : (processAll {} (fun _ => {}) patchyDelivery 0 attached.store).agents.get?
        demoAgent.id = some g' := hg'
    rw [hagent] at hwrap
    exact Option.some.inj hwrap
  exact ⟨g', hg', hstate, hlease.mpr (Or.inl hstate)⟩

end SmartDialer
