import SmartDialer.Calls.InFlight

/-!
# What a failed dial leaves behind

An exception strikes `_dial` at one of its awaits, or the registry does not know the provider. A
dial is compensated when the call is with the provider and its id on record, or when agent and
borrower have been given back and the call the dial created has ended. Which exceptions are
compensated is read off the code: those that `_originate` and `_hangup` catch lead to the `FAILED`
transition and the release, `CancelledError` leads to the release alone, and every other one
leaves `allocate` as it is.

This module has the vocabulary and the tools. `Compensated` and `Handled` are the two sides of the
equivalence that is proved in `Handled`; `Ending` lists how a dial can end; `Finishes` is the
judgement by which `Endings` reads the program.
-/

namespace SmartDialer

open DocStore Concurrent

namespace CallAllocator

/-! ## Reading the moments of a dial

Both sides are put in terms of the moments of the dial: which operations it has performed, in which
store, and what has struck them. -/

/-- The writes by which a dial takes back what it has done. -/
def undoes : Op → Bool
  | .releaseAgent .. | .releaseBorrower .. => true
  | .transitionCall _ targetState _ => CallSm.isTerminal targetState
  | _ => false

/-- The compensating writes succeed. -/
def UndoingSucceeds (h : List PyMoment) : Prop :=
  ∀ m ∈ h, undoes m.op = true → m.env.strikes m.op = none

/-- The call has been handed to the provider. -/
def Originated (callId : DocId) (h : List PyMoment) : Prop :=
  ∃ m ∈ h, ∃ name request, m.op = .originateCall name request ∧ request.callId = callId

/-- The moment records the provider's id on the call, whether or not it raises afterwards. -/
def RecordsId (callId : DocId) (m : PyMoment) : Prop :=
  ∃ id d, m.op = .attachProviderCallId callId id ∧ Attachable callId id m.found d
    ∧ m.env.lands m.op = true

theorem not_records {m : PyMoment} (ho : ∀ c id, m.op ≠ .attachProviderCallId c id)
    (callId : DocId) : ¬ RecordsId callId m := by
  rintro ⟨id, d, hop, -⟩
  exact ho callId id hop

/-- The call is with the provider and the provider's id is on record. -/
def HandedOver (h : List PyMoment) : Prop :=
  ∃ callId, Originated callId h ∧ ∃ m ∈ h, RecordsId callId m

/-- The dial has given agent and borrower back, and the worker held them no longer then. -/
def Freed (pair : ReservationPair) (h : List PyMoment) : Prop :=
  (∃ m ∈ h, m.op = .releaseAgent pair.agent.id pair.workerId .AVAILABLE .ALLOCATOR
    ∧ ∀ d, (m.left exec).agents.get? pair.agent.id = some d →
      ¬ (d.reservedBy = some pair.workerId ∧ (d.state = .RESERVED ∨ d.state = .DIALING)))
  ∧ ∃ m ∈ h, ∃ outcome attempts backoff,
    m.op = .releaseBorrower pair.borrower.id pair.workerId outcome attempts backoff
    ∧ ∀ d, (m.left exec).borrowers.get? pair.borrower.id = some d →
      ¬ (d.reservedBy = some pair.workerId ∧ d.status.held = true)

theorem Freed.mono {pair : ReservationPair} {h h' : List PyMoment} (hfreed : Freed pair h)
    (hsub : ∀ m ∈ h, m ∈ h') : Freed pair h' := by
  obtain ⟨⟨m₁, hm₁, hagent⟩, m₂, hm₂, hborrower⟩ := hfreed
  exact ⟨⟨m₁, hsub m₁ hm₁, hagent⟩, m₂, hsub m₂ hm₂, hborrower⟩

/-- The moment adds the call. -/
def Creates (callId : DocId) (m : PyMoment) : Prop :=
  m.found.calls.get? callId = none ∧ (m.left exec).calls.get? callId ≠ none

/-- The store has the call in a terminal state. -/
def HasEnded (callId : DocId) (σ : Store) : Prop :=
  ∃ d, σ.calls.get? callId = some d ∧ CallSm.isTerminal d.state = true

/-- **What a failure path owes**: the call is with the provider and on record, or the pair has been
freed and every call the dial created has ended. -/
def Compensated (pair : ReservationPair) (h : List PyMoment) : Prop :=
  HandedOver h
  ∨ Freed pair h ∧ ∀ m ∈ h, ∀ callId, Creates callId m → ∃ m' ∈ h, HasEnded callId (m'.left exec)

/-- The exceptions that `_originate` and `_hangup` catch. -/
def tolerated : Op → Exn → Bool
  | .awaitOriginate .., .providerTimeout | .awaitOriginate .., .timeout
  | .awaitOriginate .., .providerRejected _ => true
  | .hangupCall .., e => e.isProviderError
  | _, _ => false

/-- The dial goes on after the exception, or it has already recorded the provider's id. -/
def Harmless (m : PyMoment) (f : Fault) : Prop :=
  tolerated m.op f.exn = true ∨ ∃ callId, RecordsId callId m

/-- Whatever call the dial created, somebody else has ended it in the meantime. -/
def Disowned (h : List PyMoment) : Prop :=
  ∀ m ∈ h, ∀ callId, Creates callId m → ∃ m' ∈ h, HasEnded callId m'.found

/-- The last operation before the registry is asked. -/
def binds : Op → Bool
  | .bindCall .. => true
  | _ => false

/-- The dial keeps to the paths that are compensated: the provider is registered if the dial comes
to ask the registry, the call that has the key is found, the transition to `INITIATED` applies, and
what strikes is harmless or is `CancelledError` while the dial has no open call of its own. -/
structure Handled (cfg : Config) (campaign : Campaign) (h : List PyMoment) : Prop where
  registered : ∀ m ∈ h, binds m.op = true → m.env.strikes m.op = none →
    campaign.providerName ∈ cfg.providers
  found : ∀ m ∈ h, ∀ key, m.op = .findCallByIdempotencyKey key → m.env.strikes m.op = none →
    CallRepo.findByIdempotencyKey key m.found.calls ≠ none
  initiated : ∀ m ∈ h, ∀ callId, m.op = .transitionCall callId .INITIATED none →
    m.env.strikes m.op = none →
    (∃ d, m.found.calls.get? callId = some d ∧ CallRepo.transitionFilter .INITIATED d) ∨ Disowned h
  struck : ∀ m ∈ h, ∀ f, m.env.strikes m.op = some f →
    Harmless m f ∨ f.exn = .cancelled ∧ Disowned h

/-! ## One moment

What a single operation can do to the existence and to the end of a call. -/

/-- Only an insertion creates a call, the one it draws the id of. -/
theorem insert_of_creates {callId : DocId} {m : PyMoment} (h : Creates callId m) :
    inserts m.op = true ∧ callId = m.env.newId := by
  obtain ⟨hnone, hsome⟩ := h
  obtain ⟨d, hd⟩ := Option.ne_none_iff_exists'.mp hsome
  have hleft : (m.left exec).calls.get? callId
      = (exec m.env m.op m.found).2.calls.get? callId := rfl
  rw [hleft] at hd
  rcases exec_store m.env m.op m.found with hstore | hstore
  · rw [hstore, hnone] at hd
    cases hd
  · rw [hstore] at hd
    obtain ⟨draft, hop, hid, -⟩ := apply_call_new m.env m.op hnone hd
    rw [hop]
    exact ⟨rfl, hid⟩

/-- A call that has ended stays so. -/
theorem HasEnded.evolves {callId : DocId} {σ σ' : Store} (h : HasEnded callId σ)
    (hranked : CallsRanked σ.calls) (hranked' : CallsRanked σ'.calls)
    (hev : CallsEvolve σ.calls σ'.calls) : HasEnded callId σ' := by
  obtain ⟨d, hd, hterm⟩ := h
  obtain ⟨d', hd', hdd'⟩ := hev callId d hd
  have hflag : d.terminal = true := (hranked callId d hd).terminal.trans hterm
  exact ⟨d', hd', (hranked' callId d' hd').terminal.symm.trans (hdd'.frozen hflag).1⟩

/-- The transitions that end a call. -/
def ends : Op → Bool
  | .transitionCall _ targetState _ => CallSm.isTerminal targetState
  | _ => false

/-- Only a transition ends a call. -/
theorem hasEnded_found {callId : DocId} {m : PyMoment} (ho : ends m.op = false)
    (h : HasEnded callId (m.left exec)) : HasEnded callId m.found := by
  obtain ⟨d', hd', hterm⟩ := h
  have hleft : (exec m.env m.op m.found).2.calls.get? callId = some d' := hd'
  rcases exec_store m.env m.op m.found with hstore | hstore
  · rw [hstore] at hleft
    exact ⟨d', hleft, hterm⟩
  · rw [hstore] at hleft
    cases hd : m.found.calls.get? callId with
    | none =>
      obtain ⟨draft, -, -, rfl, -⟩ := apply_call_new m.env m.op hd hleft
      cases hterm
    | some d =>
      obtain ⟨e, he, hcases⟩ := apply_call_cases m.env m.op hd
      cases he.symm.trans hleft
      rcases hcases with rfl | ⟨t, reason, hop, -, rfl⟩ | ⟨p, -, -, rfl⟩
      · exact ⟨_, hd, hterm⟩
      · rw [hop] at ho
        exact absurd (hterm.symm.trans ho) (by decide)
      · exact ⟨d, hd, hterm⟩

/-- The transition to `FAILED` ends a call that is there, if nothing strikes it. -/
theorem hasEnded_of_failed {callId : DocId} {m : PyMoment} {reason : Option String}
    (hop : m.op = .transitionCall callId .FAILED reason) (hs : m.env.strikes m.op = none)
    (hranked : CallsRanked m.found.calls) (hcall : m.found.calls.get? callId ≠ none) :
    HasEnded callId (m.left exec) := by
  obtain ⟨d, hd⟩ := Option.ne_none_iff_exists'.mp hcall
  have hleft : m.left exec = { m.found with
      calls := (CallRepo.transitionCall m.env.now callId .FAILED reason m.found.calls).2 } := by
    show (exec m.env m.op m.found).2 = _
    rw [exec_of_unstruck hs, hop]
    rfl
  rw [hleft]
  rcases CallRepo.transitionCall_cases m.env.now callId .FAILED reason m.found.calls
    with ⟨d', hd', -, -, hget, -⟩ | ⟨hno, -, hcalls⟩
  · exact ⟨_, hget, rfl⟩
  · have hterm := (hranked callId d hd).terminal_of_not_filter (t := .FAILED) rfl (hno d hd)
    refine ⟨d, ?_, (hranked callId d hd).terminal.symm.trans hterm⟩
    show (CallRepo.transitionCall m.env.now callId .FAILED reason m.found.calls).2.get? callId = _
    rw [hcalls]
    exact hd

/-! ## Giving a pair back

A release goes by worker and state. If it matches, the document is free afterwards; if it does not,
it was not held. -/

/-- The two writes that give a pair back. -/
def releases : Op → Bool
  | .releaseAgent .. | .releaseBorrower .. => true
  | _ => false

/-- After the release of the agent the worker does not hold him. -/
theorem not_held_of_releaseAgent {agentId : DocId} {workerId : WorkerId} {σ : Store} {env : Env}
    (hs : env.strikes (.releaseAgent agentId workerId .AVAILABLE .ALLOCATOR) = none) {d : Agent}
    (hd : (exec env (.releaseAgent agentId workerId .AVAILABLE .ALLOCATOR) σ).2.agents.get? agentId
      = some d) : ¬ (d.reservedBy = some workerId ∧ (d.state = .RESERVED ∨ d.state = .DIALING)) := by
  rw [exec_of_unstruck hs] at hd
  rcases σ.agents.findOneAndUpdate_cases agentId
    (fun d => d.reservedBy = some workerId
      ∧ d.state ∈ AgentSm.allowedSources .AVAILABLE .ALLOCATOR)
    (AgentRepo.releaseUpdate env.now .AVAILABLE .ALLOCATOR)
    (fun d => AgentRepo.conditionalAccounting_id _ env.now d)
    with ⟨g, -, -, -, hget, -⟩ | ⟨hno, -, hagents⟩
  · obtain rfl : AgentRepo.releaseUpdate env.now .AVAILABLE .ALLOCATOR g = d :=
      Option.some.inj (hget.symm.trans hd)
    rintro ⟨hworker, -⟩
    cases hworker
  · rintro ⟨hworker, hstate⟩
    refine hno d ((congrArg (fun agents => Collection.get? agents agentId) hagents).symm.trans hd)
      ⟨hworker, ?_⟩
    rcases hstate with hstate | hstate
    · rw [hstate]
      decide
    · rw [hstate]
      decide

/-- After the release of the borrower the worker does not hold him. -/
theorem not_held_of_releaseBorrower {borrowerId : DocId} {workerId : WorkerId}
    {outcome : BorrowerReleaseOutcome} {attempts backoff : Int} {σ : Store} {env : Env}
    (hs : env.strikes (.releaseBorrower borrowerId workerId outcome attempts backoff) = none)
    {d : Borrower}
    (hd : (exec env (.releaseBorrower borrowerId workerId outcome attempts backoff) σ).2.borrowers.get?
      borrowerId = some d) : ¬ (d.reservedBy = some workerId ∧ d.status.held = true) := by
  rw [exec_of_unstruck hs] at hd
  rcases σ.borrowers.findOneAndUpdate_cases borrowerId
    (fun d => d.reservedBy = some workerId ∧ d.status ∈ BorrowerRepo.releasableStatuses)
    (BorrowerRepo.releaseUpdate env.now outcome attempts backoff)
    (fun _ => by cases outcome <;> rfl)
    with ⟨g, -, -, -, hget, -⟩ | ⟨hno, -, hborrowers⟩
  · obtain rfl : BorrowerRepo.releaseUpdate env.now outcome attempts backoff g = d :=
      Option.some.inj (hget.symm.trans hd)
    rintro ⟨-, hheld⟩
    exact absurd (BorrowerRepo.not_held_releaseUpdate.symm.trans hheld) (by decide)
  · rintro ⟨hworker, hheld⟩
    exact hno d ((congrArg (fun borrowers => Collection.get? borrowers borrowerId) hborrowers).symm.trans
      hd) ⟨hworker, of_decide_eq_true hheld⟩

section Endings

variable {cfg : Config} {campaign : Campaign} {pair : ReservationPair} {own : Option DocId}
  {h p : List PyMoment} {α : Type}

/-- A release that nothing strikes frees the pair. -/
theorem passes_release_freed {outcome : BorrowerReleaseOutcome} {r : Except Exn Unit}
    (hpass : (release cfg pair outcome).Passes exec h r) (hundoing : UndoingSucceeds h) :
    r = .ok () ∧ Freed pair h ∧ ∀ m ∈ h, releases m.op = true ∧ m.env.strikes m.op = none := by
  unfold release ReservationService.releasePair ReservationService.releaseAgent releaseAgent at hpass
  rw [if_neg (by decide), Prog.bind_def, Prog.bind_def, Prog.bind_assoc] at hpass
  obtain ⟨σ, env, h', rfl, ⟨hs, -, -, hrest⟩ | ⟨f, hf, -, -⟩⟩ := passes_call_bind rfl hpass
  · obtain ⟨σ', env', h'', rfl, ⟨hs', -, -, hret⟩ | ⟨f, hf, -, -⟩⟩ := passes_call_bind rfl hrest
    · obtain ⟨rfl, rfl⟩ := (Prog.passes_ret _ _).mp hret
      refine ⟨rfl, ⟨⟨_, List.mem_cons_self, rfl, fun d hd => not_held_of_releaseAgent hs hd⟩,
        ⟨_, List.mem_cons_of_mem _ List.mem_cons_self, _, _, _, rfl,
          fun d hd => not_held_of_releaseBorrower hs' hd⟩⟩, fun m hm => ?_⟩
      rcases List.mem_cons.mp hm with rfl | hm
      · exact ⟨rfl, hs⟩
      · cases List.mem_singleton.mp hm
        exact ⟨rfl, hs'⟩
    · have hs := hundoing _ (List.mem_cons_of_mem _ List.mem_cons_self) rfl
      cases hs.symm.trans hf
  · have hs := hundoing _ List.mem_cons_self rfl
    cases hs.symm.trans hf

/-! ## How a dial ends

`Regular` moments are those that the dial survives, and it is `Underway` as long as it has met no
others and has neither recorded an id nor begun to take anything back. -/

/-- Moments after which the dial goes on as if nothing had happened. -/
structure Regular (cfg : Config) (campaign : Campaign) (h : List PyMoment) : Prop where
  registered : ∀ m ∈ h, binds m.op = true → m.env.strikes m.op = none →
    campaign.providerName ∈ cfg.providers
  found : ∀ m ∈ h, ∀ key, m.op = .findCallByIdempotencyKey key → m.env.strikes m.op = none →
    CallRepo.findByIdempotencyKey key m.found.calls ≠ none
  initiated : ∀ m ∈ h, ∀ callId, m.op = .transitionCall callId .INITIATED none →
    m.env.strikes m.op = none →
    ∃ d, m.found.calls.get? callId = some d ∧ CallRepo.transitionFilter .INITIATED d
  struck : ∀ m ∈ h, ∀ f, m.env.strikes m.op = some f → tolerated m.op f.exn = true

/-- The dial has neither recorded an id nor begun to take anything back. -/
structure Underway (cfg : Config) (campaign : Campaign) (h : List PyMoment) : Prop
    extends Regular cfg campaign h where
  standing : ∀ m ∈ h, undoes m.op = false
  unrecorded : ∀ m ∈ h, ∀ callId, ¬ RecordsId callId m

/-- Regular moments are handled, whatever the dial has created. -/
theorem Regular.handled (hreg : Regular cfg campaign h) : Handled cfg campaign h where
  registered := hreg.registered
  found := hreg.found
  initiated := fun m hm c hop hs => Or.inl (hreg.initiated m hm c hop hs)
  struck := fun m hm f hf => Or.inl (Or.inl (hreg.struck m hm f hf))

theorem Regular.append {h' : List PyMoment} (hreg : Regular cfg campaign h)
    (hreg' : Regular cfg campaign h') : Regular cfg campaign (h ++ h') where
  registered := List.forall_mem_append.mpr ⟨hreg.registered, hreg'.registered⟩
  found := List.forall_mem_append.mpr ⟨hreg.found, hreg'.found⟩
  initiated := List.forall_mem_append.mpr ⟨hreg.initiated, hreg'.initiated⟩
  struck := List.forall_mem_append.mpr ⟨hreg.struck, hreg'.struck⟩

theorem Underway.nil : Underway cfg campaign [] where
  registered := fun _ hm => absurd hm List.not_mem_nil
  found := fun _ hm => absurd hm List.not_mem_nil
  initiated := fun _ hm => absurd hm List.not_mem_nil
  struck := fun _ hm => absurd hm List.not_mem_nil
  standing := fun _ hm => absurd hm List.not_mem_nil
  unrecorded := fun _ hm => absurd hm List.not_mem_nil

theorem Underway.append {p' : List PyMoment} (hp : Underway cfg campaign p)
    (hp' : Underway cfg campaign p') : Underway cfg campaign (p ++ p') where
  toRegular := hp.toRegular.append hp'.toRegular
  standing := List.forall_mem_append.mpr ⟨hp.standing, hp'.standing⟩
  unrecorded := List.forall_mem_append.mpr ⟨hp.unrecorded, hp'.unrecorded⟩

theorem Regular.single {m : PyMoment} (hbinds : binds m.op = false)
    (hfinds : ∀ key, m.op ≠ .findCallByIdempotencyKey key)
    (hinitiates : ∀ c, m.op ≠ .transitionCall c .INITIATED none)
    (hs : ∀ f, m.env.strikes m.op = some f → tolerated m.op f.exn = true) :
    Regular cfg campaign [m] := by
  refine ⟨fun m' hm hb => ?_, fun m' hm key hop => ?_, fun m' hm c hop => ?_, fun m' hm f hf => ?_⟩
  all_goals cases List.mem_singleton.mp hm
  · exact absurd (hbinds.symm.trans hb) Bool.false_ne_true
  · exact absurd hop (hfinds key)
  · exact absurd hop (hinitiates c)
  · exact hs f hf

/-- A moment that none of the conditions is about, and that neither records nor undoes. -/
theorem Underway.single {m : PyMoment} (hs : m.env.strikes m.op = none) (hundo : undoes m.op = false)
    (hrecords : ∀ c id, m.op ≠ .attachProviderCallId c id)
    (hbinds : binds m.op = true → campaign.providerName ∈ cfg.providers)
    (hfinds : ∀ key, m.op = .findCallByIdempotencyKey key →
      CallRepo.findByIdempotencyKey key m.found.calls ≠ none)
    (hinitiates : ∀ c, m.op = .transitionCall c .INITIATED none →
      ∃ d, m.found.calls.get? c = some d ∧ CallRepo.transitionFilter .INITIATED d) :
    Underway cfg campaign [m] := by
  refine ⟨⟨fun m' hm hb _ => ?_, fun m' hm key hop _ => ?_, fun m' hm c hop _ => ?_,
    fun m' hm f hf => ?_⟩, fun m' hm => ?_, fun m' hm c => ?_⟩
  all_goals cases List.mem_singleton.mp hm
  · exact hbinds hb
  · exact hfinds key hop
  · exact hinitiates c hop
  · cases hs.symm.trans hf
  · exact hundo
  · exact not_records hrecords c

/-- The dial stands still after one more operation that takes nothing back. -/
theorem Underway.standing_append {m : PyMoment} (hp : Underway cfg campaign p)
    (hundo : undoes m.op = false) (hrecords : ∀ c id, m.op ≠ .attachProviderCallId c id) :
    ∀ m' ∈ p ++ [m], undoes m'.op = false ∧ ∀ c, ¬ RecordsId c m' := by
  refine List.forall_mem_append.mpr ⟨fun m' hm => ⟨hp.standing m' hm, hp.unrecorded m' hm⟩, ?_⟩
  exact List.forall_mem_singleton.mpr ⟨hundo, not_records hrecords⟩

/-- The operations of a dial that neither decide nor record nor undo anything. -/
def steady : Op → Bool
  | .utcNow | .shouldAllowRetry .. | .insertCall .. | .transitionCall _ .RESERVED _
  | .transitionAgent .. | .originateCall .. | .recordOriginate .. | .awaitOriginate ..
  | .hangupCall .. => true
  | _ => false

theorem not_undoes_of_steady {o : Op} (ho : steady o = true) : undoes o = false := by
  cases o with
  | transitionCall c t reason =>
    cases t with
    | RESERVED => rfl
    | _ => cases ho
  | releaseAgent => cases ho
  | releaseBorrower => cases ho
  | _ => rfl

/-- A steady operation leaves a dial underway, if it is not struck by what the dial does not
survive. -/
theorem Underway.steady {m : PyMoment} (ho : steady m.op = true)
    (hs : ∀ f, m.env.strikes m.op = some f → tolerated m.op f.exn = true) :
    Underway cfg campaign [m] := by
  refine ⟨.single ?_ (fun key hop => ?_) (fun c hop => ?_) hs, fun m' hm => ?_, fun m' hm c hrec => ?_⟩
  · generalize m.op = o at ho
    cases o <;> first | rfl | exact absurd ho Bool.false_ne_true
  · rw [hop] at ho
    cases ho
  · rw [hop] at ho
    cases ho
  · cases List.mem_singleton.mp hm
    exact not_undoes_of_steady ho
  · cases List.mem_singleton.mp hm
    refine not_records (fun c id hop => ?_) c hrec
    rw [hop] at ho
    cases ho

/-- Moments of a release are regular. -/
theorem Regular.of_releases (hrel : ∀ m ∈ h, releases m.op = true ∧ m.env.strikes m.op = none) :
    Regular cfg campaign h := by
  refine ⟨fun m hm hb => ?_, fun m hm key hop => ?_, fun m hm c hop => ?_, fun m hm f hf => ?_⟩
  · obtain ⟨hr, -⟩ := hrel m hm
    generalize m.op = o at hr hb
    cases o <;> first | exact absurd hr Bool.false_ne_true | exact absurd hb Bool.false_ne_true
  · obtain ⟨hr, -⟩ := hrel m hm
    rw [hop] at hr
    cases hr
  · obtain ⟨hr, -⟩ := hrel m hm
    rw [hop] at hr
    cases hr
  · cases (hrel m hm).2.symm.trans hf

/-- How `_dial` ends when its compensating writes succeed; `own` is the call it has created. -/
inductive Ending (cfg : Config) (campaign : Campaign) (pair : ReservationPair)
    (own : Option DocId) : List PyMoment → Except Exn Bool → Prop where
  | recorded {h : List PyMoment} (hreg : Regular cfg campaign h) (hover : HandedOver h) :
      Ending cfg campaign pair own h (.ok true)
  | released {h : List PyMoment} (hreg : Regular cfg campaign h) (hfreed : Freed pair h)
      (hended : ∀ c ∈ own, ∃ m ∈ h, HasEnded c (m.left exec)) :
      Ending cfg campaign pair own h (.ok false)
  /-- Another thread has taken the call on, or ended it. -/
  | overtaken {p rest : List PyMoment} {m : PyMoment} {callId : DocId}
      (hp : Underway cfg campaign p)
      (hop : m.op = .transitionCall callId .INITIATED none) (hs : m.env.strikes m.op = none)
      (hno : ∀ d, m.found.calls.get? callId = some d → ¬ CallRepo.transitionFilter .INITIATED d)
      (hfreed : Freed pair rest)
      (hrest : ∀ m' ∈ rest, releases m'.op = true ∧ m'.env.strikes m'.op = none) :
      Ending cfg campaign pair own (p ++ m :: rest) (.ok false)
  | struck {p : List PyMoment} {m : PyMoment} {f : Fault}
      (hp : Underway cfg campaign p) (hop : undoes m.op = false)
      (hs : m.env.strikes m.op = some f) (hescapes : tolerated m.op f.exn = false)
      (horig : ∀ c, RecordsId c m → Originated c p) :
      Ending cfg campaign pair own (p ++ [m]) (.error f.exn)
  /-- The registry does not know the provider, or `create_call` does not find the call. -/
  | stranded {h : List PyMoment} {e : Exn} (he : e ≠ .cancelled)
      (hstanding : ∀ m ∈ h, undoes m.op = false ∧ ∀ c, ¬ RecordsId c m)
      (hlost : (∃ m ∈ h, binds m.op = true ∧ m.env.strikes m.op = none)
          ∧ campaign.providerName ∉ cfg.providers
        ∨ ∃ m ∈ h, ∃ key, m.op = .findCallByIdempotencyKey key ∧ m.env.strikes m.op = none
          ∧ CallRepo.findByIdempotencyKey key m.found.calls = none) :
      Ending cfg campaign pair own h (.error e)

/-- The calls are as they always are, and the call the dial has created is there. -/
def Lawful (own : Option DocId) (h : List PyMoment) : Prop :=
  ∀ m ∈ h, CallsRanked m.found.calls ∧ ∀ c ∈ own, m.found.calls.get? c ≠ none

/-- What is left of a dial, `x`, ends well after the moments `p`. -/
def Finishes (cfg : Config) (campaign : Campaign) (pair : ReservationPair) (own : Option DocId)
    (p : List PyMoment) (x : Py Bool) : Prop :=
  ∀ h r, x.Passes exec h r → UndoingSucceeds h → Lawful own h →
    Ending cfg campaign pair own (p ++ h) r

theorem Finishes.after {q h' : List PyMoment} {x : Py Bool} {r : Except Exn Bool}
    (hx : Finishes cfg campaign pair own (p ++ q) x) (hpass : x.Passes exec h' r)
    (hundoing : UndoingSucceeds (q ++ h')) (hlawful : Lawful own (q ++ h')) :
    Ending cfg campaign pair own (p ++ (q ++ h')) r := by
  rw [← List.append_assoc]
  exact hx h' r hpass (fun m hm => hundoing m (List.mem_append_right _ hm))
    (fun m hm => hlawful m (List.mem_append_right _ hm))

/-- **One operation of a dial that is underway**: it raises and that is the end, or the dial goes
on. -/
theorem Finishes.call {o : Op} {f : Res o → Py Bool} (hp : Underway cfg campaign p)
    (ho : inserts o = false) (hundo : undoes o = false) (hescapes : ∀ e, tolerated o e = false)
    (horig : ∀ c id, o = .attachProviderCallId c id → Originated c p)
    (hf : ∀ σ env a, env.strikes o = none → (apply env o σ).1 = .ok a →
      Finishes cfg campaign pair own (p ++ [⟨o, σ, env⟩]) (f a)) :
    Finishes cfg campaign pair own p ((SmartDialer.call o).bind f) := by
  intro h r hpass hundoing hlawful
  obtain ⟨σ, env, h', rfl, ⟨hs, a, ha, hrest⟩ | ⟨fault, hs, rfl, rfl⟩⟩ := passes_call_bind ho hpass
  · exact (hf σ env a hs ha).after hrest hundoing hlawful
  · refine .struck hp hundo hs (hescapes _) fun c hrec => ?_
    obtain ⟨id, d, hop, -⟩ := hrec
    exact horig c id hop

/-- An operation that neither decides nor records anything. -/
theorem Finishes.steady {o : Op} {f : Res o → Py Bool} (hp : Underway cfg campaign p)
    (ho : inserts o = false) (hsteady : steady o = true) (hescapes : ∀ e, tolerated o e = false)
    (hf : ∀ σ env a, (apply env o σ).1 = .ok a → Underway cfg campaign (p ++ [⟨o, σ, env⟩]) →
      Finishes cfg campaign pair own (p ++ [⟨o, σ, env⟩]) (f a)) :
    Finishes cfg campaign pair own p ((SmartDialer.call o).bind f) := by
  refine .call hp ho (not_undoes_of_steady hsteady) hescapes (fun c id hop => ?_)
    fun σ env a hs ha => hf σ env a ha (hp.append (.steady hsteady fun fault hstruck => ?_))
  · rw [hop] at hsteady
    cases hsteady
  · cases hs.symm.trans hstruck

/-- A release frees the pair and ends the dial. -/
theorem Finishes.releasing {outcome : BorrowerReleaseOutcome} (hp : Regular cfg campaign p)
    (hended : ∀ c ∈ own, ∃ m ∈ p, HasEnded c (m.left exec)) :
    Finishes cfg campaign pair own p ((release cfg pair outcome).bind fun _ => .ret false) := by
  intro h r hpass hundoing _
  rcases (Prog.passes_bind _ _ _).mp hpass with ⟨h₁, h₂, _, rfl, hrel, hret⟩ | ⟨e, hrel, -⟩
  · obtain ⟨rfl, rfl⟩ := (Prog.passes_ret _ _).mp hret
    rw [List.append_nil] at hundoing ⊢
    obtain ⟨-, hfreed, hrest⟩ := passes_release_freed hrel hundoing
    refine .released (hp.append (.of_releases hrest))
      (hfreed.mono fun _ => List.mem_append_right _) fun c hc => ?_
    obtain ⟨m, hm, hterm⟩ := hended c hc
    exact ⟨m, List.mem_append_left _ hm, hterm⟩
  · cases (passes_release_freed hrel hundoing).1

/-- The call is failed, and the pair given back. -/
theorem Finishes.failing {callId : DocId} {reason : Option String} (hp : Underway cfg campaign p)
    (hown : ∀ c ∈ own, c = callId) :
    Finishes cfg campaign pair own p ((SmartDialer.call (.transitionCall callId .FAILED reason)).bind
      fun _ => (release cfg pair .RETRY).bind fun _ => .ret false) := by
  intro h r hpass hundoing hlawful
  obtain ⟨σ, env, h', rfl, ⟨hs, a, -, hrest⟩ | ⟨f, hf, -, -⟩⟩ := passes_call_bind rfl hpass
  · have hfailed : Regular cfg campaign [⟨.transitionCall callId .FAILED reason, σ, env⟩] := by
      refine .single rfl (fun key hop => ?_) (fun c hop => ?_) fun f hf => ?_
      · cases hop
      · cases hop
      · cases hs.symm.trans hf
    have hended : ∀ c ∈ own, ∃ m ∈ p ++ [⟨.transitionCall callId .FAILED reason, σ, env⟩],
        HasEnded c (m.left exec) := by
      intro c hc
      obtain ⟨hranked, hcall⟩ := hlawful _ List.mem_cons_self
      cases hown c hc
      exact ⟨_, List.mem_append_right _ (List.mem_singleton_self _),
        hasEnded_of_failed rfl hs hranked (hcall _ hc)⟩
    exact (Finishes.releasing (hp.toRegular.append hfailed) hended).after hrest hundoing hlawful
  · cases (hundoing _ List.mem_cons_self rfl).symm.trans hf

end Endings

end CallAllocator

end SmartDialer
