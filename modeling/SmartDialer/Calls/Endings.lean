import SmartDialer.Calls.Failures

/-!
# How a dial ends

The endings of `_dial` when its compensating writes succeed, read off the code from its last step
back to its first: each part of the dial `Finishes` after any moments that leave it underway.

The moments of an execution are split at each `bind`, and what has happened before is carried along
as `p`, so that an ending can be read off the whole list. Three things are kept track of: the dial
is underway, the call it has created is known, and the provider is registered if it gets that far.
-/

namespace SmartDialer

open DocStore Concurrent

namespace CallAllocator

section Endings

variable {cfg : Config} {campaign : Campaign} {pair : ReservationPair} {own : Option DocId}
  {h p : List PyMoment}

/-! ## From the end of a dial to its start

Each lemma is for the rest of `_dial` from some point on. It asks of the moments before that the
dial is underway and passes the same on to the next lemma. -/

theorem Originated.append {callId : DocId} {p' : List PyMoment} (h : Originated callId p) :
    Originated callId (p ++ p') := by
  obtain ⟨m, hm, horig⟩ := h
  exact ⟨m, List.mem_append_left _ hm, horig⟩

/-- The way out when the provider's id is refused. -/
theorem Finishes.hangingUp {callId : DocId} {id reason : Option String}
    (hp : Underway cfg campaign p) (hprov : campaign.providerName ∈ cfg.providers)
    (hown : ∀ c ∈ own, c = callId) :
    Finishes cfg campaign pair own p ((hangup cfg campaign.providerName id).bind fun _ =>
      (SmartDialer.call (.transitionCall callId .FAILED reason)).bind fun _ =>
        (release cfg pair .RETRY).bind fun _ => .ret false) := by
  intro h r hpass hundoing hlawful
  rcases (Prog.passes_bind _ _ _).mp hpass with ⟨h₁, h₂, _, rfl, hleft, hrest⟩ | ⟨e, hleft, rfl⟩
  · obtain ⟨σ, env, rfl, ⟨hcaught, -⟩ | ⟨f, -, -, hr⟩⟩ := passes_hangup_cases hprov hleft
    · have hasked : Underway cfg campaign [⟨.hangupCall campaign.providerName id, σ, env⟩] :=
        .steady rfl hcaught
      exact (Finishes.failing (hp.append hasked) hown).after hrest hundoing hlawful
    · cases hr
  · obtain ⟨σ, env, rfl, ⟨-, hr⟩ | ⟨f, hs, hescapes, hr⟩⟩ := passes_hangup_cases hprov hleft
    · cases hr
    · cases hr
      exact .struck hp rfl hs hescapes fun c hrec => absurd hrec (not_records (by nofun) c)

/-- From the accepted originate on. The dial records the provider's id. If that id is taken, or the
call has one already, the dial hangs up and fails the call. -/
theorem Finishes.accepted {callId : DocId} {result : OriginateResult} (hp : Underway cfg campaign p)
    (hprov : campaign.providerName ∈ cfg.providers) (horig : Originated callId p)
    (hown : ∀ c ∈ own, c = callId) :
    Finishes cfg campaign pair own p (dialAccepted cfg campaign pair callId result) := by
  unfold dialAccepted
  refine .call hp rfl rfl (fun _ => rfl) (fun c id hop => ?_) fun σ env attached hs ha => ?_
  · cases hop
    exact horig
  · have hattach : Regular cfg campaign
        [⟨.attachProviderCallId callId result.providerCallId, σ, env⟩] := by
      refine .single rfl (fun key hop => ?_) (fun c hop => ?_) fun f hf => ?_
      · cases hop
      · cases hop
      · cases hs.symm.trans hf
    have hnow : attached
        = (CallRepo.attachProviderCallId env.now callId result.providerCallId σ.calls).1 :=
      (Except.ok.inj ha).symm
    -- the id is recorded and the dial succeeds, or it cannot be and the dial hangs up
    rcases attach_answer env.now result.providerCallId σ with ⟨d, hd, hsome⟩ | ⟨hno, hnone⟩
    · rw [hsome] at hnow
      subst hnow
      intro h r hpass _ _
      obtain ⟨rfl, rfl⟩ := (Prog.passes_ret _ _).mp hpass
      rw [List.append_nil]
      refine .recorded (hp.toRegular.append hattach) ⟨callId, horig.append, _,
        List.mem_append_right _ (List.mem_singleton_self _), _, d, rfl, hd, ?_⟩
      show env.lands _ = true
      unfold Env.lands
      rw [hs]
    · rw [hnone] at hnow
      subst hnow
      refine .hangingUp (hp.append ⟨hattach, fun m hm => ?_, fun m hm c hrec => ?_⟩) hprov hown
      · cases List.mem_singleton.mp hm
        rfl
      · cases List.mem_singleton.mp hm
        obtain ⟨id, d, hop, hd, -⟩ := hrec
        cases hop
        exact hno d hd

/-- The wait for the provider's answer, whose exceptions are outcomes like any other. An exception
that `_originate` does not catch is raised again, and the dial ends with it. -/
theorem Finishes.awaiting {name : String} {request : OriginateRequest}
    {g : OriginateResult ⊕ Exn → Py Bool} (hp : Underway cfg campaign p)
    (hraise : ∀ e, tolerated (.awaitOriginate name request) e = false → g (.inr e) = .raise e)
    (hg : ∀ σ env outcome, (∀ e, outcome = .inr e → tolerated (.awaitOriginate name request) e = true) →
      Underway cfg campaign (p ++ [⟨.awaitOriginate name request, σ, env⟩]) →
      Finishes cfg campaign pair own (p ++ [⟨.awaitOriginate name request, σ, env⟩]) (g outcome)) :
    Finishes cfg campaign pair own p
      ((((SmartDialer.call (.awaitOriginate name request)).bind fun a => .ret (.inl a)).catching
        fun e => .ret (.inr e)).bind g) := by
  intro h r hpass hundoing hlawful
  rcases (Prog.passes_bind _ _ _).mp hpass with ⟨h₁, h₂, outcome, rfl, hawait, hrest⟩ | ⟨e, hawait, -⟩
  · obtain ⟨σ, env, rfl, houtcome⟩ := passes_outcome hawait
    have hgo : (∀ e, outcome = .inr e → tolerated (.awaitOriginate name request) e = true) →
        Underway cfg campaign [⟨.awaitOriginate name request, σ, env⟩] →
        Ending cfg campaign pair own (p ++ ([⟨.awaitOriginate name request, σ, env⟩] ++ h₂)) r := by
      intro htol hm
      exact (hg σ env outcome htol (hp.append hm)).after hrest hundoing hlawful
    rcases houtcome with ⟨a, ha, ho⟩ | ⟨e, he, ho⟩
    · cases ho
      refine hgo (fun e he => by cases he) (.steady rfl fun f hf => ?_)
      unfold exec at ha
      rw [show env.strikes (.awaitOriginate name request) = some f from hf] at ha
      cases ha
    · cases ho
      -- the answer cannot fail by itself
      obtain ⟨f, hs, rfl⟩ : ∃ f, env.strikes (.awaitOriginate name request) = some f ∧ f.exn = e := by
        rcases exec_cases env (.awaitOriginate name request) σ with hexec | ⟨f, hs, -, hexec⟩
        · rw [hexec] at he
          cases he
        · rw [hexec] at he
          exact ⟨f, hs, Except.error.inj he⟩
      cases htol : tolerated (.awaitOriginate name request) f.exn with
      | true =>
        refine hgo (fun e he => ?_) (.steady rfl fun f' hf' => ?_)
        · cases he
          exact htol
        · cases hs.symm.trans hf'
          exact htol
      | false =>
        rw [hraise _ htol] at hrest
        obtain ⟨rfl, rfl⟩ := (Prog.passes_raise _ _).mp hrest
        rw [List.append_nil]
        exact .struck hp rfl hs htol fun c hrec => absurd hrec (not_records (by nofun) c)
  · obtain ⟨σ, env, -, ⟨a, -, ha⟩ | ⟨e', -, he'⟩⟩ := passes_outcome hawait
    · cases ha
    · cases he'

/-- `_originate`, once the provider is found in the registry. Every outcome leads to a health sample
and then to the rest `k` of the dial, which is what has to be shown to finish. -/
theorem Finishes.originating {callId : DocId} {k : Option OriginateResult → Py Bool}
    (hp : Underway cfg campaign p) (hprov : campaign.providerName ∈ cfg.providers)
    (hk : ∀ q answer, Underway cfg campaign q → Originated callId q →
      Finishes cfg campaign pair own q (k answer)) :
    Finishes cfg campaign pair own p ((originate cfg campaign pair callId).bind k) := by
  unfold originate providerRegistryGet
  rw [if_pos hprov]
  simp only [Prog.bind_def, Prog.pure_def, Prog.bind_assoc, Prog.ret_bind]
  refine .steady hp rfl rfl (fun _ => rfl) fun σ env _ _ hp₁ => ?_
  refine .awaiting hp₁ (fun e he => ?_) fun σ' env' outcome htol hp₂ => ?_
  · cases e with
    | providerTimeout => cases he
    | providerRejected reason => cases he
    | timeout => cases he
    | _ => rfl
  · have horig : ∀ q, Originated callId (p ++ [⟨.originateCall campaign.providerName
        { callId := callId, campaignId := campaign.id, phoneNumber := pair.borrower.phoneNumber,
          timeoutSeconds := cfg.settings.PROVIDER_TIMEOUT_SECONDS }, σ, env⟩] ++ q) := fun q =>
      Originated.append ⟨_, List.mem_append_right _ (List.mem_singleton_self _), _, _, rfl, rfl⟩
    -- all three ways to answer record a health sample and go on
    rcases outcome with result | e
    · simp only [Prog.bind_assoc, Prog.ret_bind]
      refine .steady hp₂ rfl rfl (fun _ => rfl) fun _ _ _ _ hp₃ => ?_
      exact hk _ _ hp₃ (horig _).append
    · cases e with
      | providerTimeout | timeout =>
        simp only [Prog.bind_assoc, Prog.ret_bind]
        refine .steady hp₂ rfl rfl (fun _ => rfl) fun _ _ _ _ hp₃ => ?_
        exact hk _ _ hp₃ (horig _).append
      | providerRejected reason =>
        simp only [Prog.bind_assoc, Prog.ret_bind]
        refine .steady hp₂ rfl rfl (fun _ => rfl) fun _ _ _ _ hp₃ => ?_
        exact hk _ _ hp₃ (horig _).append
      | _ => cases htol _ rfl

/-- `_dial` from the `INITIATED` transition on. If the provider is not registered the registry
raises with the agent already `DIALING`, and the dial is stranded. -/
theorem Finishes.initiated {callId : DocId} (hp : Underway cfg campaign p)
    (hown : ∀ c ∈ own, c = callId) :
    Finishes cfg campaign pair own p (dialInitiated cfg campaign pair callId) := by
  unfold dialInitiated
  rw [show transitionAgent pair.agent.id .RESERVED .DIALING .ALLOCATOR pair.agent.stateVersion
    = SmartDialer.call (.transitionAgent pair.agent.id .RESERVED .DIALING .ALLOCATOR
      pair.agent.stateVersion) from rfl]
  refine .steady hp rfl rfl (fun _ => rfl) fun _ _ _ _ hp₁ => ?_
  refine .call hp₁ rfl rfl (fun _ => rfl) (fun c id hop => by cases hop) fun σ env _ hs _ => ?_
  by_cases hprov : campaign.providerName ∈ cfg.providers
  · have hbind : Underway cfg campaign [⟨.bindCall pair.agent.id pair.workerId callId, σ, env⟩] :=
      .single hs rfl nofun (fun _ => hprov) nofun nofun
    refine .originating (hp₁.append hbind) hprov fun q answer hq horig => ?_
    -- accepted, rejected, or timed out
    cases answer with
    | none => exact .failing hq hown
    | some result =>
      cases haccepted : result.accepted with
      | true =>
        simp only [haccepted, if_true]
        exact .accepted hq hprov horig hown
      | false =>
        simp only [haccepted, Bool.false_eq_true, if_false]
        exact .failing hq hown
  · -- the registry raises, and nothing takes back what the dial has done
    intro h r hpass _ _
    unfold originate providerRegistryGet at hpass
    rw [if_neg hprov] at hpass
    obtain ⟨rfl, rfl⟩ := (Prog.passes_raise _ _).mp hpass
    rw [List.append_nil]
    exact .stranded (fun he => by cases he) (hp₁.standing_append rfl nofun)
      (Or.inl ⟨⟨_, List.mem_append_right _ (List.mem_singleton_self _), rfl, hs⟩, hprov⟩)

/-- What `_dial` does with the call that `create_call` answers. A queued call is moved on,
unless somebody else has moved it; any other call belongs to an earlier dial, and the pair is
given back. -/
theorem Finishes.taken {created : Call} (hp : Underway cfg campaign p)
    (hown : ∀ c ∈ own, c = created.id) (hqueued : own ≠ none → created.state = .QUEUED) :
    Finishes cfg campaign pair own p
      (if created.state ≠ .QUEUED then (release cfg pair .RELEASED).bind fun _ => .ret false
      else (SmartDialer.call (.transitionCall created.id .RESERVED none)).bind fun _ =>
        (SmartDialer.call (.transitionCall created.id .INITIATED none)).bind fun initiated =>
          match initiated with
          | none => (release cfg pair .RELEASED).bind fun _ => .ret false
          | some _ => dialInitiated cfg campaign pair created.id) := by
  by_cases hstate : created.state = .QUEUED
  · rw [if_neg (not_not_intro hstate)]
    refine .steady hp rfl rfl (fun _ => rfl) fun _ _ _ _ hp₁ => ?_
    refine .call hp₁ rfl rfl (fun _ => rfl) (fun c id hop => by cases hop) fun σ env initiated hs ha => ?_
    have hnow : initiated = (CallRepo.transitionCall env.now created.id .INITIATED none σ.calls).1 :=
      (Except.ok.inj ha).symm
    rcases CallRepo.transitionCall_cases env.now created.id .INITIATED none σ.calls
      with ⟨d, hd, hfilter, hsome, -, -⟩ | ⟨hno, hnone, -⟩
    · rw [hsome] at hnow
      subst hnow
      refine .initiated (hp₁.append (.single hs rfl nofun nofun nofun fun c hop => ?_)) hown
      cases hop
      exact ⟨d, hd, hfilter⟩
    -- somebody has moved the call meanwhile, and the pair is given back
    · rw [hnone] at hnow
      subst hnow
      intro h r hpass hundoing _
      rcases (Prog.passes_bind _ _ _).mp hpass with ⟨h₁, h₂, _, rfl, hrel, hret⟩ | ⟨e, hrel, -⟩
      · obtain ⟨rfl, rfl⟩ := (Prog.passes_ret _ _).mp hret
        rw [List.append_nil] at hundoing ⊢
        obtain ⟨-, hfreed, hrest⟩ := passes_release_freed hrel hundoing
        rw [List.append_assoc]
        exact .overtaken hp₁ rfl hs hno hfreed hrest
      · cases (passes_release_freed hrel hundoing).1
  -- a duplicate that has got further: only a lookup by key finds one
  · rw [if_pos hstate]
    refine .releasing hp.toRegular fun c hc => absurd (hqueued fun hnone => ?_) hstate
    rw [hnone] at hc
    cases hc

/-! ### Creating the call -/

/-- How `create_call` ends: the insertion answers, or it raises, or the key is taken and the call
that has it is looked up. -/
inductive Creation (draft : CallRepo.CallDraft) : List PyMoment → Except Exn Call → Prop where
  | created {σ : Store} {env : Env} {created : Call} (hs : env.strikes (.insertCall draft) = none)
      (hr : (exec env (.insertCall draft) σ).1 = .ok created) :
      Creation draft [⟨.insertCall draft, σ, env⟩] (.ok created)
  | struck {σ : Store} {env : Env} {f : Fault} (hs : env.strikes (.insertCall draft) = some f) :
      Creation draft [⟨.insertCall draft, σ, env⟩] (.error f.exn)
  | looked {σ σ' : Store} {env env' : Env} {r : Except Exn Call}
      (hs : env.strikes (.insertCall draft) = none) (hsame : (exec env (.insertCall draft) σ).2 = σ)
      (hr : env'.strikes (.findCallByIdempotencyKey draft.idempotencyKey) = none
          ∧ (match CallRepo.findByIdempotencyKey draft.idempotencyKey σ'.calls with
            | some existing => r = .ok existing
            | none => r = .error .validationError)
        ∨ ∃ f, env'.strikes (.findCallByIdempotencyKey draft.idempotencyKey) = some f
          ∧ r = .error f.exn) :
      Creation draft [⟨.insertCall draft, σ, env⟩,
        ⟨.findCallByIdempotencyKey draft.idempotencyKey, σ', env'⟩] r

/-- The three ways of `create_call`. It creates the call, or it is struck, or it finds the key taken
and looks the call up. -/
theorem passes_createCall {draft : CallRepo.CallDraft} {r : Except Exn Call}
    (hpass : (CallRepo.createCall draft).Passes exec h r) : Creation draft h r := by
  unfold CallRepo.createCall at hpass
  rcases (Prog.passes_catching _ _ _).mp hpass with ⟨a, hcall, rfl⟩ | ⟨h₁, h₂, e, rfl, hcall, hhandler⟩
  · obtain ⟨σ, env, rfl, ⟨hs, ha⟩ | ⟨f, -, ha⟩⟩ := passes_call hcall
    · exact .created hs (by rw [exec_of_unstruck hs, ha])
    · cases ha
  · obtain ⟨σ, env, rfl, ⟨hs, he⟩ | ⟨f, hs, he⟩⟩ := passes_call hcall
    · -- only a taken key makes the insertion fail
      have hkey : (apply env (.insertCall draft) σ).1 = .error .duplicateKey
          ∧ (apply env (.insertCall draft) σ).2 = σ := by
        revert he
        simp only [apply]
        cases CallRepo.insertCall draft env.newId env.now σ.calls with
        | none => exact fun _ => ⟨rfl, rfl⟩
        | some r => exact fun he => by cases he
      obtain rfl : e = .duplicateKey := Except.error.inj (he.trans hkey.1)
      have hsame : (exec env (.insertCall draft) σ).2 = σ := by
        rw [exec_of_unstruck hs]
        exact hkey.2
      obtain ⟨σ', env', h', rfl, ⟨hs', existing, ha, hrest⟩ | ⟨f, hs', rfl, rfl⟩⟩ :=
        passes_call_bind rfl hhandler
      · have hfound : existing = CallRepo.findByIdempotencyKey draft.idempotencyKey σ'.calls :=
          (Except.ok.inj ha).symm
        cases existing with
        | some existing =>
          obtain ⟨rfl, rfl⟩ := (Prog.passes_ret _ _).mp hrest
          exact .looked hs hsame (Or.inl ⟨hs', by rw [← hfound]⟩)
        | none =>
          obtain ⟨rfl, rfl⟩ := (Prog.passes_raise _ _).mp hrest
          exact .looked hs hsame (Or.inl ⟨hs', by rw [← hfound]⟩)
      · exact .looked hs hsame (Or.inr ⟨f, hs', rfl⟩)
    -- the insertion was struck: the exception is no `DuplicateKeyError`, so it goes through
    · cases he
      have hraises := strikes_raises hs
      split at hhandler
      · next hdup =>
        rw [hdup] at hraises
        cases hraises
      · obtain ⟨rfl, rfl⟩ := (Prog.passes_raise _ _).mp hhandler
        exact .struck hs

/-! ### The whole dial -/

/-- The calls are as they always are, and each moment finds what the ones before it have left. -/
structure Orderly (h : List PyMoment) : Prop where
  ranked : ∀ m ∈ h, CallsRanked m.found.calls
  evolves : h.Pairwise fun m m' => CallsEvolve (m.left exec).calls m'.found.calls

/-- How `_dial` ends, and which call it has created. -/
def EndsWell (cfg : Config) (campaign : Campaign) (pair : ReservationPair) (p h : List PyMoment)
    (r : Except Exn Bool) : Prop :=
  ∃ own, Ending cfg campaign pair own (p ++ h) r ∧ ∀ m ∈ h, ∀ c, Creates c m → own = some c

theorem performs_dialInitiated {callId : DocId} :
    (dialInitiated cfg campaign pair callId).Performs fun o => inserts o = false := by
  have hfailing : ∀ reason, ((SmartDialer.call (.transitionCall callId .FAILED reason)).bind fun _ =>
      (release cfg pair .RETRY).bind fun _ => Prog.ret false).Performs fun o => inserts o = false :=
    fun _ => performs_fail rfl rfl fun _ _ => rfl
  unfold dialInitiated
  refine .bind (performs_transitionAgent rfl) fun _ => .bind (Prog.performs_perform.mpr rfl) fun _ =>
    .bind ?_ fun answer => ?_
  · unfold originate providerRegistryGet
    refine .bind ?_ fun _ => .bind (Prog.performs_perform.mpr rfl) fun _ => .bind (.catching
      (.bind (Prog.performs_perform.mpr rfl) fun _ => trivial) fun _ => trivial) fun outcome => ?_
    · split <;> trivial
    · split
      all_goals first
        | exact .bind (Prog.performs_perform.mpr rfl) fun _ => Prog.performs_ret _
        | exact trivial
  · cases answer with
    | none => exact hfailing _
    | some result =>
      dsimp only
      split
      · exact performs_dialAccepted rfl rfl (fun _ => rfl) rfl fun _ _ => rfl
      · exact hfailing _

/-- The rest of a dial after `create_call` inserts nothing. -/
theorem performs_taken {created : Call} :
    (if created.state ≠ .QUEUED then (release cfg pair .RELEASED).bind fun _ => Prog.ret false
      else (SmartDialer.call (.transitionCall created.id .RESERVED none)).bind fun _ =>
        (SmartDialer.call (.transitionCall created.id .INITIATED none)).bind fun initiated =>
          match initiated with
          | none => (release cfg pair .RELEASED).bind fun _ => Prog.ret false
          | some _ => dialInitiated cfg campaign pair created.id).Performs
      fun o => inserts o = false := by
  have hreleasing : ((release cfg pair .RELEASED).bind fun _ => Prog.ret false).Performs
      fun o => inserts o = false :=
    .bind (performs_release rfl fun _ _ => rfl) fun _ => Prog.performs_ret false
  split
  · exact hreleasing
  · refine .bind (Prog.performs_perform.mpr rfl) fun _ => .bind (Prog.performs_perform.mpr rfl)
      fun initiated => ?_
    cases initiated with
    | none => exact hreleasing
    | some _ => exact performs_dialInitiated

theorem not_creates {m : PyMoment} (ho : inserts m.op = false) (c : DocId) : ¬ Creates c m :=
  fun hc => absurd ((insert_of_creates hc).1.symm.trans ho) (by decide)

/-- `create_call` creates no call when it finds its key taken. -/
theorem not_creates_looked {draft : CallRepo.CallDraft} {σ σ' : Store} {env env' : Env}
    (hsame : (exec env (.insertCall draft) σ).2 = σ) (c : DocId) :
    ∀ m ∈ [(⟨.insertCall draft, σ, env⟩ : PyMoment),
      ⟨.findCallByIdempotencyKey draft.idempotencyKey, σ', env'⟩], ¬ Creates c m := by
  intro m hm hc
  rcases List.mem_cons.mp hm with rfl | hm
  · have hstays : (exec env (.insertCall draft) σ).2.calls.get? c ≠ none := hc.2
    rw [hsame] at hstays
    exact hstays hc.1
  · cases List.mem_singleton.mp hm
    exact not_creates rfl c hc

theorem underway_insert {σ : Store} {env : Env}
    (hs : env.strikes (.insertCall (callDraft campaign pair)) = none) :
    Underway cfg campaign [⟨.insertCall (callDraft campaign pair), σ, env⟩] :=
  .steady rfl fun f hf => by cases hs.symm.trans hf

/-- **A dial that has got its call** from `create_call`, its own or one with its key, ends as the
rest of it does. -/
theorem Creation.ends {h₁ h₂ : List PyMoment} {created : Call} {r : Except Exn Bool}
    (hcreation : Creation (callDraft campaign pair) h₁ (.ok created)) (hp : Underway cfg campaign p)
    (horderly : Orderly (h₁ ++ h₂)) (hnone : ∀ m ∈ h₂, ∀ c, ¬ Creates c m)
    (hfinish : ∀ own, Underway cfg campaign (p ++ h₁) → (∀ c ∈ own, c = created.id) →
      (own ≠ none → created.state = .QUEUED) → Lawful own h₂ →
      Ending cfg campaign pair own (p ++ (h₁ ++ h₂)) r) :
    EndsWell cfg campaign pair p (h₁ ++ h₂) r := by
  have hranked : ∀ m ∈ h₂, CallsRanked m.found.calls :=
    fun m hm => horderly.ranked m (List.mem_append_right _ hm)
  generalize hres : Except.ok created = res at hcreation
  -- a call of the dial's own, or one that it has found
  cases hcreation with
  | @created σ env created' hs hr =>
    cases hres
    obtain ⟨hdoc, -, hget⟩ := insertCall_ok hr
    refine ⟨some created.id, hfinish _ (hp.append (underway_insert hs))
      (fun c hc => (Option.some.inj hc).symm) (fun _ => ?_)
      fun m hm => ⟨hranked m hm, fun c hc => ?_⟩, fun m hm c hc => ?_⟩
    · rw [hdoc]
      rfl
    · -- the call it has created is still there later
      cases hc
      have hev := List.rel_of_pairwise_cons horderly.evolves hm
      obtain ⟨d, hd, -⟩ := hev created.id created hget
      rw [hd]
      exact Option.some_ne_none d
    · rcases List.mem_append.mp hm with hm | hm
      · cases List.mem_singleton.mp hm
        rw [(insert_of_creates hc).2, hdoc]
        rfl
      · exact absurd hc (hnone m hm c)
  | struck hs => cases hres
  | @looked σ σ' env env' r' hs hsame hr =>
    cases hres
    rcases hr with ⟨hs', hfound⟩ | ⟨f, -, hr⟩
    · have hfind : Underway cfg campaign [⟨.findCallByIdempotencyKey
          (callDraft campaign pair).idempotencyKey, σ', env'⟩] := by
        refine .single hs' rfl nofun nofun (fun key hop hlost => ?_) nofun
        cases hop
        rw [hlost] at hfound
        cases hfound
      refine ⟨none, hfinish none (hp.append ((underway_insert hs).append hfind))
        (fun c hc => by cases hc) (fun hne => absurd rfl hne)
        fun m hm => ⟨hranked m hm, fun c hc => by cases hc⟩, fun m hm c hc => ?_⟩
      rcases List.mem_append.mp hm with hm | hm
      · exact absurd hc (not_creates_looked hsame c m hm)
      · exact absurd hc (hnone m hm c)
    · cases hr

/-- **A dial that has got no call**: the insertion was struck, or the key was taken and the call
that has it could not be read. -/
theorem Creation.ends_error {e : Exn} (hcreation : Creation (callDraft campaign pair) h (.error e))
    (hp : Underway cfg campaign p) : EndsWell cfg campaign pair p h (.error e) := by
  generalize hres : (Except.error e : Except Exn Call) = res at hcreation
  cases hcreation with
  | created hs hr => cases hres
  -- struck while inserting: the call may have been written all the same
  | @struck σ env f hs =>
    cases hres
    refine ⟨some env.newId,
      .struck hp rfl hs rfl fun c hrec => absurd hrec (not_records (by nofun) c),
      fun m hm c hc => ?_⟩
    cases List.mem_singleton.mp hm
    rw [(insert_of_creates hc).2]
  | @looked σ σ' env env' r' hs hsame hr =>
    have hinsert : Underway cfg campaign (p ++ [⟨.insertCall (callDraft campaign pair), σ, env⟩]) :=
      hp.append (underway_insert hs)
    refine ⟨none, ?_, fun m hm c hc => absurd hc (not_creates_looked hsame c m hm)⟩
    rw [List.append_cons]
    rcases hr with ⟨hs', hfound⟩ | ⟨f, hs', rfl⟩
    · -- the key is taken and no call has it: `create_call` raises
      cases hlost : CallRepo.findByIdempotencyKey (callDraft campaign pair).idempotencyKey
          σ'.calls with
      | some existing =>
        rw [hlost] at hfound
        cases hres.trans hfound
      | none =>
        rw [hlost] at hfound
        cases hres.trans hfound
        exact .stranded (fun he => by cases he) (hinsert.standing_append rfl nofun)
          (Or.inr ⟨_, List.mem_append_right _ (List.mem_singleton_self _), _, rfl, hs', hlost⟩)
    · cases hres
      exact .struck hinsert rfl hs' rfl fun c hrec => absurd hrec (not_records (by nofun) c)

/-- **How `_dial` ends once the retry gate is open.** -/
theorem dialOpen_ends {r : Except Exn Bool} (hp : Underway cfg campaign p)
    (hpass : (dialOpen cfg campaign pair).Passes exec h r) (hundoing : UndoingSucceeds h)
    (horderly : Orderly h) : EndsWell cfg campaign pair p h r := by
  unfold dialOpen at hpass
  rcases (Prog.passes_bind _ _ _).mp hpass with ⟨h₁, h₂, created, rfl, hcreate, hrest⟩
    | ⟨e, hcreate, rfl⟩
  · refine (passes_createCall hcreate).ends hp horderly
      (fun m hm => not_creates (performs_taken.of_passes hrest m hm))
      fun own hp₁ hown hqueued hlawful => ?_
    rw [← List.append_assoc]
    exact Finishes.taken hp₁ hown hqueued h₂ r hrest
      (fun m hm => hundoing m (List.mem_append_right _ hm)) hlawful
  · exact (passes_createCall hcreate).ends_error hp

theorem straight_shouldRetry {borrower : Borrower} {name : String} :
    Straight (RetryService.shouldRetry cfg borrower name) := by
  unfold RetryService.shouldRetry
  split
  · exact .pure _
  · refine .bind (.call rfl rfl) fun now => ?_
    split
    · exact .pure _
    · exact .call rfl rfl

/-- The retry gate is asked without any risk. -/
theorem passes_shouldRetry {borrower : Borrower} {name : String} {r : Except Exn Bool}
    (hpass : (RetryService.shouldRetry cfg borrower name).Passes exec h r) :
    (∃ retry, r = .ok retry) ∧ Underway cfg campaign h ∧ ∀ m ∈ h, inserts m.op = false := by
  have hperforms : (RetryService.shouldRetry cfg borrower name).Performs fun o =>
      steady o = true ∧ inserts o = false ∧ ∀ e, o.raises e = false :=
    performs_shouldRetry ⟨rfl, rfl, fun _ => rfl⟩ ⟨rfl, rfl, fun _ => rfl⟩
  have hasks := hperforms.of_passes hpass
  have hnone : ∀ m ∈ h, ∀ f, m.env.strikes m.op ≠ some f := fun m hm f hf =>
    absurd ((strikes_raises hf).symm.trans ((hasks m hm).2.2 _)) (by decide)
  refine ⟨(straight_shouldRetry h r hpass).mp fun m hm f hf => absurd hf (hnone m hm f), ?_,
    fun m hm => (hasks m hm).2.1⟩
  have hall : ∀ m ∈ h, Underway cfg campaign [m] := fun m hm =>
    .steady (hasks m hm).1 fun f hf => absurd hf (hnone m hm f)
  clear hpass hperforms hasks hnone
  induction h with
  | nil => exact .nil
  | cons m h ih =>
    have hrest : Underway cfg campaign h := ih fun m' hm' => hall m' (List.mem_cons_of_mem _ hm')
    exact (hall m List.mem_cons_self).append hrest

/-- **How `_dial` ends.** With the retry gate in front, which may ask the clock and the provider's
health before anything is created. -/
theorem dial_ends {r : Except Exn Bool} (hpass : (dial cfg campaign pair).Passes exec h r)
    (hundoing : UndoingSucceeds h) (horderly : Orderly h) : EndsWell cfg campaign pair [] h r := by
  unfold dial at hpass
  split at hpass
  · rcases (Prog.passes_bind _ _ _).mp hpass with ⟨h₁, h₂, retry, rfl, hgate, hrest⟩ | ⟨e, hgate, -⟩
    · have hasked : _ ∧ Underway cfg campaign h₁ ∧ _ := passes_shouldRetry hgate
      obtain ⟨-, hp, hinserts⟩ := hasked
      have hundoing₂ : UndoingSucceeds h₂ := fun m hm => hundoing m (List.mem_append_right _ hm)
      have horderly₂ : Orderly h₂ := ⟨fun m hm => horderly.ranked m (List.mem_append_right _ hm),
        (List.pairwise_append.mp horderly.evolves).2.1⟩
      -- a closed gate gives the pair back; an open one goes on to the call
      cases retry with
      | false =>
        have hlawful : Lawful none h₂ := fun m hm => ⟨horderly₂.ranked m hm, fun c hc => by cases hc⟩
        refine ⟨none, Finishes.releasing hp.toRegular (fun c hc => by cases hc) h₂ r hrest hundoing₂
          hlawful, fun m hm c hc => ?_⟩
        rcases List.mem_append.mp hm with hm | hm
        · exact absurd hc (not_creates (hinserts m hm) c)
        · refine absurd hc (not_creates ?_ c)
          exact Prog.Performs.of_passes (S := fun o => inserts o = false)
            (.bind (performs_release rfl fun _ _ => rfl) fun _ => Prog.performs_ret false) hrest m hm
      | true =>
        obtain ⟨own, hending, hown⟩ := dialOpen_ends hp hrest hundoing₂ horderly₂
        refine ⟨own, hending, fun m hm c hc => ?_⟩
        rcases List.mem_append.mp hm with hm | hm
        · exact absurd hc (not_creates (hinserts m hm) c)
        · exact hown m hm c hc
    · have hasked : _ ∧ Underway cfg campaign h ∧ _ := passes_shouldRetry hgate
      obtain ⟨⟨retry, hretry⟩, -⟩ := hasked
      cases hretry
  · exact dialOpen_ends .nil hpass hundoing horderly

end Endings

end CallAllocator

end SmartDialer
