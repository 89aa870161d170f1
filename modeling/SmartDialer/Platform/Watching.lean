import SmartDialer.Ownership.Campaigns
import SmartDialer.Ownership.Exclusive
import SmartDialer.Platform.Refinement

/-!
# The checker beside the platform

Checks run beside the workers, so what a check reports is put together from answers of different
moments. The bindings come from one answer and are never found doubled; the capacity compares two
answers, and is certain when nothing happens in between.

The runs are those in which no recovery sweep runs, no operation is cancelled and no agent leaves in
his own name while reserved or on the phone (`SystemRegime.withoutRecovery`). In these every
unfinished call past the queue has a busy agent of its own, and its own borrower (`BoundApart`), at
every moment:

* `check_silent`: a check whose two queries nothing interrupts reports nothing at all;
* `checks_find_no_duplicate`: a check whose queries are answered at different moments still reports
  nothing about bindings, because these come from the first answer alone.
-/

namespace SmartDialer

open Concurrent DocStore HostFloat InvariantChecker

variable {F : Type}

/-! ## The active calls of a campaign

What `find_active` answers is looked at through two functions, the agent and the borrower of a call.
Ownership says that both are injective on it, and campaigns say that the agents are the campaign's
own; the two checks compare lengths. -/

/-- What `find_active` looks for. -/
def Call.Bound (campaignId : DocId) (d : Call) : Prop :=
  d.campaignId = campaignId ∧ d.terminal = false ∧ d.state ≠ .QUEUED

instance (campaignId : DocId) (d : Call) : Decidable (d.Bound campaignId) :=
  inferInstanceAs (Decidable (_ ∧ _ ∧ _))

theorem limited_sublist {D : Type} (limit : Int) (l : List D) : (limited limit l).Sublist l := by
  unfold limited
  split
  · exact List.Sublist.refl l
  · exact List.take_sublist _ l

/-- Every active call has a busy agent of its campaign, and no two share a party. -/
structure BoundApart (σ : Store) (campaignId : DocId) : Prop where
  busy : ∀ d ∈ σ.calls.coll.find (Call.Bound campaignId), ∃ g,
    σ.agents.get? d.agentId = some g ∧ g.campaignId = campaignId ∧ g.state.busy = true
  agents : ∀ d ∈ σ.calls.coll.find (Call.Bound campaignId),
    ∀ d' ∈ σ.calls.coll.find (Call.Bound campaignId), d.agentId = d'.agentId → d = d'
  borrowers : ∀ d ∈ σ.calls.coll.find (Call.Bound campaignId),
    ∀ d' ∈ σ.calls.coll.find (Call.Bound campaignId), d.borrowerId = d'.borrowerId → d = d'

namespace BoundApart

variable {σ : Store} {campaignId : DocId}

/-- Active calls are bound apart in every state of such a run. By ownership: where no recovery runs
and no busy agent walks away, an unfinished call holds its agent and its borrower for itself. -/
theorem of_reachable {cfg : Config} {σ₀ : Store} {w : SystemWorld}
    (hcalls : ∀ c, σ₀.calls.get? c = none)
    (h : Reachable (system cfg) SystemRegime.withoutRecovery (World.fresh σ₀) w)
    (campaignId : DocId) : BoundApart w.store campaignId := by
  obtain ⟨hfacts, hown⟩ := own_of_reachable Discipline.pairs_governs hcalls h
  have hapart := campaignsApart_of_reachable
    (fun c d hd => absurd ((hcalls c).symm.trans hd) (Option.some_ne_none d).symm) h
  have hlive : ∀ {d : Call}, d.Bound campaignId → Discipline.pairs.Live d :=
    fun hd => ⟨hd.2.1, nofun⟩
  -- two calls that share a followed party are one
  have hsame : ∀ {d d' : Call} (x : Party), d ∈ w.store.calls.coll.find (Call.Bound campaignId) →
      d' ∈ w.store.calls.coll.find (Call.Bound campaignId) →
      (x, d.createdByWorker) ∈ d.holdings → (x, d'.createdByWorker) ∈ d'.holdings → d = d' := by
    intro d d' x hd hd' hx hx'
    obtain ⟨hget, hbound⟩ := Collection.mem_find.mp hd
    obtain ⟨hget', hbound'⟩ := Collection.mem_find.mp hd'
    have htracks : Discipline.pairs.tracks x = true := by cases x <;> rfl
    have hid : d.id = d'.id :=
      hown.live_unique hfacts hget (hlive hbound) hget' (hlive hbound') hx hx' htracks
    have hsecond : w.store.calls.coll.get? d.id = some d' := hid ▸ hget'
    exact Option.some.inj (hget.symm.trans hsecond)
  refine ⟨fun d hd => ?_, fun d hd d' hd' hagent => ?_, fun d hd d' hd' hborrower => ?_⟩
  · obtain ⟨hget, hbound⟩ := Collection.mem_find.mp hd
    obtain ⟨g, hg, hbusy, -⟩ := hown.agent_held hfacts rfl hget (hlive hbound)
    obtain ⟨⟨g', hg', hk⟩, -⟩ := hapart.calls d.id d hget
    cases hg.symm.trans hg'
    exact ⟨g, hg, hk.trans hbound.1, hbusy⟩
  · exact hsame (.agent d.agentId) hd hd' List.mem_cons_self (hagent ▸ List.mem_cons_self)
  · exact hsame (.borrower d.borrowerId) hd hd' (List.mem_cons_of_mem _ List.mem_cons_self)
      (hborrower ▸ List.mem_cons_of_mem _ List.mem_cons_self)

/-- The answer of `find_active` names nobody twice. -/
theorem silent (h : BoundApart σ campaignId) (limit : Int) :
    checkDuplicateBindings (CallRepo.findActive campaignId limit σ.calls) = [] := by
  -- for either party: the answer is a part of what is found, and no two found share it
  have hnodup : ∀ key : Call → DocId, (∀ d, key d.fromMongo = key d) →
      (∀ d ∈ σ.calls.coll.find (Call.Bound campaignId),
        ∀ d' ∈ σ.calls.coll.find (Call.Bound campaignId), key d = key d' → d = d') →
      ((CallRepo.findActive campaignId limit σ.calls).map key).Nodup := by
    intro key hkey hinj
    have hmap : (CallRepo.findActive campaignId limit σ.calls).map key
        = (limited limit (σ.calls.coll.find (Call.Bound campaignId))).map key := by
      show ((limited limit (σ.calls.coll.find (Call.Bound campaignId))).map Call.fromMongo).map key
        = _
      rw [List.map_map]
      exact List.map_congr_left fun d _ => hkey d
    rw [hmap]
    exact (List.Nodup.map_on hinj (List.Nodup.of_map _ (σ.calls.coll.find_nodup _))).sublist
      ((limited_sublist limit _).map key)
  exact checkDuplicateBindings_eq_nil (hnodup _ (fun _ => rfl) h.agents)
    (hnodup _ (fun _ => rfl) h.borrowers)

/-- There are usable agents enough. -/
theorem room (h : BoundApart σ campaignId) (limit : Int) :
    (CallRepo.findActive campaignId limit σ.calls).length
      ≤ usableAgents (AgentRepo.countByState campaignId σ.agents) := by
  rw [usableAgents_eq]
  have hactive : (CallRepo.findActive campaignId limit σ.calls).length
      ≤ (σ.calls.coll.find (Call.Bound campaignId)).length := by
    show ((limited limit (σ.calls.coll.find (Call.Bound campaignId))).map Call.fromMongo).length ≤ _
    rw [List.length_map]
    exact (limited_sublist limit _).length_le
  -- each active call has an agent of its own, who is neither offline nor paused
  refine hactive.trans (Collection.length_find_le_of_injective Call.agentId (fun d hd => ?_) h.agents)
  obtain ⟨g, hg, hcampaign, hbusy⟩ := h.busy d hd
  refine ⟨g, hg, hcampaign, ?_, ?_⟩
  · intro hstate
    rw [hstate] at hbusy
    cases hbusy
  · intro hstate
    rw [hstate] at hbusy
    cases hbusy

end BoundApart

variable [FloatArith F] {pc : PlatformConfig F}

/-! ## Calls and their campaign

What the dialer keeps in every run, the platform keeps too: the invariant is that of
`Ownership.Campaigns`, and `dialer_of_reachable` brings it here. -/

/-- **A call joins an agent and a borrower of its own campaign**, whatever fails, whoever is
cancelled and whatever recovery does. -/
theorem calls_within_campaign {σ₀ : PlatformStore F} {w : PlatformWorld F}
    (h₀ : ∀ c d, σ₀.base.calls.get? c = some d → d.Within σ₀.base)
    (h : Reachable (platform pc) (platformUnder SystemRegime.anything) (World.fresh σ₀) w) :
    ∀ c d, w.store.base.calls.get? c = some d → d.Within w.store.base := by
  obtain ⟨v, hv, hstore⟩ := dialer_of_reachable (fun _ _ => trivial) (fun _ _ _ _ => trivial) h
  rw [← hstore]
  exact (campaignsApart_of_reachable h₀ hv).calls

theorem calls_within_campaign_working : ∃ d, working.store.base.calls.get? d.id = some d
    ∧ d.terminal = false ∧ d.Within working.store.base := by
  have hdialled : (working.store.base.calls.coll.find fun d => d.terminal = false).length = 1 := by
    decide +kernel
  obtain ⟨d, hfound⟩ := List.length_eq_one_iff.mp hdialled
  obtain ⟨hget, hlive⟩ := Collection.mem_find.mp (hfound.symm ▸ List.mem_singleton_self d)
  exact ⟨d, hget, hlive,
    calls_within_campaign (fun _ _ hd => by cases hd) working_reachable d.id d hget⟩

/-! ## A check in one go

Run without interruption, the check is a function of one store: two answers, both of it. -/

theorem withoutRecovery_admits (job : Job) (hjob : job ≠ .runSweeps) :
    SystemRegime.withoutRecovery.admits job := hjob

theorem withoutRecovery_looks (σ : Store) (st : Nat → Stage) (p : Nat) (a : DocId) :
    SystemRegime.withoutRecovery.guard σ st p (.findAgentById a) {} :=
  ⟨nofun, fun _ _ _ _ ho => nomatch ho⟩

/-- What an uninterrupted check answers. -/
theorem InvariantChecker.run_check {settings : Settings} {campaignId : DocId}
    {envs : Nat → PlatformEnv F} (hquiet : ∀ n, (envs n).base.fault = none) (n : Nat)
    (σ : PlatformStore F) :
    (InvariantChecker.check settings campaignId false).run platformExec envs n σ
      = (.ok (checkDuplicateBindings (CallRepo.findActive campaignId 5000 σ.base.calls)
          ++ checkCapacity (CallRepo.findActive campaignId 5000 σ.base.calls)
            (AgentRepo.countByState campaignId σ.base.agents)), σ, n + 2) := by
  have hactive : platformExec (envs n) (.inr (.findActive campaignId 5000)) σ
      = (.ok (CallRepo.findActive campaignId 5000 σ.base.calls), σ) := by
    unfold platformExec
    rw [hquiet]
    rfl
  have hcounts : platformExec (envs (n + 1)) (.inl (.countAgentsByState campaignId)) σ
      = (.ok (AgentRepo.countByState campaignId σ.base.agents), σ) := by
    unfold platformExec exec Env.strikes
    rw [hquiet]
    rfl
  unfold InvariantChecker.check ask dialer call
  simp only [Prog.bind_def, Prog.run_bind, Prog.lift_perform, Prog.run_perform, hactive, hcounts]
  rfl

/-- **A check that nothing interrupts is silent**, whenever it is made in a run without recovery
sweeps, without cancelled operations and without agents who leave while reserved or on the phone. -/
theorem check_silent {σ₀ : PlatformStore F} {w : PlatformWorld F}
    (hcalls : ∀ c, σ₀.base.calls.get? c = none)
    (h : Reachable (platform pc) (platformUnder SystemRegime.withoutRecovery) (World.fresh σ₀) w)
    {envs : Nat → PlatformEnv F} (hquiet : ∀ n, (envs n).base.fault = none) (settings : Settings)
    (campaignId : DocId) (n : Nat) :
    (InvariantChecker.check settings campaignId false).run platformExec envs n w.store
      = (.ok [], w.store, n + 2) := by
  obtain ⟨v, hv, hstore⟩ := dialer_of_reachable withoutRecovery_admits withoutRecovery_looks h
  have hapart := BoundApart.of_reachable hcalls hv campaignId
  rw [hstore] at hapart
  have hcapacity : checkCapacity (CallRepo.findActive campaignId 5000 w.store.base.calls)
      (AgentRepo.countByState campaignId w.store.base.agents) = [] := by
    unfold checkCapacity
    rw [if_pos (hapart.room 5000)]
  rw [InvariantChecker.run_check hquiet, hapart.silent, hcapacity]
  rfl

/-! ## A check among everything else

The history of a check holds the answer from which its bindings were put together, and that answer
was given by a store of the run. -/

/-- The names of the violations about bindings. -/
def bindingNames : List String :=
  ["agent_bound_to_two_active_calls", "borrower_in_two_active_calls"]

/-- The bindings reported are those of one answer. -/
def BindingsOf (campaignId : DocId) (h : PlatformHistory F)
    (violations : List InvariantViolation) : Prop :=
  ∃ activeCalls rest, (⟨.inr (.findActive campaignId 5000), .ok activeCalls⟩ : Happening
      (Op ⊕ PlatformOp F) (EitherRes Res (PlatformRes F)) Exn) ∈ h
    ∧ violations = checkDuplicateBindings activeCalls ++ rest
    ∧ ∀ v ∈ rest, v.name ∉ bindingNames

/-- What is known of a check that has ended. -/
def PlatformJob.Found : PlatformJob F → PlatformHistory F → Except Exn (PlatformOutcome F) → Prop
  | .check campaignId _, h, .ok (.violations violations) => BindingsOf campaignId h violations
  | _, _, _ => True

theorem checkCapacity_names (activeCalls : List Call) (agentCounts : AgentState → Nat) :
    ∀ v ∈ checkCapacity activeCalls agentCounts, v.name ∉ bindingNames := by
  intro v hv
  unfold checkCapacity at hv
  split at hv
  · cases hv
  · rw [List.mem_singleton.mp hv]
    show "agent_bound_calls_exceed_usable_agents" ∉ bindingNames
    decide

/-- The machine that only remembers. -/
abbrev remembering (pc : PlatformConfig F) :=
  (platform pc).emitting fun _ _ => True

/-- Nor do the checks of the final state. They speak about states and counts, and none of their
names is a name of the binding checks. -/
theorem checkFinalState_names (settings : Settings) (campaignId : DocId)
    (agentCounts : AgentState → Nat) (h : PlatformHistory F) :
    (remembering pc).Follows h (checkFinalState settings campaignId agentCounts)
      fun _ r => ∀ vs, r = .ok vs → ∀ v ∈ vs, v.name ∉ bindingNames := by
  unfold checkFinalState dialer call
  simp only [Prog.bind_def, Prog.lift_perform, Machine.follows_bind, Machine.follows_perform]
  refine ⟨trivial, fun now => ?_⟩
  cases now with
  | error e => nofun
  | ok now =>
    refine ⟨trivial, fun stale => ?_⟩
    cases stale with
    | error e => nofun
    | ok stale =>
      intro vs hvs v hv
      cases hvs
      rcases List.mem_append.mp hv with hv | hv
      -- unfinished calls that are stale
      · split at hv
        · cases hv
        · rw [List.mem_singleton.mp hv]
          show "non_terminal_call_older_than_stale_timeout" ∉ bindingNames
          decide
      -- agents left reserved
      · split at hv
        · cases hv
        · rw [List.mem_singleton.mp hv]
          show "agent_left_reserved" ∉ bindingNames
          decide

/-- Whatever a check ends with, its bindings are those of one answer. The active calls are read
once, and all reports about bindings are made from that list. -/
theorem check_bindings (settings : Settings) (campaignId : DocId) (final : Bool) :
    (remembering pc).Follows [] (InvariantChecker.check settings campaignId final)
      fun h r => ∀ vs, r = .ok vs → BindingsOf campaignId h vs := by
  unfold InvariantChecker.check ask dialer call
  simp only [Prog.bind_def, Prog.lift_perform, Machine.follows_bind, Machine.follows_perform]
  refine ⟨trivial, fun activeCalls => ?_⟩
  cases activeCalls with
  | error e => nofun
  | ok activeCalls =>
    refine ⟨trivial, fun counts => ?_⟩
    cases counts with
    | error e => nofun
    | ok counts =>
      have hfound : (⟨.inr (.findActive campaignId 5000), .ok activeCalls⟩ : Happening
          (Op ⊕ PlatformOp F) (EitherRes Res (PlatformRes F)) Exn)
          ∈ [⟨.inr (.findActive campaignId 5000), .ok activeCalls⟩]
            ++ [⟨.inl (.countAgentsByState campaignId), .ok counts⟩] :=
        List.mem_cons_self
      dsimp only
      split
      -- a final check goes on to two more queries
      · rw [Machine.follows_bind]
        refine (Machine.Follows.grows (checkFinalState_names settings campaignId counts _)).mono
          fun h r hr => ?_
        cases r with
        | error e => nofun
        | ok finalViolations =>
          intro vs hvs
          cases hvs
          refine ⟨activeCalls, _, hr.1.subset hfound, List.append_assoc _ _ _, fun v hv => ?_⟩
          rcases List.mem_append.mp hv with hv | hv
          · exact checkCapacity_names _ _ v hv
          · exact hr.2 _ rfl v hv
      · intro vs hvs
        cases hvs
        exact ⟨activeCalls, _, hfound, rfl, checkCapacity_names _ _⟩

theorem found_conforms : (remembering pc).Conforms PlatformJob.Found := by
  intro job
  by_cases hcheck : ∃ campaignId final, job = .check campaignId final
  · obtain ⟨campaignId, final, rfl⟩ := hcheck
    show (remembering pc).Follows [] ((InvariantChecker.check pc.cfg.settings campaignId final).bind
      fun violations => Prog.ret (PlatformOutcome.violations violations)) _
    rw [Machine.follows_bind]
    refine (check_bindings _ campaignId final).mono fun h r hr => ?_
    cases r with
    | error e => trivial
    | ok violations => exact hr violations rfl
  · refine (Machine.follows_freely (fun _ _ => trivial) _ _).mono fun h r _ => ?_
    cases job with
    | check campaignId final => exact absurd ⟨campaignId, final, rfl⟩ hcheck
    | _ => trivial

/-- **No check finds a duplicate binding** in a run without recovery sweeps, without cancelled
operations and without agents who leave while reserved or on the phone, however it is interleaved
with the workers, the deliveries, the other requests and other checks. -/
theorem checks_find_no_duplicate {σ₀ : PlatformStore F} {w : PlatformWorld F}
    (hcalls : ∀ c, σ₀.base.calls.get? c = none)
    (h : Reachable (platform pc) (platformUnder SystemRegime.withoutRecovery) (World.fresh σ₀) w)
    {p : Nat} {campaignId : DocId} {final : Bool} {violations : List InvariantViolation}
    {t : Thread (PlatformJob F) (Op ⊕ PlatformOp F) (EitherRes Res (PlatformRes F)) Exn
      (PlatformOutcome F) (PlatformHistory F)}
    (ht : w.threads p = some t) (hjob : t.job = .check campaignId final)
    (hended : t.prog = .ret (.violations violations)) :
    ∀ v ∈ violations, v.name ≠ "agent_bound_to_two_active_calls"
      ∧ v.name ≠ "borrower_in_two_active_calls" := by
  have hfound := h.ended found_conforms ht hended
  rw [hjob] at hfound
  obtain ⟨activeCalls, rest, hanswer, rfl, hrest⟩ := hfound
  obtain ⟨e, he, -, hhappening⟩ := mem_historyOf.mp hanswer
  -- the answer was given by a store of the run
  obtain ⟨v, hv, hresp⟩ := h.answered he
  obtain ⟨u, hu, hstore⟩ := dialer_of_reachable withoutRecovery_admits withoutRecovery_looks hv
  have hapart := BoundApart.of_reachable hcalls hu campaignId
  rw [hstore] at hapart
  have hactive : activeCalls = CallRepo.findActive campaignId 5000 v.store.base.calls := by
    obtain ⟨q, op, env, resp⟩ := e
    cases hhappening
    have hok : (platformExec env (.inr (.findActive campaignId 5000)) v.store).1
        = .ok activeCalls := hresp.symm
    rw [platformExec_of_ok hok] at hok
    exact (Except.ok.inj hok).symm
  intro x hx
  rw [hactive, hapart.silent] at hx
  have hname := hrest x hx
  exact ⟨fun h => hname (h ▸ List.mem_cons_self), fun h => hname (h ▸ by decide)⟩

/-! Both theorems at a check that begins before the first call is answered for and ends after. -/

def watchedRound : List (Action (PlatformJob ℚ) (PlatformEnv ℚ)) :=
  firstRound ++ [.spawn 1 (.check demoCampaign.id false), .perform 1 demoPlatformEnv]
    ++ List.replicate 3 (.perform 0 demoPlatformEnv) ++ [.perform 1 demoPlatformEnv]

def watched : PlatformWorld ℚ := (World.fresh demoPlatform).acts (platform {}) watchedRound

/-- Nothing fails and no agent acts. -/
def PlatformUneventful
    (e : Entry (Op ⊕ PlatformOp ℚ) (EitherRes Res (PlatformRes ℚ)) Exn (PlatformEnv ℚ)) : Bool :=
  e.env.base.fault.isNone && match e.op with
    | .inl (.transitionAgent _ _ _ .AGENT _) => false
    | _ => true

theorem watched_reachable : Reachable (platform {}) (platformUnder SystemRegime.withoutRecovery)
    (World.fresh demoPlatform) watched := by
  have hquiet : ∀ e ∈ watched.trace, PlatformUneventful e = true := by decide +kernel
  refine Reachable.of_acts _ watchedRound (fun p job hjob hrecovers => ?_) fun e he σ st => ?_
  · have hspawns : ∀ a ∈ watchedRound, ∀ p job, a = .spawn p job → job.recovers = false := by
      intro a ha p job heq
      subst heq
      simp [watchedRound, firstRound] at ha
      rcases ha with ⟨-, rfl⟩ | ⟨-, rfl⟩ <;> rfl
    rw [hspawns _ hjob p job rfl] at hrecovers
    cases hrecovers
  · obtain ⟨hfault, hop⟩ := Bool.and_eq_true_iff.mp (hquiet e he)
    obtain ⟨p, o, env, r⟩ := e
    cases o with
    | inr o => trivial
    | inl o =>
      intro st q
      refine ⟨fun f hf => ?_, fun a s t v ho => ?_⟩
      · rw [Env.strikes, Option.isNone_iff_eq_none.mp hfault] at hf
        cases hf
      · subst ho
        cases hop

theorem check_silent_watched :
    (InvariantChecker.check {} demoCampaign.id false).run platformExec (fun _ => demoPlatformEnv) 0
      watched.store = (.ok [], watched.store, 2) :=
  check_silent (fun _ => rfl) watched_reachable (fun _ => rfl) {} demoCampaign.id 0

/-- The thread is a check of the campaign that has ended. -/
def checkEnded (campaignId : DocId)
    (t : Thread (PlatformJob ℚ) (Op ⊕ PlatformOp ℚ) (EitherRes Res (PlatformRes ℚ)) Exn
      (PlatformOutcome ℚ) (PlatformHistory ℚ)) : Bool :=
  match t.job, t.prog with
  | .check c false, .ret (.violations _) => c = campaignId
  | _, _ => false

theorem checkEnded_iff {campaignId : DocId}
    {t : Thread (PlatformJob ℚ) (Op ⊕ PlatformOp ℚ) (EitherRes Res (PlatformRes ℚ)) Exn
      (PlatformOutcome ℚ) (PlatformHistory ℚ)} (h : checkEnded campaignId t = true) :
    ∃ violations, t.job = .check campaignId false ∧ t.prog = .ret (.violations violations) := by
  unfold checkEnded at h
  split at h
  · rename_i hjob hprog
    rw [of_decide_eq_true h] at hjob
    exact ⟨_, hjob, hprog⟩
  · cases h

theorem checks_find_no_duplicate_watched : ∃ t violations, watched.threads 1 = some t
    ∧ t.prog = .ret (.violations violations)
    ∧ ∀ v ∈ violations, v.name ≠ "agent_bound_to_two_active_calls"
      ∧ v.name ≠ "borrower_in_two_active_calls" := by
  have hended : (watched.threads 1).any (checkEnded demoCampaign.id) = true := by decide +kernel
  obtain ⟨t, ht, hcheck⟩ := (Option.any_eq_true _ _).mp hended
  obtain ⟨violations, hjob, hprog⟩ := checkEnded_iff hcheck
  exact ⟨t, violations, ht, hprog,
    checks_find_no_duplicate (fun _ => rfl) watched_reachable ht hjob hprog⟩

end SmartDialer
