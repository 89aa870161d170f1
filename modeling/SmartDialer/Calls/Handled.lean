import SmartDialer.Calls.Endings

/-!
# Which failure paths compensate

Every ending of a dial is looked at once: what it owes (`Compensated`) is paid exactly when the dial
has kept to the paths that its code handles (`Handled`).

* `struck_iff`, `overtaken_iff`, `stranded_iff`: one lemma for each ending in which the two could
  differ.
* `compensated_iff`: one iteration of the loop, with the compensation of a cancelled dial.
* `failed_dial_compensated`: every dial of every run.
-/

namespace SmartDialer

open DocStore Concurrent

namespace CallAllocator

section Endings

variable {cfg : Config} {campaign : Campaign} {pair : ReservationPair} {own : Option DocId}
  {h p : List PyMoment}

/-! ## Which endings are compensated

An ending that is recorded or released is both compensated and handled. In the others a single
moment decides: it is looked at on both sides. -/

theorem not_ends_of_standing {o : Op} (ho : undoes o = false) : ends o = false := by
  cases o with
  | transitionCall c t reason => exact ho
  | _ => rfl

theorem not_ends_of_releases {o : Op} (ho : releases o = true) : ends o = false := by
  cases o with
  | transitionCall c t reason => cases ho
  | _ => rfl

/-- Where the dial itself ends no call, a call it has created has ended exactly if somebody else has
ended it. -/
theorem ended_iff_disowned (hranked : ∀ m ∈ h, CallsRanked m.found.calls)
    (hends : ∀ m ∈ h, ends m.op = false) :
    (∀ m ∈ h, ∀ c, Creates c m → ∃ m' ∈ h, HasEnded c (m'.left exec)) ↔ Disowned h := by
  refine forall₂_congr fun m hm => forall₂_congr fun c hc => ⟨?_, ?_⟩
  · rintro ⟨m', hm', hended⟩
    exact ⟨m', hm', hasEnded_found (hends m' hm') hended⟩
  · rintro ⟨m', hm', hended⟩
    exact ⟨m', hm', hended.evolves (hranked m' hm') (exec_ranked (hranked m' hm'))
      (exec_evolves m'.env m'.op m'.found)⟩

/-! A dial that was underway up to the moment `m` and then gave its pair back in `rest`. -/

section Middle

variable {m : PyMoment} {rest : List PyMoment}

theorem not_records_of_releases (ho : releases m.op = true) (c : DocId) : ¬ RecordsId c m := by
  refine not_records (fun c id hop => ?_) c
  rw [hop] at ho
  cases ho

theorem not_ends_around (hp : Underway cfg campaign p) (hop : ends m.op = false)
    (hrest : ∀ m' ∈ rest, releases m'.op = true ∧ m'.env.strikes m'.op = none) :
    ∀ m' ∈ p ++ m :: rest, ends m'.op = false := by
  intro m' hm'
  rcases List.mem_append.mp hm' with hm' | hm'
  · exact not_ends_of_standing (hp.standing m' hm')
  · rcases List.mem_cons.mp hm' with rfl | hm'
    · exact hop
    · exact not_ends_of_releases (hrest m' hm').1

theorem handedOver_around (hp : Underway cfg campaign p)
    (hrest : ∀ m' ∈ rest, releases m'.op = true ∧ m'.env.strikes m'.op = none)
    (horig : ∀ c, RecordsId c m → Originated c p) :
    HandedOver (p ++ m :: rest) ↔ ∃ c, RecordsId c m := by
  constructor
  · rintro ⟨c, -, m', hm', hrec⟩
    rcases List.mem_append.mp hm' with hm' | hm'
    · exact absurd hrec (hp.unrecorded m' hm' c)
    · rcases List.mem_cons.mp hm' with rfl | hm'
      · exact ⟨c, hrec⟩
      · exact absurd hrec (not_records_of_releases (hrest m' hm').1 c)
  · rintro ⟨c, hrec⟩
    exact ⟨c, (horig c hrec).append, m, List.mem_append_right _ List.mem_cons_self, hrec⟩

/-- Only the moment in the middle can leave the handled paths. Before it nothing has gone wrong, and
after it there are only releases that have succeeded. -/
theorem Handled.around (hp : Underway cfg campaign p)
    (hrest : ∀ m' ∈ rest, releases m'.op = true ∧ m'.env.strikes m'.op = none)
    (hregistered : binds m.op = true → m.env.strikes m.op = none →
      campaign.providerName ∈ cfg.providers)
    (hfound : ∀ key, m.op = .findCallByIdempotencyKey key → m.env.strikes m.op = none →
      CallRepo.findByIdempotencyKey key m.found.calls ≠ none)
    (hinitiated : ∀ c, m.op = .transitionCall c .INITIATED none → m.env.strikes m.op = none →
      Disowned (p ++ m :: rest))
    (hstruck : ∀ f, m.env.strikes m.op = some f →
      Harmless m f ∨ f.exn = .cancelled ∧ Disowned (p ++ m :: rest)) :
    Handled cfg campaign (p ++ m :: rest) := by
  have hrel : Regular cfg campaign rest := .of_releases hrest
  refine ⟨fun m' hm' hb hs => ?_, fun m' hm' key hk hs => ?_, fun m' hm' c hi hs => ?_,
    fun m' hm' f hf => ?_⟩
  -- a moment of the dial before this one, this one, or one of the release after it
  all_goals rcases List.mem_append.mp hm' with hm' | hm'
  · exact hp.registered m' hm' hb hs
  · rcases List.mem_cons.mp hm' with rfl | hm'
    · exact hregistered hb hs
    · exact hrel.registered m' hm' hb hs
  · exact hp.found m' hm' key hk hs
  · rcases List.mem_cons.mp hm' with rfl | hm'
    · exact hfound key hk hs
    · exact hrel.found m' hm' key hk hs
  · exact Or.inl (hp.initiated m' hm' c hi hs)
  · rcases List.mem_cons.mp hm' with rfl | hm'
    · exact Or.inr (hinitiated c hi hs)
    · exact Or.inl (hrel.initiated m' hm' c hi hs)
  · exact Or.inl (Or.inl (hp.struck m' hm' f hf))
  · rcases List.mem_cons.mp hm' with rfl | hm'
    · exact hstruck f hf
    · exact Or.inl (Or.inl (hrel.struck m' hm' f hf))

/-- A dial that was underway when an exception struck it; `rest` are the moments of the release that
`CancelledError` leads to. -/
theorem struck_iff {f : Fault} (hp : Underway cfg campaign p) (hop : undoes m.op = false)
    (hs : m.env.strikes m.op = some f) (hescapes : tolerated m.op f.exn = false)
    (horig : ∀ c, RecordsId c m → Originated c p)
    (hrest : ∀ m' ∈ rest, releases m'.op = true ∧ m'.env.strikes m'.op = none)
    (hfreed : f.exn = .cancelled → Freed pair rest) (hnil : f.exn ≠ .cancelled → rest = [])
    (hranked : ∀ m' ∈ p ++ m :: rest, CallsRanked m'.found.calls) :
    Compensated pair (p ++ m :: rest) ↔ Handled cfg campaign (p ++ m :: rest) := by
  have hmem : m ∈ p ++ m :: rest := List.mem_append_right _ List.mem_cons_self
  have hends := not_ends_around hp (not_ends_of_standing hop) hrest
  -- only the handler of `CancelledError` gives the pair back
  have hfreed_iff : Freed pair (p ++ m :: rest) ↔ f.exn = .cancelled := by
    constructor
    · rintro ⟨⟨m', hm', hagent, -⟩, -⟩
      by_contra hne
      rw [hnil hne] at hm'
      have hstands : undoes m'.op = false := by
        rcases List.mem_append.mp hm' with hm' | hm'
        · exact hp.standing m' hm'
        · cases List.mem_singleton.mp hm'
          exact hop
      rw [hagent] at hstands
      cases hstands
    · exact fun he => (hfreed he).mono fun m' hm' =>
        List.mem_append_right _ (List.mem_cons_of_mem _ hm')
  have hcompensated : Compensated pair (p ++ m :: rest)
      ↔ Harmless m f ∨ f.exn = .cancelled ∧ Disowned (p ++ m :: rest) := by
    unfold Compensated Harmless
    rw [handedOver_around hp hrest horig, hfreed_iff, ended_iff_disowned hranked hends, hescapes]
    simp only [Bool.false_eq_true, false_or]
  rw [hcompensated]
  refine ⟨fun hm => ?_, fun hhandled => hhandled.struck m hmem f hs⟩
  refine .around hp hrest (fun _ hs' => ?_) (fun _ _ hs' => ?_) (fun _ _ hs' => ?_) fun f' hf' => ?_
  · cases hs.symm.trans hs'
  · cases hs.symm.trans hs'
  · cases hs.symm.trans hs'
  · cases hs.symm.trans hf'
    exact hm

/-- A dial that nothing has struck, but whose call somebody else has taken on or ended. It gives the
pair back without ending the call, so it is compensated exactly when somebody else has ended it. -/
theorem overtaken_iff {callId : DocId} (hp : Underway cfg campaign p)
    (hop : m.op = .transitionCall callId .INITIATED none) (hs : m.env.strikes m.op = none)
    (hno : ∀ d, m.found.calls.get? callId = some d → ¬ CallRepo.transitionFilter .INITIATED d)
    (hfreed : Freed pair rest)
    (hrest : ∀ m' ∈ rest, releases m'.op = true ∧ m'.env.strikes m'.op = none)
    (hranked : ∀ m' ∈ p ++ m :: rest, CallsRanked m'.found.calls) :
    Compensated pair (p ++ m :: rest) ↔ Handled cfg campaign (p ++ m :: rest) := by
  -- the refused transition neither ends the call nor hands it over
  have hends := not_ends_around hp (by rw [hop]; rfl) hrest
  have hrecords : ∀ c, ¬ RecordsId c m := not_records fun c id hattach => by
    cases hop.symm.trans hattach
  have hover : ¬ HandedOver (p ++ m :: rest) := by
    rw [handedOver_around hp hrest fun c hrec => absurd hrec (hrecords c)]
    exact fun ⟨c, hrec⟩ => hrecords c hrec
  have hpair : Freed pair (p ++ m :: rest) := hfreed.mono fun m' hm' =>
    List.mem_append_right _ (List.mem_cons_of_mem _ hm')
  have hcompensated : Compensated pair (p ++ m :: rest) ↔ Disowned (p ++ m :: rest) := by
    unfold Compensated
    rw [ended_iff_disowned hranked hends]
    exact ⟨fun h => h.elim (fun h => absurd h hover) And.right, fun h => Or.inr ⟨hpair, h⟩⟩
  rw [hcompensated]
  refine ⟨fun hdis => ?_, fun hhandled => ?_⟩
  · refine .around hp hrest (fun hb _ => ?_) (fun key hk _ => ?_) (fun _ _ _ => hdis)
      fun f' hf' => ?_
    · rw [hop] at hb
      cases hb
    · cases hop.symm.trans hk
    · cases hs.symm.trans hf'
  · rcases hhandled.initiated m (List.mem_append_right _ List.mem_cons_self) callId hop hs
      with ⟨d, hd, hfilter⟩ | hdis
    · exact absurd hfilter (hno d hd)
    · exact hdis

end Middle

/-- A dial that the registry, or the missing call, has stranded owes everything. -/
theorem stranded_iff
    (hstanding : ∀ m ∈ h, undoes m.op = false ∧ ∀ c, ¬ RecordsId c m)
    (hlost : (∃ m ∈ h, binds m.op = true ∧ m.env.strikes m.op = none)
        ∧ campaign.providerName ∉ cfg.providers
      ∨ ∃ m ∈ h, ∃ key, m.op = .findCallByIdempotencyKey key ∧ m.env.strikes m.op = none
        ∧ CallRepo.findByIdempotencyKey key m.found.calls = none) :
    Compensated pair h ↔ Handled cfg campaign h := by
  refine iff_of_false ?_ fun hhandled => ?_
  · rintro (⟨c, -, m, hm, hrec⟩ | ⟨⟨⟨m, hm, hagent, -⟩, -⟩, -⟩)
    · exact (hstanding m hm).2 c hrec
    · have hstands := (hstanding m hm).1
      rw [hagent] at hstands
      cases hstands
  · rcases hlost with ⟨⟨m, hm, hb, hs⟩, hprov⟩ | ⟨m, hm, key, hk, hs, hnone⟩
    · exact hprov (hhandled.registered m hm hb hs)
    · exact hhandled.found m hm key hk hs hnone

/-- **What an iteration owes is paid exactly on the handled paths.** Each way in which an iteration
can end is taken by itself: what it has paid is compared with what `Handled` says of that way. -/
theorem compensated_iff {r : Except Exn Bool}
    (hpass : (dialCompensated cfg campaign pair).Passes exec h r) (hundoing : UndoingSucceeds h)
    (horderly : Orderly h) : Compensated pair h ↔ Handled cfg campaign h := by
  unfold dialCompensated at hpass
  rcases (Prog.passes_catching _ _ _).mp hpass with ⟨a, hdial, rfl⟩ | ⟨h₁, h₂, e, rfl, hdial, hhandler⟩
  · obtain ⟨own, hending, hown⟩ := dial_ends hdial hundoing horderly
    rw [List.nil_append] at hending
    generalize hres : (Except.ok a : Except Exn Bool) = res at hending
    cases hending with
    | recorded hreg hover => exact iff_of_true (Or.inl hover) hreg.handled
    | released hreg hfreed hended =>
      exact iff_of_true (Or.inr ⟨hfreed, fun m hm c hc => hended c (hown m hm c hc)⟩) hreg.handled
    | overtaken hp hop hs hno hfreed hrest =>
      exact overtaken_iff hp hop hs hno hfreed hrest horderly.ranked
    | struck => cases hres
    | stranded => cases hres
  · have hundoing₁ : UndoingSucceeds h₁ := fun m hm => hundoing m (List.mem_append_left _ hm)
    have horderly₁ : Orderly h₁ := ⟨fun m hm => horderly.ranked m (List.mem_append_left _ hm),
      (List.pairwise_append.mp horderly.evolves).1⟩
    obtain ⟨own, hending, -⟩ := dial_ends hdial hundoing₁ horderly₁
    rw [List.nil_append] at hending
    -- what the handler of `allocate` adds
    have hrest : (e = .cancelled → Freed pair h₂) ∧ (e ≠ .cancelled → h₂ = [])
        ∧ ∀ m ∈ h₂, releases m.op = true ∧ m.env.strikes m.op = none := by
      by_cases he : e = .cancelled
      · rw [if_pos he] at hhandler
        have hundoing₂ : UndoingSucceeds h₂ := fun m hm => hundoing m (List.mem_append_right _ hm)
        rcases (Prog.passes_bind _ _ _).mp hhandler with ⟨h₃, h₄, _, rfl, hcomp, hraise⟩ | ⟨e', hcomp, -⟩
        · obtain ⟨rfl, -⟩ := (Prog.passes_raise _ _).mp hraise
          rw [List.append_nil] at hundoing₂ ⊢
          rcases (Prog.passes_catching _ _ _).mp hcomp with ⟨_, hrel, -⟩ | ⟨h₅, h₆, e', rfl, hrel, -⟩
          · obtain ⟨-, hfreed, hmoments⟩ := passes_release_freed hrel hundoing₂
            exact ⟨fun _ => hfreed, fun hne => absurd he hne, hmoments⟩
          · cases (passes_release_freed hrel fun m hm =>
              hundoing₂ m (List.mem_append_left _ hm)).1
        · rcases (Prog.passes_catching _ _ _).mp hcomp with ⟨_, -, hr⟩ | ⟨h₅, h₆, e', rfl, hrel, -⟩
          · cases hr
          · cases (passes_release_freed hrel fun m hm =>
              hundoing₂ m (List.mem_append_left _ hm)).1
      · rw [if_neg he] at hhandler
        obtain ⟨rfl, -⟩ := (Prog.passes_raise _ _).mp hhandler
        exact ⟨fun h => absurd h he, fun _ => rfl, fun m hm => absurd hm List.not_mem_nil⟩
    obtain ⟨hfreed, hnil, hmoments⟩ := hrest
    generalize hres : (Except.error e : Except Exn Bool) = res at hending
    cases hending with
    | recorded => cases hres
    | released => cases hres
    | overtaken => cases hres
    | struck hp hop hs hescapes horig =>
      cases hres
      rw [← List.append_cons] at horderly ⊢
      exact struck_iff hp hop hs hescapes horig hmoments hfreed hnil horderly.ranked
    | stranded he hstanding hlost =>
      cases hres
      rw [hnil he, List.append_nil]
      exact stranded_iff hstanding hlost

end Endings

/-! ## Every dial of every run

That calls are ranked and only evolve between the moments of the dial is a fact about the run it is
part of. -/

/-- **Failure paths compensate exactly where they are handled.** In every run, whoever else runs and
whatever fails or dies: an iteration whose compensating writes succeed ends with its call at the
provider and on record, or with its pair freed and the call it created over, exactly when the
provider is registered where the dial asks for it, the call that has the key is found, the
transition to `INITIATED` applies, and what strikes the dial is an exception that `_originate` or
`_hangup` catches, one that comes after the id has been recorded, or `CancelledError` while no call
created by the dial is open. -/
theorem failed_dial_compensated {cfg : Config} {σ₀ : Store} {actions : List (Action Job Env)}
    {p : Nat} {campaign : Campaign} {pair : ReservationPair} {h : List PyMoment} {r : Except Exn Bool}
    (h₀ : CallsRanked σ₀.calls)
    (hdial : World.CarriesOut (system cfg) (World.fresh σ₀) actions p
      (dialCompensated cfg campaign pair) h r)
    (hundoing : UndoingSucceeds h) : Compensated pair h ↔ Handled cfg campaign h := by
  obtain ⟨t, before, y, rest, -, hsplit, -, -, hpass⟩ := hdial
  obtain ⟨hfound, hpairs⟩ := World.moments_ordered (M := system cfg) (w := World.fresh σ₀) (p := p)
    (R := fun σ σ' => CallsEvolve σ.calls σ'.calls ∧ (CallsRanked σ.calls → CallsRanked σ'.calls))
    (fun σ => ⟨.refl _, id⟩) (fun _ _ _ h h' => ⟨h.1.trans h'.1, h'.2 ∘ h.2⟩)
    (fun env o σ => ⟨exec_evolves env o σ, fun hranked => exec_ranked hranked⟩) actions
  rw [hsplit] at hfound hpairs
  refine compensated_iff hpass hundoing ⟨fun m hm => ?_, ?_⟩
  · exact (hfound m (List.mem_append_left _ (List.mem_append_right _ hm))).2 h₀
  · have hinner := (List.pairwise_append.mp (List.pairwise_append.mp hpairs).1).2.1
    exact hinner.imp fun h => h.1

/-! The theorem at the dial of a run in which the provider does not answer in time, and a run in
which the database fails while the call is being created. -/

theorem dialCompensated_starts_demoDial : (dialCompensated {} demoCampaign demoPair).Starts demoDial :=
  .bind _ (.bind _ .here)

/-- No answer within the time limit. -/
def timedOutEnv : Env := { demoEnv with fault := some ⟨.timeout, false⟩ }

/-- The dial up to the answer, the timeout, and what follows. -/
def timedOutActions : List (Action Job Env) :=
  .spawn 0 (.allocate demoCampaign 1 "w") :: List.replicate 10 (.perform 0 demoEnv)
    ++ .perform 0 timedOutEnv :: List.replicate 4 (.perform 0 demoEnv)

/-- The moments of thread 0. -/
def timedOutMoments : List PyMoment := (World.fresh demoStore).moments (system {}) 0 timedOutActions

theorem timedOut_carriesOut : World.CarriesOut (system {}) (World.fresh demoStore) timedOutActions 0
    (dialCompensated {} demoCampaign demoPair) (timedOutMoments.drop 4) (.ok false) := by
  have hsplit : timedOutMoments = timedOutMoments.take 4 ++ timedOutMoments.drop 4 ++ [] := by
    rw [List.append_nil, List.take_append_drop]
  exact .of_spawn hsplit (Prog.leads_of_after rfl) dialCompensated_starts_demoDial
    (Prog.passes_of_after (by decide +kernel))

/-- The moment asks for a call that is not there, or takes a call to `INITIATED` that cannot go. -/
def strays (m : PyMoment) : Bool :=
  match m.op with
  | .findCallByIdempotencyKey _ => true
  | .transitionCall c .INITIATED _ =>
    !(m.found.calls.get? c).any fun d => decide (CallRepo.transitionFilter .INITIATED d)
  | _ => false

/-- A timeout is handled, so the pair has been freed and the call has ended. -/
theorem failed_dial_compensated_demo : Compensated demoPair (timedOutMoments.drop 4) := by
  have hundoing : ∀ m ∈ timedOutMoments.drop 4, undoes m.op = true → (m.env.strikes m.op).isNone := by
    decide +kernel
  have hstrays : ∀ m ∈ timedOutMoments.drop 4, strays m = false := by decide +kernel
  have hstruck : ∀ m ∈ timedOutMoments.drop 4, ∀ f ∈ m.env.strikes m.op,
      tolerated m.op f.exn = true := by decide +kernel
  refine (failed_dial_compensated demoStore_sound.ranked timedOut_carriesOut fun m hm hop =>
    Option.isNone_iff_eq_none.mp (hundoing m hm hop)).mpr
    ⟨fun _ _ _ _ => List.mem_cons_self, fun m hm key hop _ => ?_, fun m hm c hop _ => ?_,
      fun m hm f hf => Or.inl (Or.inl (hstruck m hm f hf))⟩
  · have hstray := hstrays m hm
    unfold strays at hstray
    rw [hop] at hstray
    cases hstray
  · have hgoes : (!(m.found.calls.get? c).any
        fun d => decide (CallRepo.transitionFilter .INITIATED d)) = false := by
      have hstray := hstrays m hm
      unfold strays at hstray
      rw [hop] at hstray
      exact hstray
    cases hd : m.found.calls.get? c with
    | none =>
      rw [hd] at hgoes
      cases hgoes
    | some d =>
      rw [hd] at hgoes
      exact Or.inl ⟨d, rfl, by simpa using hgoes⟩

/-- The database fails while the call is being created. -/
def brokenActions : List (Action Job Env) :=
  .spawn 0 (.allocate demoCampaign 1 "w") :: List.replicate 4 (.perform 0 demoEnv)
    ++ [.perform 0 { demoEnv with fault := some ⟨.database, false⟩ }]

/-- The moments of that run. -/
def brokenMoments : List PyMoment := (World.fresh demoStore).moments (system {}) 0 brokenActions

/-- Nobody gives the pair back. -/
theorem broken_dial_keeps_pair : ¬ ∀ (cfg : Config) (σ₀ : Store) (actions : List (Action Job Env))
    (p : Nat) (campaign : Campaign) (pair : ReservationPair) (h : List PyMoment) (r : Except Exn Bool),
    CallsRanked σ₀.calls →
    World.CarriesOut (system cfg) (World.fresh σ₀) actions p (dialCompensated cfg campaign pair) h r →
    UndoingSucceeds h → Compensated pair h := by
  intro hclaim
  have hmoments : brokenMoments = brokenMoments.take 4 ++ brokenMoments.drop 4 ++ [] := by
    rw [List.append_nil, List.take_append_drop]
  -- the insertion is the only thing the dial has done
  have hops : ∀ m ∈ brokenMoments.drop 4, inserts m.op = true := by decide +kernel
  have hcompensated := hclaim {} demoStore brokenActions 0 demoCampaign demoPair
    (brokenMoments.drop 4) (.error .database) demoStore_sound.ranked
    (.of_spawn hmoments (Prog.leads_of_after rfl) dialCompensated_starts_demoDial
      (Prog.passes_of_after (by decide +kernel))) fun m hm hundo => by
        have hop := hops m hm
        generalize m.op = o at hop hundo
        cases o <;> first | exact absurd hop Bool.false_ne_true | exact absurd hundo Bool.false_ne_true
  rcases hcompensated with ⟨c, -, m, hm, id, d, hattach, -⟩ | ⟨⟨⟨m, hm, hagent, -⟩, -⟩, -⟩
  · have hop := hops m hm
    rw [hattach] at hop
    cases hop
  · have hop := hops m hm
    rw [hagent] at hop
    cases hop

end CallAllocator

end SmartDialer
