import SmartDialer.Calls.InFlight
import SmartDialer.Safety.SafetyController

/-!
# The budget of an allocation

`allocate` makes at most as many attempts as its decision approves, and stops early only after
three contended attempts in a row. An attempt is one pass of the loop; whichever of its ways out
`_dial` takes, the attempt is counted once and originates at most once.

The statement is about the moments of an execution, whatever the operations have met: a list of
attempts, each with its own moments, whose counters are the result. `Admits` says which lists of
attempts the loop can make, and the rest is about such lists.
-/

namespace SmartDialer

open Concurrent

namespace CallAllocator

/-- What comes of one pass of the loop: no pair, a dial that succeeds, or one that does not. -/
inductive Attempt where
  | contended
  | dialled
  | failed
  deriving DecidableEq

variable (cfg : Config) (campaign : Campaign) (workerId : WorkerId)

/-- One pass of the loop of `allocate`. -/
def attempt : Py Attempt := do
  let pair ← reservePair cfg campaign.id workerId
  match pair with
  | none => pure .contended
  | some pair => do
    let dialled ← dialCompensated cfg campaign pair
    pure (if dialled then .dialled else .failed)

/-- The counters after some more attempts. -/
def addAttempts (counts : AllocationResult) (attempts : List Attempt) : AllocationResult where
  attempted := counts.attempted + attempts.length
  allocated := counts.allocated + attempts.count .dialled
  failed := counts.failed + attempts.count .failed
  contended := counts.contended + attempts.count .contended

/-- The attempts that end an allocation before its budget is spent. -/
def exhausted : List Attempt := List.replicate maxConsecutiveContentions .contended

/-- The operation that is counted. -/
def originates : Op → Bool
  | .originateCall _ _ => true
  | _ => false

/-- How often `originate_call` is invoked. -/
def placed (h : List PyMoment) : Nat := Prog.count originates h

/-- The moments `h` are those of the attempts, one attempt after another. -/
inductive Makes : List Attempt → List PyMoment → Prop where
  | nil : Makes [] []
  | cons {a : Attempt} {as : List Attempt} {h h' : List PyMoment}
      (ha : (attempt cfg campaign workerId).Passes exec h (.ok a)) (has : Makes as h') :
      Makes (a :: as) (h ++ h')

/-- The attempts are those of a loop with `n` passes left after `k` contended ones. -/
def Admits : Nat → Nat → List Attempt → Prop
  | 0, _, as => as = []
  | _ + 1, _, [] => False
  -- the third contended attempt in a row ends the loop
  | n + 1, k, .contended :: as =>
    if k + 1 ≥ maxConsecutiveContentions then as = [] else Admits n (k + 1) as
  -- any dial starts the count of contentions afresh
  | n + 1, _, _ :: as => Admits n 0 as

section Loop

variable {cfg campaign workerId}

/-- **One pass of the loop, then the rest of it.** -/
theorem allocateLoop_succ (n k : Nat) (counts : AllocationResult) :
    allocateLoop cfg campaign workerId (n + 1) counts k
      = (attempt cfg campaign workerId).bind fun a =>
        match a with
        | .contended =>
          if k + 1 ≥ maxConsecutiveContentions then .ret (addAttempts counts [.contended])
          else allocateLoop cfg campaign workerId n (addAttempts counts [.contended]) (k + 1)
        | .dialled => allocateLoop cfg campaign workerId n (addAttempts counts [.dialled]) 0
        | .failed => allocateLoop cfg campaign workerId n (addAttempts counts [.failed]) 0 := by
  unfold attempt
  rw [allocateLoop, Prog.bind_def, Prog.bind_def, Prog.bind_assoc]
  congr 1
  funext pair
  cases pair with
  | none => rfl
  | some pair =>
    simp only [Prog.bind_def, Prog.bind_assoc, Prog.pure_def, Prog.ret_bind]
    congr 1
    funext dialled
    cases dialled with
    | false => rfl
    | true => rfl

/-- **A loop that ends has made some attempts and counted each of them once.** The induction is on
the iterations that are left; the passage of the loop is cut at the end of each iteration. -/
theorem passes_allocateLoop {n k : Nat} {counts result : AllocationResult} {h : List PyMoment}
    (hpass : (allocateLoop cfg campaign workerId n counts k).Passes exec h (.ok result)) :
    ∃ attempts, Makes cfg campaign workerId attempts h ∧ result = addAttempts counts attempts
      ∧ Admits n k attempts := by
  -- on the passes that are left, for any counters so far
  induction n generalizing counts k h with
  | zero =>
    obtain ⟨rfl, hr⟩ := (Prog.passes_ret _ _).mp hpass
    exact ⟨[], .nil, Except.ok.inj hr, rfl⟩
  | succ n ih =>
    rw [allocateLoop_succ] at hpass
    rcases (Prog.passes_bind _ _ _).mp hpass with ⟨h₁, h₂, a, rfl, ha, hrest⟩ | ⟨e, -, he⟩
    · have hadd : ∀ as, addAttempts (addAttempts counts [a]) as = addAttempts counts (a :: as) := by
        intro as
        simp only [addAttempts, List.length_cons, List.count_cons, List.count_nil,
          List.length_nil]
        congr 1 <;> omega
      -- the rest of the loop, from the counters this attempt leaves
      have hgo : ∀ k', (allocateLoop cfg campaign workerId n (addAttempts counts [a]) k').Passes exec h₂
          (.ok result) → ∃ as, Makes cfg campaign workerId (a :: as) (h₁ ++ h₂)
            ∧ result = addAttempts counts (a :: as) ∧ Admits n k' as := by
        intro k' hk'
        obtain ⟨as, hmakes, hresult, hadmits⟩ := ih hk'
        exact ⟨as, .cons ha hmakes, by rw [hresult, hadd], hadmits⟩
      cases a with
      | contended =>
        dsimp only at hrest
        split at hrest
        · next hlast =>
          obtain ⟨rfl, hr⟩ := (Prog.passes_ret _ _).mp hrest
          exact ⟨[.contended], .cons ha .nil, Except.ok.inj hr, by simp [Admits, hlast]⟩
        · next hmore =>
          obtain ⟨as, hmakes, hresult, hadmits⟩ := hgo _ hrest
          exact ⟨_, hmakes, hresult, by simpa only [Admits, if_neg hmore] using hadmits⟩
      | dialled =>
        obtain ⟨as, hmakes, hresult, hadmits⟩ := hgo _ hrest
        exact ⟨_, hmakes, hresult, hadmits⟩
      | failed =>
        obtain ⟨as, hmakes, hresult, hadmits⟩ := hgo _ hrest
        exact ⟨_, hmakes, hresult, hadmits⟩
    · cases he

/-! ## The length of the loop

These lemmas speak of lists of attempts only. Contentions that came before are put in front of the
list, as `k` copies. -/

theorem Admits.length_le {n k : Nat} {as : List Attempt} (h : Admits n k as) : as.length ≤ n := by
  induction n generalizing k as with
  | zero => simp [show as = [] from h]
  | succ n ih =>
    cases as with
    | nil => exact h.elim
    | cons a as =>
      cases a with
      | contended =>
        dsimp only [Admits] at h
        split at h
        · simp [h]
        · exact Nat.succ_le_succ (ih h)
      | dialled => exact Nat.succ_le_succ (ih h)
      | failed => exact Nat.succ_le_succ (ih h)

/-- A loop that stops before its budget is spent has just seen three contended attempts. The
induction keeps the contended attempts of the current run in front of the list, as many as the
counter of the loop says. -/
theorem Admits.suffix {n k : Nat} {as : List Attempt} (h : Admits n k as) (hlt : as.length < n)
    (hk : k < maxConsecutiveContentions) : exhausted <:+ List.replicate k .contended ++ as := by
  induction n generalizing k as with
  | zero => exact absurd hlt (Nat.not_lt_zero _)
  | succ n ih =>
    cases as with
    | nil => exact h.elim
    | cons a as =>
      -- an attempt that is not contended starts the count again
      have hgo : Admits n 0 as → exhausted <:+ List.replicate k .contended ++ a :: as := by
        intro has
        have hrest := ih has (Nat.lt_of_succ_lt_succ hlt) (by decide)
        exact (hrest.trans (List.suffix_cons a as)).trans (List.suffix_append _ _)
      cases a with
      | contended =>
        -- one more contended attempt in a row, counted in `k` instead of read off the list
        have hshift : List.replicate k Attempt.contended ++ .contended :: as
            = List.replicate (k + 1) .contended ++ as := by
          rw [List.replicate_succ', List.append_assoc, List.singleton_append]
        dsimp only [Admits] at h
        rw [hshift]
        split at h
        · next hlast =>
          have hthree : k + 1 = maxConsecutiveContentions := by omega
          rw [h, hthree, List.append_nil, exhausted]
        · next hmore => exact ih h (Nat.lt_of_succ_lt_succ hlt) (by omega)
      | dialled => exact hgo h
      | failed => exact hgo h

/-- A run of contended attempts is not the end of one of three that another attempt follows. -/
theorem exhausted_after {k : Nat} {a : Attempt} {as before after : List Attempt}
    (hk : k < maxConsecutiveContentions) (ha : a ≠ .contended)
    (h : List.replicate k .contended ++ a :: as = before ++ exhausted ++ after) :
    ∃ before', as = before' ++ exhausted ++ after := by
  rw [List.append_assoc] at h
  rcases List.append_eq_append_iff.mp h with ⟨rest, -, hrest⟩ | ⟨rest, hrun, hrest⟩
  · cases rest with
    | nil => exact absurd (List.cons_eq_cons.mp hrest).1 ha
    | cons x rest =>
      refine ⟨rest, ?_⟩
      rw [List.append_assoc]
      exact (List.cons_eq_cons.mp hrest).2
  · -- the three would begin inside the run and have the other attempt among them
    have hlen : rest.length < maxConsecutiveContentions := by
      have hle := congrArg List.length hrun
      rw [List.length_replicate, List.length_append] at hle
      omega
    have hat := congrArg (fun l => l[rest.length]?) hrest
    simp only [exhausted, List.getElem?_append_left, List.length_replicate, hlen,
      List.getElem?_replicate, if_true, List.getElem?_append_right, Nat.le_refl, Nat.sub_self,
      List.getElem?_cons_zero, Option.some.injEq] at hat
    exact absurd hat.symm ha

/-- Three contended attempts in a row are the last ones. The loop breaks at the third in a row, so
nothing comes after it. Again the current run stands in front of the list. -/
theorem Admits.last {n k : Nat} {as before after : List Attempt} (h : Admits n k as)
    (hk : k < maxConsecutiveContentions)
    (hsplit : List.replicate k .contended ++ as = before ++ exhausted ++ after) : after = [] := by
  induction n generalizing k as before with
  | zero =>
    have hlen := congrArg List.length hsplit
    simp only [show as = [] from h, exhausted, List.append_nil, List.length_append,
      List.length_replicate] at hlen
    omega
  | succ n ih =>
    cases as with
    | nil => exact h.elim
    | cons a as =>
      -- any other attempt starts the count of contentions again
      have hgo : a ≠ .contended → Admits n 0 as → after = [] := by
        intro ha has
        obtain ⟨before', hsplit'⟩ := exhausted_after hk ha hsplit
        exact ih has (by decide) hsplit'
      cases a with
      | contended =>
        rw [show List.replicate k Attempt.contended ++ .contended :: as
            = List.replicate (k + 1) .contended ++ as by
          rw [List.replicate_succ', List.append_assoc, List.singleton_append]] at hsplit
        dsimp only [Admits] at h
        split at h
        · next hlast =>
          have hlen := congrArg List.length hsplit
          simp only [h, exhausted, List.append_nil, List.length_append,
            List.length_replicate] at hlen
          exact List.length_eq_zero_iff.mp (by omega)
        · next hmore => exact ih h (by omega) hsplit
      | dialled => exact hgo (by simp) h
      | failed => exact hgo (by simp) h

end Loop

/-! ## Originates of one attempt

Counted from the inside: `_originate` asks the provider once, the rest of a dial does not. For the
lower bound it is the other way round, since a dial that answers `True` has gone through
`_originate`. -/

section Originates

variable {cfg campaign workerId} {pair : ReservationPair} {callId : DocId}

/-- The operations of the claim of an agent. -/
theorem performs_claimAgent {S : Op → Prop} (campaignId : DocId)
    (hagents : ∀ c n, S (.findClaimableAgents c n))
    (hagent : ∀ c id, S (.tryReserveAgent c id workerId cfg.settings.RESERVATION_TTL_SECONDS)) :
    (ReservationService.claimAgent cfg campaignId workerId).Performs S := by
  have hclaim : ∀ candidates, (ReservationService.claimAgentFrom cfg campaignId workerId
      candidates).Performs S := by
    intro candidates
    induction candidates with
    | nil => exact trivial
    | cons candidate candidates ih =>
      refine .bind (Prog.performs_perform.mpr (hagent _ _)) fun agent => ?_
      cases agent with
      | some agent => exact trivial
      | none => exact ih
  unfold ReservationService.claimAgent findClaimableAgents
  rw [if_neg (by decide)]
  exact .bind (Prog.performs_perform.mpr (hagents _ _)) hclaim

/-- The operations of the claim of a borrower. -/
theorem performs_claimBorrower {S : Op → Prop} (campaignId : DocId)
    (hborrowers : ∀ c n, S (.findClaimableBorrowers c n))
    (hborrower : ∀ c id,
      S (.tryReserveBorrower c id workerId cfg.settings.RESERVATION_TTL_SECONDS)) :
    (ReservationService.claimBorrower cfg campaignId workerId).Performs S := by
  have hclaim : ∀ candidates, (ReservationService.claimBorrowerFrom cfg campaignId workerId
      candidates).Performs S := by
    intro candidates
    induction candidates with
    | nil => exact trivial
    | cons candidate candidates ih =>
      refine .bind (Prog.performs_perform.mpr (hborrower _ _)) fun borrower => ?_
      cases borrower with
      | some borrower => exact trivial
      | none => exact ih
  unfold ReservationService.claimBorrower findClaimableBorrowers
  rw [if_neg (by decide)]
  exact .bind (Prog.performs_perform.mpr (hborrowers _ _)) hclaim

/-- The operations of `reserve_pair`. Stated for an arbitrary set of operations, since the modules
that use it ask for different ones. -/
theorem performs_claimPair {S : Op → Prop} (campaignId : DocId)
    (hagents : ∀ c n, S (.findClaimableAgents c n))
    (hagent : ∀ c id, S (.tryReserveAgent c id workerId cfg.settings.RESERVATION_TTL_SECONDS))
    (hborrowers : ∀ c n, S (.findClaimableBorrowers c n))
    (hborrower : ∀ c id,
      S (.tryReserveBorrower c id workerId cfg.settings.RESERVATION_TTL_SECONDS))
    (hrelease : ∀ id, S (.releaseAgent id workerId .AVAILABLE .ALLOCATOR)) :
    (ReservationService.reservePair cfg campaignId workerId).Performs S := by
  have hback : ∀ id, (ReservationService.releaseAgent id workerId).Performs S := by
    intro id
    unfold ReservationService.releaseAgent releaseAgent
    rw [if_neg (by decide)]
    exact .bind (Prog.performs_perform.mpr (hrelease _)) fun _ => Prog.performs_ret _
  unfold ReservationService.reservePair
  refine .bind (performs_claimAgent campaignId hagents hagent) fun agent => ?_
  cases agent with
  | none => exact trivial
  | some agent =>
    refine .bind (.catching (performs_claimBorrower campaignId hborrowers hborrower) fun e => ?_)
      fun borrower => ?_
    · split
      · exact .bind (hback _) fun _ => trivial
      · exact trivial
    · cases borrower with
      | some borrower => exact trivial
      | none => exact .bind (hback _) fun _ => trivial

theorem performs_reservePair {S : Op → Prop} (campaignId : DocId)
    (hagents : ∀ c n, S (.findClaimableAgents c n))
    (hagent : ∀ c id, S (.tryReserveAgent c id workerId cfg.settings.RESERVATION_TTL_SECONDS))
    (hborrowers : ∀ c n, S (.findClaimableBorrowers c n))
    (hborrower : ∀ c id,
      S (.tryReserveBorrower c id workerId cfg.settings.RESERVATION_TTL_SECONDS))
    (hrelease : ∀ id, S (.releaseAgent id workerId .AVAILABLE .ALLOCATOR)) :
    (reservePair cfg campaignId workerId).Performs S := by
  refine .catching (performs_claimPair campaignId hagents hagent hborrowers hborrower hrelease)
    fun e => ?_
  split <;> exact trivial

/-- `_originate` originates once. -/
theorem atMost_originate : Prog.AtMost exec originates 1 (originate cfg campaign pair callId) := by
  unfold originate providerRegistryGet
  refine .mono (n := 0 + (1 + 0)) (.bind (.of_performs ?_) fun _ => .bind (.perform _) fun _ =>
    .of_performs (.bind ?_ fun outcome => ?_)) (by decide)
  · split <;> exact trivial
  · exact .catching (.bind (Prog.performs_perform.mpr rfl) fun _ => trivial) fun _ => trivial
  · split
    all_goals first
      | exact .bind (Prog.performs_perform.mpr rfl) fun _ => trivial
      | exact trivial

theorem needs_originate :
    Prog.Needs exec originates (fun _ => True) (originate cfg campaign pair callId) := by
  unfold originate
  exact .second fun _ => .first (.perform (o := Op.originateCall campaign.providerName _) rfl)

/-- A dial that only gives the pair back. -/
theorem performs_giveBack : ((release cfg pair .RELEASED).bind fun _ => .ret false).Performs
    fun o => originates o = false :=
  .bind (performs_release rfl fun _ _ => rfl) fun _ => Prog.performs_ret false

/-- **A dial originates at most once.** -/
theorem atMost_dial : Prog.AtMost exec originates 1 (dial cfg campaign pair) := by
  have hopen : Prog.AtMost exec originates 1 (dialOpen cfg campaign pair) := by
    unfold dialOpen
    refine .mono (n := 0 + 1) (.bind (.of_performs (performs_createCall rfl rfl)) fun created => ?_)
      (by decide)
    split
    · exact .mono (.of_performs performs_giveBack) (by decide)
    · refine .mono (n := 0 + (0 + 1)) (.bind (.of_performs (Prog.performs_perform.mpr rfl)) fun _ =>
        .bind (.of_performs (Prog.performs_perform.mpr rfl)) fun initiated => ?_) (by decide)
      cases initiated with
      | none => exact .mono (.of_performs performs_giveBack) (by decide)
      | some _ =>
        unfold dialInitiated
        -- the only originate of a dial is in `_originate`; what comes before and after has none
        refine .mono (n := 0 + (0 + (1 + 0))) (.bind (.of_performs (performs_transitionAgent rfl))
          fun _ => .bind (.of_performs (Prog.performs_perform.mpr rfl)) fun _ =>
            .bind atMost_originate fun result => .of_performs ?_) (by decide)
        cases result with
        | none => exact performs_fail rfl rfl fun _ _ => rfl
        | some result =>
          dsimp only
          split
          · exact performs_dialAccepted rfl rfl (fun _ => rfl) rfl fun _ _ => rfl
          · exact performs_fail rfl rfl fun _ _ => rfl
  unfold dial
  split
  · refine .mono (n := 0 + 1) (.bind (.of_performs (performs_shouldRetry rfl rfl)) fun retry => ?_)
      (by decide)
    split
    · exact .mono (.of_performs performs_giveBack) (by decide)
    · exact hopen
  · exact hopen

/-- **A dial answers `True` only after an originate.** -/
theorem needs_dial : Prog.Needs exec originates (· = true) (dial cfg campaign pair) := by
  have hback : Prog.Needs exec originates (· = true)
      ((release cfg pair .RELEASED).bind fun _ => .ret false) :=
    .second fun _ => .ret (by decide)
  have hopen : Prog.Needs exec originates (· = true) (dialOpen cfg campaign pair) := by
    unfold dialOpen
    refine .second fun created => ?_
    split
    · exact hback
    · refine .second fun _ => .second fun initiated => ?_
      cases initiated with
      | none => exact hback
      | some _ => exact .second fun _ => .second fun _ => .first needs_originate
  unfold dial
  split
  · refine .second fun retry => ?_
    split
    · exact hback
    · exact hopen
  · exact hopen

/-- The compensation of a cancelled dial ends in no result. -/
theorem passes_dialCompensated {h : List PyMoment} {dialled : Bool}
    (hpass : (dialCompensated cfg campaign pair).Passes exec h (.ok dialled)) :
    (dial cfg campaign pair).Passes exec h (.ok dialled) := by
  unfold dialCompensated at hpass
  rcases (Prog.passes_catching _ _ _).mp hpass with ⟨a, hdial, ha⟩ | ⟨h₁, h₂, e, -, -, hhandler⟩
  · cases ha
    exact hdial
  · split at hhandler
    · rcases (Prog.passes_bind _ _ _).mp hhandler with ⟨h₃, h₄, a, -, -, hraise⟩ | ⟨e', -, he⟩
      · cases ((Prog.passes_raise _ _).mp hraise).2
      · cases he
    · cases ((Prog.passes_raise _ _).mp hhandler).2

/-- **The originates of one attempt**: none of a contended one, at most one of any, and one of a
dial that succeeds. -/
theorem attempt_places {a : Attempt} {h : List PyMoment}
    (hpass : (attempt cfg campaign workerId).Passes exec h (.ok a)) :
    [a].count .dialled ≤ placed h ∧ placed h ≤ [a].count .dialled + [a].count .failed := by
  unfold attempt at hpass
  rcases (Prog.passes_bind _ _ _).mp hpass with ⟨h₁, h₂, pair, rfl, hpair, hrest⟩ | ⟨e, -, he⟩
  · have hnone : placed h₁ = 0 := by
      -- reserving a pair places no call, so the count is that of the dial
      have hperforms : (reservePair cfg campaign.id workerId).Performs fun o => originates o = false :=
        performs_reservePair campaign.id (fun _ _ => rfl) (fun _ _ => rfl) (fun _ _ => rfl)
          (fun _ _ => rfl) (fun _ => rfl)
      exact Nat.le_zero.mp (Prog.AtMost.of_performs hperforms h₁ _ hpair)
    have hsum : placed (h₁ ++ h₂) = placed h₂ := by
      unfold placed at hnone ⊢
      rw [Prog.count_append, hnone, Nat.zero_add]
    rw [hsum]
    cases pair with
    | none =>
      obtain ⟨rfl, ha⟩ := (Prog.passes_ret _ _).mp hrest
      cases ha
      exact ⟨Nat.le_refl 0, Nat.le_refl 0⟩
    | some pair =>
      rcases (Prog.passes_bind _ _ _).mp hrest with ⟨h₃, h₄, dialled, rfl, hdial, hret⟩ | ⟨e, -, he⟩
      · obtain ⟨rfl, ha⟩ := (Prog.passes_ret _ _).mp hret
        have hdial := passes_dialCompensated hdial
        have hmost := atMost_dial h₃ _ hdial
        rw [List.append_nil]
        cases dialled with
        | false =>
          cases ha
          exact ⟨Nat.zero_le _, hmost⟩
        | true =>
          cases ha
          exact ⟨needs_dial h₃ _ hdial rfl, hmost⟩
      · cases he
  · cases he

/-- The originates of a series of attempts. -/
theorem Makes.places {attempts : List Attempt} {h : List PyMoment}
    (hmakes : Makes cfg campaign workerId attempts h) :
    attempts.count .dialled ≤ placed h
      ∧ placed h ≤ attempts.count .dialled + attempts.count .failed := by
  induction hmakes with
  | nil => exact ⟨Nat.le_refl 0, Nat.le_refl 0⟩
  | @cons a as h h' ha has ih =>
    have hfirst := attempt_places ha
    unfold placed at *
    rw [Prog.count_append]
    simp only [List.count_cons, List.count_nil] at hfirst ⊢
    omega

end Originates

theorem length_eq_counts (attempts : List Attempt) :
    attempts.length = attempts.count .dialled + attempts.count .failed + attempts.count .contended := by
  induction attempts with
  | nil => rfl
  | cons a as ih =>
    cases a <;> simp [ih] <;> omega

/-- **The allocation budget.** Whatever the operations of `allocate` meet, if no exception escapes
it: it has made some attempts and counted each once, no more than its decision approves; it has
originated at least once for each dial that succeeded and at most once for each dial, so no more
often than approved; and it stops short of the budget only after three contended attempts in a
row, which occur nowhere but at the end. -/
theorem allocation_budget {F : Type} (cfg : Config) (campaign : Campaign)
    (decision : SafetyDecision F) (workerId : WorkerId) (h : List PyMoment)
    (result : AllocationResult)
    (hpass : (allocate cfg campaign decision.approved workerId).Passes exec h (.ok result)) :
    ∃ attempts, Makes cfg campaign workerId attempts h
      ∧ result = addAttempts ⟨0, 0, 0, 0⟩ attempts
      ∧ result.attempted = result.allocated + result.failed + result.contended
      ∧ (result.attempted : Int) ≤ max 0 decision.approved
      ∧ result.allocated ≤ placed h ∧ placed h ≤ result.allocated + result.failed
      ∧ (placed h : Int) ≤ max 0 decision.approved
      ∧ ((result.attempted : Int) < decision.approved → exhausted <:+ attempts)
      ∧ ∀ before after, attempts = before ++ exhausted ++ after → after = [] := by
  obtain ⟨attempts, hmakes, rfl, hadmits⟩ := passes_allocateLoop hpass
  have hlength := hadmits.length_le
  have hcounts := length_eq_counts attempts
  have hplaces := hmakes.places
  have hk : 0 < maxConsecutiveContentions := by decide
  simp only [addAttempts, Nat.zero_add]
  refine ⟨attempts, hmakes, rfl, hcounts, ?_, hplaces.1, hplaces.2, ?_, fun hlt => ?_,
    fun before after hsplit => hadmits.last hk hsplit⟩
  · omega
  · omega
  · exact hadmits.suffix (by omega) hk

/-! The theorem at an allocation that may make one call and makes it. -/

def oneCall : SafetyDecision ℚ where
  campaignId := demoCampaign.id
  requested := 1
  approved := 1
  verdict := .APPROVED
  constraints := []
  bindingConstraint := none
  snapshotAgeMs := 0
  createdAt := 0

theorem allocation_budget_demo : placed demoMoments = 1 := by
  obtain ⟨-, -, -, -, -, hleast, -, hmost, -⟩ := allocation_budget {} demoCampaign oneCall "w"
    demoMoments ⟨1, 1, 0, 0⟩ (Prog.passes_of_after (by decide +kernel))
  exact Nat.le_antisymm (Int.ofNat_le.mp hmost) hleast

end CallAllocator

end SmartDialer
