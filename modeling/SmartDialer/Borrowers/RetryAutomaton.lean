import SmartDialer.System.Effects

/-!
# The retry automaton of a borrower

Whatever operations are performed on the database, one after another and by whomever: a borrower
that starts out pending with no attempts is never attempted more than `MAX_CALL_ATTEMPTS` times,
is exhausted at exactly that count, stays contacted or exhausted for good, and after a `RETRY` is
not reserved before his backoff is over.

The automaton is read off one write (`Counted.write`) and carried over a run by induction on its
steps. The backoff needs a second induction, `eligible_of_reserves`, which finds the first
reservation after a retry: only that one reads the time set by the retry.
-/

namespace SmartDialer

open DocStore Concurrent

/-- Operations in the order in which they are performed, each with its environment. -/
abbrev Steps := List (Env × Op)

/-- The store after the steps, in their order. -/
def performAll (steps : Steps) (σ : Store) : Store :=
  steps.foldl (fun σ s => (exec s.1 s.2 σ).2) σ

theorem performAll_append (steps steps' : Steps) (σ : Store) :
    performAll (steps ++ steps') σ = performAll steps' (performAll steps σ) :=
  List.foldl_append

@[simp] theorem performAll_cons (s : Env × Op) (steps : Steps) (σ : Store) :
    performAll (s :: steps) σ = performAll steps (exec s.1 s.2 σ).2 := rfl

namespace BorrowerRepo

/-- Releases count under the given settings, and a reclaim has a candidate its query can answer. -/
def KeepsTerms (maxAttempts backoff : Int) : Op → Prop
  | .releaseBorrower _ _ _ m b => m = maxAttempts ∧ b = backoff
  | .reclaimBorrowerLease candidate _ => candidate.status ∈ releasableStatuses
  | _ => True

/-- What the attempt count of a borrower says about his status. -/
structure Counted (maxAttempts : Int) (d : Borrower) : Prop where
  bounded : (d.attemptCount : Int) ≤ maxAttempts
  below : d.status = .PENDING ∨ d.status ∈ releasableStatuses →
    (d.attemptCount : Int) < maxAttempts
  spent : d.status = .EXHAUSTED → (d.attemptCount : Int) = maxAttempts

/-- No operation finds a borrower in these states. -/
def finished : List BorrowerStatus := [.EXHAUSTED, .CONTACTED]

section Write

variable {now : Time} {o : Op} {d d' : Borrower} {maxAttempts backoff : Int}

theorem not_finished {s : BorrowerStatus} (h : s = .PENDING ∨ s ∈ releasableStatuses) :
    s ∉ finished := by
  cases s <;> simp_all [finished, releasableStatuses]

/-- **A write finds a pending or a held borrower.** -/
theorem eq_of_finished (hwrite : BorrowerWrite now o d d') (hterms : KeepsTerms maxAttempts backoff o)
    (hd : d.status ∈ finished) : d' = d := by
  cases hwrite with
  | unchanged => rfl
  | reserve workerId ttl hstatus heligible => exact absurd hd (not_finished (Or.inl hstatus))
  | release outcome m b hworker hstatus => exact absurd hd (not_finished (Or.inr hstatus))
  | reclaim hid hstatus hversion hlease hexpired =>
    exact absurd hd (not_finished (Or.inr (hstatus ▸ hterms)))

/-- **What one write makes of the count**: the second stage of a retry reads the raised count.
Whether the borrower is exhausted is therefore decided on the new count, by the same comparison that
`Counted` makes. -/
theorem Counted.write (h : Counted maxAttempts d) (hwrite : BorrowerWrite now o d d')
    (hterms : KeepsTerms maxAttempts backoff o) :
    Counted maxAttempts d' ∧ d.attemptCount ≤ d'.attemptCount := by
  cases hwrite with
  | unchanged => exact ⟨h, Nat.le_refl _⟩
  -- a reservation counts nothing yet
  | reserve workerId ttl hstatus heligible =>
    have hbelow := h.below (Or.inl hstatus)
    exact ⟨⟨h.bounded, fun _ => hbelow, fun hs => by cases hs⟩, Nat.le_refl _⟩
  | release outcome m b hworker hstatus =>
    have hbelow := h.below (Or.inr hstatus)
    obtain ⟨rfl, rfl⟩ := hterms
    cases outcome with
    -- given back without having been called
    | RELEASED => exact ⟨⟨h.bounded, fun _ => hbelow, fun hs => by cases hs⟩, Nat.le_refl _⟩
    -- called, and done with
    | CONTACTED =>
      refine ⟨⟨?_, fun hs => ?_, fun hs => by cases hs⟩, Nat.le_succ _⟩
      · show ((d.attemptCount + 1 : Nat) : Int) ≤ m
        omega
      · exact absurd (show BorrowerStatus.CONTACTED ∈ finished by decide) (not_finished hs)
    -- called: the second stage of the update reads the count that the first has raised
    | RETRY =>
      have hcount : ((d.attemptCount + 1 : Nat) : Int) ≤ m := by omega
      by_cases hlast : ((d.attemptCount + 1 : Nat) : Int) ≥ m
      · -- the last attempt
        have hstatus' : (buildRetryUpdate now m b d).status = .EXHAUSTED := if_pos hlast
        refine ⟨⟨hcount, fun hs => ?_, fun _ => Int.le_antisymm hcount hlast⟩, Nat.le_succ _⟩
        rw [show (releaseUpdate now .RETRY m b d).status = .EXHAUSTED from hstatus'] at hs
        exact absurd (show BorrowerStatus.EXHAUSTED ∈ finished by decide) (not_finished hs)
      · have hstatus' : (buildRetryUpdate now m b d).status = .PENDING := if_neg hlast
        refine ⟨⟨hcount, fun _ => Int.not_le.mp hlast, fun hs => ?_⟩, Nat.le_succ _⟩
        cases hstatus'.symm.trans hs
  -- the lease has run out before a call was made
  | reclaim hid hstatus hversion hlease hexpired =>
    have hbelow := h.below (Or.inr (hstatus ▸ hterms))
    exact ⟨⟨h.bounded, fun _ => hbelow, fun hs => by cases hs⟩, Nat.le_refl _⟩

end Write

/-! ## Runs

`Steps` are taken as they come, with no assumption about who performs them; what is asked of them is
`KeepsTerms`, the settings of a release and the query behind a reclaim. -/

section Runs

variable {σ : Store} {b : DocId} {d : Borrower} {maxAttempts backoff : Int}

/-- **What a whole run makes of a borrower.** -/
theorem performAll_borrower {steps : Steps} (hd : σ.borrowers.get? b = some d)
    (h : Counted maxAttempts d) (hterms : ∀ s ∈ steps, KeepsTerms maxAttempts backoff s.2) :
    ∃ d', (performAll steps σ).borrowers.get? b = some d' ∧ Counted maxAttempts d'
      ∧ d.attemptCount ≤ d'.attemptCount ∧ (d.status ∈ finished → d' = d) := by
  -- on the steps: the count of the document after one write is the start of the rest
  induction steps generalizing σ d with
  | nil => exact ⟨d, hd, h, Nat.le_refl _, fun _ => rfl⟩
  | cons s steps ih =>
    obtain ⟨e, he, hwrite⟩ := exec_borrower s.1 s.2 hd
    have hs := hterms s List.mem_cons_self
    obtain ⟨hcounted, hle⟩ := h.write hwrite hs
    obtain ⟨d', hd', hcounted', hle', hsame⟩ :=
      ih he hcounted fun s hs => hterms s (List.mem_cons_of_mem _ hs)
    refine ⟨d', hd', hcounted', Nat.le_trans hle hle', fun hfinished => ?_⟩
    have heq := eq_of_finished hwrite hs hfinished
    rw [heq] at hsame
    exact hsame hfinished

/-- The step is a `RETRY` release of `b` that takes effect, raises his count to `n` and leaves him
to be called again. -/
def RetriesTo (n : Nat) (b : DocId) (s : Env × Op) (σ : Store) : Prop :=
  ∃ w m k d d', s.2 = .releaseBorrower b w .RETRY m k ∧ σ.borrowers.get? b = some d
    ∧ (exec s.1 s.2 σ).2.borrowers.get? b = some d' ∧ d.attemptCount < n ∧ d'.attemptCount = n
    ∧ d'.status ≠ .EXHAUSTED

/-- The step is a reservation of `b` that takes effect. -/
def Reserves (b : DocId) (s : Env × Op) (σ : Store) : Prop :=
  ∃ c w ttl d d', s.2 = .tryReserveBorrower c b w ttl ∧ σ.borrowers.get? b = some d
    ∧ (exec s.1 s.2 σ).2.borrowers.get? b = some d' ∧ d' ≠ d

/-- The operation tries to reserve `b`. -/
def attemptsReserve (b : DocId) : Op → Bool
  | .tryReserveBorrower _ k _ _ => k = b
  | _ => false

/-- The clock does not run backwards between reservations of `b`. -/
def InOrder (b : DocId) (steps : Steps) : Prop :=
  steps.Pairwise fun s s' => attemptsReserve b s.2 = true → attemptsReserve b s'.2 = true →
    s.1.now ≤ s'.1.now

/-- A pending borrower is reserved for the first time when he is eligible. Either this reservation
is the first, or an earlier one was: both are attempts at an instant that is not before
`next_eligible_at`. -/
theorem eligible_of_reserves {steps : Steps} {s : Env × Op} (hd : σ.borrowers.get? b = some d)
    (hpending : d.status = .PENDING) (hterms : ∀ s ∈ steps, KeepsTerms maxAttempts backoff s.2)
    (hs : Reserves b s (performAll steps σ)) :
    ∃ s' ∈ steps ++ [s], attemptsReserve b s'.2 = true ∧ d.nextEligibleAt ≤ s'.1.now := by
  -- the first step that changes the document can only be a reservation
  induction steps generalizing σ d with
  | nil =>
    obtain ⟨c, w, ttl, e, e', hop, he, he', hne⟩ := hs
    cases hd.symm.trans he
    obtain ⟨d', hd', hwrite⟩ := exec_borrower s.1 s.2 hd
    cases hd'.symm.trans he'
    rw [hop] at hwrite
    refine ⟨s, List.mem_cons_self, by rw [hop]; simp [attemptsReserve], ?_⟩
    cases hwrite with
    | unchanged => exact absurd rfl hne
    | reserve _ _ _ heligible => exact heligible
  | cons s₁ steps ih =>
    obtain ⟨e, he, hwrite⟩ := exec_borrower s₁.1 s₁.2 hd
    have hs₁ := hterms s₁ List.mem_cons_self
    have hkey : d.id = b := Collection.key_of_get? hd
    have hrest : e = d → ∃ s' ∈ s₁ :: steps ++ [s], attemptsReserve b s'.2 = true
        ∧ d.nextEligibleAt ≤ s'.1.now := by
      rintro rfl
      obtain ⟨s', hs', h⟩ := ih he hpending (fun s hs => hterms s (List.mem_cons_of_mem _ hs)) hs
      exact ⟨s', List.mem_cons_of_mem _ hs', h⟩
    generalize hop : s₁.2 = o at hwrite hs₁
    cases hwrite with
    | unchanged => exact hrest rfl
    | reserve workerId ttl hstatus heligible =>
      exact ⟨s₁, List.mem_cons_self, by rw [hop]; simp [attemptsReserve, hkey], heligible⟩
    -- he is pending, so nobody holds him who could give him back
    | release outcome m k hworker hstatus =>
      rw [hpending] at hstatus
      exact absurd hstatus (by decide)
    -- nor is there a lease to reclaim
    | reclaim hid hstatus hversion hlease hexpired =>
      have hheld : d.status ∈ releasableStatuses := hstatus ▸ hs₁
      rw [hpending] at hheld
      exact absurd hheld (by decide)

/-- **A retry waits for its backoff.** The retry writes `next_eligible_at`, and no write before the
next reservation moves it; the exponent is the attempt count before the retry. -/
theorem reserves_after_backoff {mid after : Steps} {retry reserve : Env × Op} {n : Nat}
    (hterms : ∀ s ∈ retry :: (mid ++ [reserve]), KeepsTerms maxAttempts backoff s.2)
    (horder : InOrder b (mid ++ reserve :: after)) (hretry : RetriesTo n b retry σ)
    (hreserve : Reserves b reserve (performAll (retry :: mid) σ)) :
    retry.1.now + seconds (backoff * 2 ^ (n - 1)) ≤ reserve.1.now := by
  obtain ⟨w, m, k, d, d', hop, hd, hd', hlt, hn, hopen⟩ := hretry
  obtain ⟨e, he, hwrite⟩ := exec_borrower retry.1 retry.2 hd
  cases he.symm.trans hd'
  have hterm := hterms retry List.mem_cons_self
  rw [hop] at hwrite hterm
  obtain ⟨rfl, rfl⟩ := hterm
  -- what the retry has set: its own time, and the backoff of the count it has reached
  have hbackoff : d'.status = .PENDING
      ∧ d'.nextEligibleAt = retry.1.now + seconds (k * 2 ^ (n - 1)) := by
    cases hwrite with
    | unchanged => exact absurd hn (Nat.ne_of_lt hlt)
    | release _ _ _ hworker hstatus =>
      refine ⟨?_, by rw [← hn]; rfl⟩
      by_cases hlast : ((d.attemptCount + 1 : Nat) : Int) ≥ m
      · exact absurd (if_pos hlast) hopen
      · exact if_neg hlast
  obtain ⟨s', hs', hattempt, heligible⟩ := eligible_of_reserves hd' hbackoff.1
    (fun s hs => hterms s (List.mem_cons_of_mem _ (List.mem_append_left _ hs))) hreserve
  rw [hbackoff.2] at heligible
  refine le_trans heligible ?_
  -- the clock has gone on from that attempt to the one that reserves
  rcases List.mem_append.mp hs' with hmid | hlast
  · obtain ⟨c, w', ttl, -, -, hop', -⟩ := hreserve
    exact (List.pairwise_append.mp horder).2.2 s' hmid reserve List.mem_cons_self hattempt
      (by rw [hop']; simp [attemptsReserve])
  · rw [List.mem_singleton.mp hlast]

/-- **The retry automaton.** Of a borrower who starts out pending and never called, whatever is
performed: his count never falls and never exceeds the maximum, it is below the maximum while he is
pending or held and equal to it once he is exhausted, nothing is written to him any more once he is
exhausted or contacted, and after a `RETRY` that brought the count to `n` he is not reserved before
`backoff * 2 ^ (n - 1)` seconds have passed. -/
theorem retry_automaton (maxAttempts backoff : Int) (hmax : 1 ≤ maxAttempts)
    (hd : σ.borrowers.get? b = some d) (hpending : d.status = .PENDING) (hzero : d.attemptCount = 0)
    (steps : Steps) (hterms : ∀ s ∈ steps, KeepsTerms maxAttempts backoff s.2) :
    ∃ d', (performAll steps σ).borrowers.get? b = some d' ∧ Counted maxAttempts d'
      ∧ (∀ before after, steps = before ++ after →
          ∃ e, (performAll before σ).borrowers.get? b = some e ∧ e.attemptCount ≤ d'.attemptCount
            ∧ (e.status ∈ finished → d' = e))
      ∧ ∀ before retry mid reserve after n, steps = before ++ retry :: (mid ++ reserve :: after) →
          InOrder b steps → RetriesTo n b retry (performAll before σ) →
          Reserves b reserve (performAll (before ++ retry :: mid) σ) →
          retry.1.now + seconds (backoff * 2 ^ (n - 1)) ≤ reserve.1.now := by
  have hcounted : Counted maxAttempts d := by
    refine ⟨?_, fun _ => ?_, fun hs => ?_⟩
    · omega
    · omega
    · cases hpending.symm.trans hs
  obtain ⟨d', hd', hcounted', -, -⟩ := performAll_borrower hd hcounted hterms
  refine ⟨d', hd', hcounted', ?_, ?_⟩
  · rintro before after rfl
    obtain ⟨e, he, hcountedE, -, -⟩ := performAll_borrower hd hcounted fun s hs =>
      hterms s (List.mem_append_left _ hs)
    obtain ⟨d'', hd'', -, hle, hsame⟩ := performAll_borrower he hcountedE fun s hs =>
      hterms s (List.mem_append_right _ hs)
    rw [performAll_append] at hd'
    cases hd''.symm.trans hd'
    exact ⟨e, he, hle, hsame⟩
  · rintro before retry mid reserve after n rfl horder hretry hreserve
    rw [performAll_append] at hreserve
    have horder' : InOrder b (mid ++ reserve :: after) :=
      (List.pairwise_cons.mp (List.pairwise_append.mp horder).2.1).2
    refine reserves_after_backoff (fun s hs => hterms s (List.mem_append_right _ ?_)) horder' hretry
      hreserve
    rcases List.mem_cons.mp hs with rfl | hs
    · exact List.mem_cons_self
    · rcases List.mem_append.mp hs with hs | hs
      · exact List.mem_cons_of_mem _ (List.mem_append_left _ hs)
      · rw [List.mem_singleton.mp hs]
        exact List.mem_cons_of_mem _ (List.mem_append_right _ List.mem_cons_self)

end Runs

/-! The theorem at a borrower who is called, not reached, and called again a minute later. -/

def waiting : Borrower :=
  { id := .ofString "b", campaignId := .ofString "k", phoneNumber := "1" }

def waitingStore : Store where
  agents := ∅
  borrowers := ⟨[waiting], List.nodup_singleton _⟩
  calls := .empty
  events := ∅

/-- Reserve him, or give him back to be called again. -/
def reserveWaiting (now : Time) : Env × Op :=
  ({ now }, .tryReserveBorrower waiting.campaignId waiting.id "w" 30)

def retryWaiting (now : Time) : Env × Op :=
  ({ now }, .releaseBorrower waiting.id "w" .RETRY 3 60)

theorem retry_automaton_waiting :
    (∃ d, (performAll [reserveWaiting 0, retryWaiting 5000, reserveWaiting 65000]
      waitingStore).borrowers.get? waiting.id = some d ∧ Counted 3 d)
    ∧ (5000 : Time) + seconds (60 * 2 ^ (1 - 1)) ≤ 65000 := by
  obtain ⟨d, hd, hcounted, -, hbackoff⟩ := retry_automaton 3 60 (by decide)
    (show waitingStore.borrowers.get? waiting.id = some waiting from rfl) rfl rfl
    [reserveWaiting 0, retryWaiting 5000, reserveWaiting 65000]
    (by simp [reserveWaiting, retryWaiting, KeepsTerms])
  refine ⟨⟨d, hd, hcounted⟩, hbackoff [reserveWaiting 0] (retryWaiting 5000) []
    (reserveWaiting 65000) [] 1 rfl ?_ ?_ ?_⟩
  · simp [InOrder, reserveWaiting, retryWaiting, attemptsReserve]
  · exact ⟨"w", 3, 60, _, _, rfl, rfl, rfl, by decide +kernel, by decide +kernel, by decide +kernel⟩
  · exact ⟨waiting.campaignId, "w", 30, _, _, rfl, rfl, rfl, by decide +kernel⟩

end BorrowerRepo

end SmartDialer
