import SmartDialer.Model.Documents

/-!
# Borrower queries and conditional updates (`app/repositories/borrower_repo.py`)

Each definition is one database operation. `reclaim_expired_borrower_leases` is one query and
then one conditional update for each candidate, so it has two definitions here.
-/

namespace SmartDialer

open DocStore

abbrev Borrowers := Collection Borrower

inductive BorrowerReleaseOutcome where
  | RELEASED | RETRY | CONTACTED
  deriving DecidableEq, Repr

namespace BorrowerRepo

/-- `RELEASABLE_STATUSES`. -/
def releasableStatuses : List BorrowerStatus := [.RESERVED, .IN_CALL]

/-! ## Update documents

What each write makes of a borrower. Only the outcomes of a finished call count an attempt. -/

def reserveUpdate (now : Time) (workerId : WorkerId) (ttlSeconds : Int) (d : Borrower) :
    Borrower :=
  { d with
    status := .RESERVED
    toLeaseFields := buildLeaseFields workerId ttlSeconds now
    stateVersion := d.stateVersion + 1 }

def releasedUpdate (d : Borrower) : Borrower :=
  { d with
    status := .PENDING
    toLeaseFields := clearedLeaseFields
    stateVersion := d.stateVersion + 1 }

def contactedUpdate (now : Time) (d : Borrower) : Borrower :=
  { d with
    status := .CONTACTED
    lastAttemptAt := some now
    toLeaseFields := clearedLeaseFields
    stateVersion := d.stateVersion + 1
    attemptCount := d.attemptCount + 1 }

/-- `_build_retry_update`: the second stage reads the count the first stage has raised. -/
def buildRetryUpdate (now : Time) (maxAttempts backoffBaseSeconds : Int) (d : Borrower) :
    Borrower :=
  let counted : Borrower := { d with
    attemptCount := d.attemptCount + 1
    lastAttemptAt := some now
    stateVersion := d.stateVersion + 1
    toLeaseFields := clearedLeaseFields }
  { counted with
    status := if (counted.attemptCount : Int) ≥ maxAttempts then .EXHAUSTED else .PENDING
    nextEligibleAt := now + seconds (backoffBaseSeconds * 2 ^ (counted.attemptCount - 1)) }

def releaseUpdate (now : Time) (outcome : BorrowerReleaseOutcome)
    (maxAttempts backoffBaseSeconds : Int) (d : Borrower) : Borrower :=
  match outcome with
  | .RELEASED => releasedUpdate d
  | .CONTACTED => contactedUpdate now d
  | .RETRY => buildRetryUpdate now maxAttempts backoffBaseSeconds d

def reclaimUpdate (now : Time) (d : Borrower) : Borrower :=
  { d with
    status := .PENDING
    nextEligibleAt := now
    toLeaseFields := clearedLeaseFields
    stateVersion := d.stateVersion + 1 }

/-! ## Writes

A borrower is reserved out of `PENDING` once he is eligible, and released by the worker that holds
him. -/

def tryReserveBorrower (now : Time) (campaignId borrowerId : DocId) (workerId : WorkerId)
    (ttlSeconds : Int) (borrowers : Borrowers) : Option Borrower × Borrowers :=
  borrowers.findOneAndUpdate borrowerId
    (fun d => d.campaignId = campaignId ∧ d.status = .PENDING ∧ d.nextEligibleAt ≤ now)
    (reserveUpdate now workerId ttlSeconds) (fun _ => rfl)

def releaseBorrower (now : Time) (borrowerId : DocId) (workerId : WorkerId)
    (outcome : BorrowerReleaseOutcome) (maxAttempts backoffBaseSeconds : Int)
    (borrowers : Borrowers) : Option Borrower × Borrowers :=
  borrowers.findOneAndUpdate borrowerId
    (fun d => d.reservedBy = some workerId ∧ d.status ∈ releasableStatuses)
    (releaseUpdate now outcome maxAttempts backoffBaseSeconds)
    (fun _ => by cases outcome <;> rfl)

/-- One write of `reclaim_expired_borrower_leases`, for a candidate as the query read it. -/
def reclaimBorrowerLease (candidate : Borrower) (now : Time) (borrowers : Borrowers) :
    Option Borrower × Borrowers :=
  borrowers.findOneAndUpdate candidate.id
    (fun d => d.status = candidate.status ∧ d.stateVersion = candidate.stateVersion
      ∧ ∃ t ∈ d.leaseExpiresAt, t < now)
    (reclaimUpdate now) (fun _ => rfl)

/-! ## Queries

As for agents, with eligibility in the place of availability. -/

def findClaimableBorrowers (now : Time) (campaignId : DocId) (window : Nat)
    (borrowers : Borrowers) : List Borrower :=
  ((borrowers.find fun d =>
      d.campaignId = campaignId ∧ d.status = .PENDING ∧ d.nextEligibleAt ≤ now).insertionSort
    (fun d e => d.nextEligibleAt ≤ e.nextEligibleAt)).take window

def leaseExpired (now : Time) (d : Borrower) : Prop :=
  d.status ∈ releasableStatuses ∧ d.reservedBy ≠ none ∧ ∃ t ∈ d.leaseExpiresAt, t < now

instance (now : Time) : DecidablePred (leaseExpired now) :=
  fun _ => inferInstanceAs (Decidable (_ ∧ _ ∧ _))

def findExpiredBorrowerLeases (now : Time) (limit : Int) (borrowers : Borrowers) :
    List Borrower :=
  limited limit (borrowers.find (leaseExpired now))

end BorrowerRepo

/-- A borrower some worker holds. -/
def BorrowerStatus.held (s : BorrowerStatus) : Bool := s ∈ BorrowerRepo.releasableStatuses

/-- No release leaves a borrower held. -/
theorem BorrowerRepo.not_held_releaseUpdate {now : Time} {outcome : BorrowerReleaseOutcome}
    {m b : Int} {d : Borrower} : (releaseUpdate now outcome m b d).status.held = false := by
  cases outcome with
  | RELEASED => rfl
  | CONTACTED => rfl
  | RETRY =>
    show BorrowerStatus.held (if _ then _ else _) = false
    split <;> rfl

end SmartDialer
