import SmartDialer.Services.CallAllocator

/-!
# The recovery worker (`app/workers/recovery_worker.py`)

Five sweeps in a fixed order, each a query for candidates followed by conditional writes for
each candidate as the query returned it. A sweep that raises is noted and the next one runs.
-/

namespace SmartDialer

open Concurrent

inductive SweepName where
  | expired_agent_leases | expired_borrower_leases | orphaned_calls | heartbeat_timeouts
  | stuck_wrap_ups
  deriving DecidableEq

structure RecoverySweepCounts where
  expiredAgentLeases : Nat := 0
  expiredBorrowerLeases : Nat := 0
  orphanedCalls : Nat := 0
  heartbeatTimeouts : Nat := 0
  stuckWrapUps : Nat := 0
  errors : List SweepName := []
  deriving DecidableEq

/-- `setattr(counts, name, n)`. -/
def RecoverySweepCounts.set (counts : RecoverySweepCounts) (n : Nat) :
    SweepName → RecoverySweepCounts
  | .expired_agent_leases => { counts with expiredAgentLeases := n }
  | .expired_borrower_leases => { counts with expiredBorrowerLeases := n }
  | .orphaned_calls => { counts with orphanedCalls := n }
  | .heartbeat_timeouts => { counts with heartbeatTimeouts := n }
  | .stuck_wrap_ups => { counts with stuckWrapUps := n }

namespace RecoveryWorker

variable (cfg : Config)

/-- `PROVIDER_STATUS_TO_CALL_STATE.get(status, CallState.FAILED)`. -/
def providerStatusToCallState : ProviderCallStatus → CallState
  | .COMPLETED => .COMPLETED
  | .FAILED => .FAILED
  | _ => .FAILED

/-- `_release_borrower`. -/
def releaseBorrower (ended : Call) : Py Unit := do
  let _ ← call (.releaseBorrower ended.borrowerId ended.createdByWorker
    (RetryService.outcomeForTerminalCall false)
    cfg.settings.MAX_CALL_ATTEMPTS cfg.settings.RETRY_BACKOFF_BASE_SECONDS)

/-- `_release_parties`. -/
def releaseParties (ended : Call) : Py Unit := do
  let _ ← releaseAgent ended.agentId ended.createdByWorker .AVAILABLE .RECOVERY
  releaseBorrower cfg ended

/-- `_cancel_bound_call`. -/
def cancelBoundCall (agent : Agent) (reason : String) : Py Unit :=
  match agent.currentCallId with
  | none => pure ()
  | some callId => do
    let bound ← call (.findCallById callId)
    match bound with
    | none => pure ()
    | some bound =>
      if bound.terminal then pure ()
      else
        let cancelled ← call (.transitionCall bound.id .CANCELLED (some reason))
        match cancelled with
        | none => pure ()
        | some cancelled => releaseBorrower cfg cancelled

/-- `_reconcile_with_provider`. -/
def reconcileWithProvider (orphan : Call) : Py CallState :=
  match orphan.providerCallId with
  | none => pure .FAILED
  | some providerCallId =>
    Prog.catching (do
      providerRegistryGet cfg orphan.providerName
      let status ← call (.getCallStatus orphan.providerName providerCallId)
      pure (providerStatusToCallState status)) fun error =>
      if error.isProviderError then pure .FAILED else .raise error

/-! ## The loops over the candidates; the number is how many have been dealt with so far -/

def sweepExpiredAgentLeasesLoop (now : Time) : List Agent → Nat → Py Nat
  | [], recovered => pure recovered
  | agent :: agents, recovered => do
    cancelBoundCall cfg agent "agent_lease_expired"
    let released ← call (.releaseExpiredAgentLease agent now)
    sweepExpiredAgentLeasesLoop now agents (if released.isSome then recovered + 1 else recovered)

/-- `_sweep_expired_agent_leases`. -/
def sweepExpiredAgentLeases (now : Time) (limit : Int) : Py Nat := do
  let agents ← call (.findExpiredAgentLeases now limit)
  sweepExpiredAgentLeasesLoop cfg now agents 0

/-- The second half of `reclaim_expired_borrower_leases`. -/
def reclaimLoop (now : Time) : List Borrower → Nat → Py Nat
  | [], reclaimed => pure reclaimed
  | candidate :: candidates, reclaimed => do
    let document ← call (.reclaimBorrowerLease candidate now)
    reclaimLoop now candidates (if document.isSome then reclaimed + 1 else reclaimed)

/-- `_sweep_expired_borrower_leases`. -/
def sweepExpiredBorrowerLeases (now : Time) (limit : Int) : Py Nat := do
  let candidates ← call (.findExpiredBorrowerLeases now limit)
  reclaimLoop now candidates 0

def sweepOrphanedCallsLoop : List Call → Nat → Py Nat
  | [], recovered => pure recovered
  | orphan :: orphans, recovered => do
    let targetState ← reconcileWithProvider cfg orphan
    let finished ← call (.transitionCall orphan.id targetState
      (if targetState = .FAILED then some "orphaned" else none))
    match finished with
    | none => sweepOrphanedCallsLoop orphans recovered
    | some finished => do
      releaseParties cfg finished
      sweepOrphanedCallsLoop orphans (recovered + 1)

/-- `_sweep_orphaned_calls`. -/
def sweepOrphanedCalls (now : Time) (limit : Int) : Py Nat := do
  let cutoff := now - seconds cfg.settings.CALL_STALE_TIMEOUT_SECONDS
  let orphans ← call (.findStaleCalls cutoff limit)
  sweepOrphanedCallsLoop cfg orphans 0

def sweepHeartbeatTimeoutsLoop : List Agent → Nat → Py Nat
  | [], loggedOut => pure loggedOut
  | agent :: agents, loggedOut => do
    cancelBoundCall cfg agent "agent_disappeared"
    let updated ← transitionAgent agent.id agent.state .OFFLINE .RECOVERY agent.stateVersion
    sweepHeartbeatTimeoutsLoop agents (if updated.isSome then loggedOut + 1 else loggedOut)

/-- `_sweep_heartbeat_timeouts`. -/
def sweepHeartbeatTimeouts (now : Time) (limit : Int) : Py Nat := do
  let cutoff := now - seconds cfg.settings.AGENT_HEARTBEAT_TIMEOUT_SECONDS
  let agents ← call (.findHeartbeatExpired cutoff limit)
  sweepHeartbeatTimeoutsLoop cfg agents 0

def sweepStuckWrapUpsLoop : List Agent → Nat → Py Nat
  | [], released => pure released
  | agent :: agents, released => do
    let updated ← transitionAgent agent.id .WRAP_UP .AVAILABLE .RECOVERY agent.stateVersion
    sweepStuckWrapUpsLoop agents (if updated.isSome then released + 1 else released)

/-- `_sweep_stuck_wrap_ups`. -/
def sweepStuckWrapUps (now : Time) (limit : Int) : Py Nat := do
  let grace := cfg.settings.WRAP_UP_SECONDS * 2
  let cutoff := now - seconds (cfg.settings.WRAP_UP_SECONDS + grace)
  let agents ← call (.findExpiredWrapUps cutoff limit none)
  sweepStuckWrapUpsLoop agents 0

/-- `sweeps`, in their order. -/
def sweeps (now : Time) (limit : Int) : List (SweepName × Py Nat) :=
  [(.expired_agent_leases, sweepExpiredAgentLeases cfg now limit),
   (.expired_borrower_leases, sweepExpiredBorrowerLeases now limit),
   (.orphaned_calls, sweepOrphanedCalls cfg now limit),
   (.heartbeat_timeouts, sweepHeartbeatTimeouts cfg now limit),
   (.stuck_wrap_ups, sweepStuckWrapUps cfg now limit)]

/-- The loop over the sweeps, each inside its own `try`. -/
def runSweepsLoop : List (SweepName × Py Nat) → RecoverySweepCounts → Py RecoverySweepCounts
  | [], counts => pure counts
  | (name, sweep) :: rest, counts => do
    let counts ← Prog.catching (do
      let n ← sweep
      pure (counts.set n name)) fun error =>
      if error.isException then pure { counts with errors := counts.errors ++ [name] }
      else .raise error
    runSweepsLoop rest counts

/-- `run_sweeps`. -/
def runSweeps : Py RecoverySweepCounts := do
  let now ← call .utcNow
  runSweepsLoop (sweeps cfg now cfg.settings.RECOVERY_SWEEP_LIMIT) {}

end RecoveryWorker

end SmartDialer
