import SmartDialer.Lib.History
import SmartDialer.Simulation.InvariantChecker

/-!
# The simulation runner (`app/simulation/runner.py`)

Every simulation has a record: written before the run begins, finished by the task of the run, and
marked as interrupted when a process starts and finds it running. Requests, tasks and restarts of any
number of processes go on side by side.

Three conditions on records are kept at once by `RecordsKept`: a record's fields agree with its
status, a task that has still to finish a record finds one that no task has finished, and no two
tasks owe the same record. Everything is derived from what one step can write (`Written`): the
record of its own task, or all that are running, when a process starts.
-/

namespace SmartDialer

open Concurrent DocStore

/-! ## Records (`app/repositories/simulation_run_repo.py`)

A record is written by three operations: created running, finished by its task, and marked as
interrupted with all others that are running. None of them asks what the record was. -/

/-- The status of a record. -/
inductive RunStatus where
  | RUNNING | COMPLETED | FAILED
  deriving DecidableEq, Repr

/-- The record of a run; `M` is the document of its metrics. -/
structure SimulationRun (M : Type) where
  id : DocId
  scenario : String
  dialingMode : DialingMode
  status : RunStatus
  startedAt : Time
  finishedAt : Option Time := none
  passed : Option Bool := none
  violations : List String := []
  error : Option String := none
  metrics : Option M := none

instance (M : Type) : Keyed (SimulationRun M) DocId := ⟨fun d => d.id⟩

abbrev SimulationRuns (M : Type) := Collection (SimulationRun M)

/-- What the engine answers, as far as the runner reads it. -/
structure SimulationReport (M : Type) where
  metrics : Option M
  violations : List InvariantViolation := []
  error : Option String := none

/-- `passed`. -/
def SimulationReport.passed {M : Type} (report : SimulationReport M) : Bool :=
  report.violations.isEmpty && report.error.isNone

/-- The arguments of `_finish`. -/
structure RunUpdate (M : Type) where
  status : RunStatus
  error : Option String := none
  report : Option (SimulationReport M) := none

namespace SimulationRunRepo

variable {M : Type}

def INTERRUPTED_ERROR : String := "interrupted_by_restart"

/-- Some record that is running. -/
def findRunning (runs : SimulationRuns M) : Option (SimulationRun M) :=
  (runs.find fun d => d.status = .RUNNING).head?

/-- The document that `start` makes. -/
def record (runId : DocId) (scenario : String) (dialingMode : DialingMode) (now : Time) :
    SimulationRun M where
  id := runId
  scenario := scenario
  dialingMode := dialingMode
  status := .RUNNING
  startedAt := now

/-- The `$set` of `_finish`. -/
def finished (update : RunUpdate M) (now : Time) (d : SimulationRun M) : SimulationRun M :=
  match update.report with
  | none => { d with status := update.status, finishedAt := some now, error := update.error }
  | some report => { d with
      status := update.status, finishedAt := some now, error := update.error
      passed := some report.passed
      violations := report.violations.map fun violation => violation.name
      metrics := report.metrics }

theorem id_finished (update : RunUpdate M) (now : Time) (d : SimulationRun M) :
    (finished update now d).id = d.id := by
  unfold finished
  split <;> rfl

/-- `finish`. -/
def finish (runId : DocId) (update : RunUpdate M) (now : Time) (runs : SimulationRuns M) :
    SimulationRuns M :=
  runs.update runId (fun _ => True) (finished update now) (id_finished update now)

/-- The `$set` of `mark_interrupted_runs`. -/
def interrupted (now : Time) (d : SimulationRun M) : SimulationRun M :=
  { d with status := .FAILED, error := some INTERRUPTED_ERROR, finishedAt := some now }

/-- Everything that is running is marked as interrupted. -/
def markInterruptedRuns (now : Time) (runs : SimulationRuns M) : SimulationRuns M :=
  runs.updateMany (fun d => d.status = .RUNNING) (interrupted now) fun _ => rfl

theorem get?_markInterruptedRuns (now : Time) (runs : SimulationRuns M) (runId : DocId) :
    (markInterruptedRuns now runs).get? runId
      = (runs.get? runId).map fun d => if d.status = .RUNNING then interrupted now d else d :=
  Collection.get?_updateMany ..

end SimulationRunRepo

/-! ## Operations

The engine is one operation here: its run is another matter, and the runner reads only its report. -/

/-- What the runner asks for. -/
inductive RunnerOp (M : Type) where
  | findRunning
  | create (scenario : String) (dialingMode : DialingMode)
  /-- `engine.run`, from its start to its end. -/
  | runEngine
  | finish (runId : DocId) (update : RunUpdate M)
  | markInterruptedRuns

abbrev RunnerRes (M : Type) : RunnerOp M → Type
  | .findRunning => Option (SimulationRun M)
  | .create .. => SimulationRun M
  | .runEngine => SimulationReport M
  | .finish .. => Unit
  | .markInterruptedRuns => Nat

/-- The clock, the id of a new record, the failure that strikes, and how a run of the engine ends. -/
structure RunnerEnv (M : Type) where
  now : Time := 0
  newId : DocId := .blank
  fault : Option Fault := none
  outcome : Except Exn (SimulationReport M)

/-- The exceptions that may strike an operation; those of a run are in its outcome. -/
def RunnerOp.raises {M : Type} : RunnerOp M → Exn → Bool
  | .runEngine, _ => false
  | _, e =>
    match e with
    | .database | .cancelled | .other _ => true
    | _ => false

variable {M : Type}

/-- Answer and effect of an operation that goes through. -/
def RunnerOp.apply (ε : RunnerEnv M) (o : RunnerOp M) (σ : SimulationRuns M) :
    Except Exn (RunnerRes M o) × SimulationRuns M :=
  match o with
  | .findRunning => (.ok (SimulationRunRepo.findRunning σ), σ)
  | .create scenario dialingMode =>
    match σ.insertOne (SimulationRunRepo.record ε.newId scenario dialingMode ε.now) with
    | some runs => (.ok (SimulationRunRepo.record ε.newId scenario dialingMode ε.now), runs)
    | none => (.error .duplicateKey, σ)
  | .runEngine => (ε.outcome, σ)
  | .finish runId update => (.ok (), SimulationRunRepo.finish runId update ε.now σ)
  | .markInterruptedRuns =>
    (.ok (σ.find fun d => d.status = .RUNNING).length,
      SimulationRunRepo.markInterruptedRuns ε.now σ)

/-- Failures included. -/
def runnerExec (ε : RunnerEnv M) (o : RunnerOp M) (σ : SimulationRuns M) :
    Except Exn (RunnerRes M o) × SimulationRuns M :=
  match ε.fault.filter fun f => o.raises f.exn with
  | none => o.apply ε σ
  | some f => (.error f.exn, if f.applied then (o.apply ε σ).2 else σ)

abbrev RunnerPy (M α : Type) := Prog (RunnerOp M) (RunnerRes M) Exn α

namespace SimulationRunner

/-- One operation of the runner. -/
def perform (o : RunnerOp M) : RunnerPy M (RunnerRes M o) := Prog.perform o

/-! ## Programs

`start` answers a request and creates the task, `_execute` is the task. A run that is cancelled is
recorded as failed, and the cancellation goes on. -/

/-- `start`, up to the task it creates. -/
def start (scenario : String) (dialingMode : DialingMode) : RunnerPy M (SimulationRun M) := do
  let running ← perform .findRunning
  match running with
  | some _ => .raise (.other "RuntimeError")
  | none => perform (.create scenario dialingMode)

/-- `_finish`. -/
def finish (runId : DocId) (update : RunUpdate M) : RunnerPy M Unit :=
  perform (.finish runId update)

/-- What `_execute` does with the report of a run. -/
def reportUpdate (report : SimulationReport M) : RunUpdate M where
  status := if report.passed then .COMPLETED else .FAILED
  error := report.error
  report := some report

/-- The handlers of `_execute`; `describe` is the text of an exception. -/
def handled (describe : Exn → String) (runId : DocId) (e : Exn) : RunnerPy M Unit :=
  if e = .cancelled then do
    finish runId { status := .FAILED, error := some "cancelled" }
    .raise e
  else finish runId { status := .FAILED, error := some (describe e) }

/-- `_execute`. -/
def execute (describe : Exn → String) (runId : DocId) : RunnerPy M Unit := do
  let outcome ← Prog.catching (do
    let report ← perform .runEngine
    pure (Sum.inl report)) fun e => pure (Sum.inr e)
  match outcome with
  | .inl report => finish runId (reportUpdate report)
  | .inr e => handled describe runId e

end SimulationRunner

/-! ## The machine

A request and its task are one thread, since the task begins where the request has ended and nobody
else knows its record. -/

inductive RunnerJob where
  /-- A request for a simulation, and its task. -/
  | simulate (scenario : String) (dialingMode : DialingMode)
  /-- `reconcile`, when a process starts. -/
  | reconcile

/-- What the threads run. -/
def RunnerJob.program (describe : Exn → String) : RunnerJob → RunnerPy M Unit
  | .simulate scenario dialingMode => do
    let run ← SimulationRunner.start scenario dialingMode
    SimulationRunner.execute describe run.id
  | .reconcile => do
    let _ ← SimulationRunner.perform .markInterruptedRuns
    pure ()

/-- How far a thread has come. -/
inductive RunnerStage (M : Type) where
  | idle
  | requested
  /-- No record was running. -/
  | cleared
  | executing (runId : DocId)
  | reported (runId : DocId) (report : SimulationReport M)
  | struck (runId : DocId) (e : Exn)
  | starting

namespace RunnerStage

/-- What an operation and its answer make of the stage. -/
def next : RunnerStage M → (o : RunnerOp M) → Except Exn (RunnerRes M o) → RunnerStage M
  | .requested, .findRunning, .ok none => .cleared
  | .cleared, .create .., .ok run => .executing run.id
  | .executing runId, .runEngine, .ok report => .reported runId report
  | .executing runId, .runEngine, .error e => .struck runId e
  | _, _, _ => .idle

/-- The record that a thread has still to finish. -/
def owes : RunnerStage M → Option DocId
  | .executing runId | .reported runId _ | .struck runId _ => some runId
  | _ => none

end RunnerStage

/-- The operations of a thread at a stage. -/
inductive RunnerEmits : RunnerStage M → RunnerOp M → Prop where
  | look : RunnerEmits .requested .findRunning
  | create (scenario : String) (dialingMode : DialingMode) :
      RunnerEmits .cleared (.create scenario dialingMode)
  | run {runId : DocId} : RunnerEmits (.executing runId) .runEngine
  | report {runId : DocId} {report : SimulationReport M} :
      RunnerEmits (.reported runId report) (.finish runId (SimulationRunner.reportUpdate report))
  | fail {runId : DocId} {e : Exn} (error : String) :
      RunnerEmits (.struck runId e) (.finish runId { status := .FAILED, error := some error })
  | mark : RunnerEmits .starting .markInterruptedRuns

/-- Requests, tasks and restarts, side by side over the records. -/
def runner (describe : Exn → String) : Machine RunnerJob (RunnerOp M) (RunnerRes M) Exn
    (SimulationRuns M) (RunnerEnv M) Unit (RunnerStage M) where
  exec := runnerExec
  program := RunnerJob.program describe
  idle := .idle
  start
    | .simulate .. => .requested
    | .reconcile => .starting
  Emits := RunnerEmits
  next := RunnerStage.next

abbrev RunnerWorld (M : Type) :=
  World RunnerJob (RunnerOp M) (RunnerRes M) Exn (SimulationRuns M) (RunnerEnv M) Unit
    (RunnerStage M)

abbrev RunnerRegime (M : Type) :=
  Regime RunnerJob (RunnerOp M) (SimulationRuns M) (RunnerEnv M) (RunnerStage M)

variable {describe : Exn → String}

/-- The programs keep to the conduct. -/
theorem runner_conforms : (runner (M := M) describe).Conforms fun _ _ _ => True := by
  intro job
  cases job with
  | simulate scenario dialingMode =>
    refine ⟨.look, fun running => ?_⟩
    rcases running with e | (_ | run)
    · trivial
    · refine ⟨.create scenario dialingMode, fun run => ?_⟩
      cases run with
      | error e => trivial
      | ok run =>
        refine ⟨.run, fun outcome => ?_⟩
        cases outcome with
        | ok report => exact ⟨.report, fun r => by cases r <;> trivial⟩
        -- the run has raised: its record is finished as failed, cancelled or not
        | error e =>
          show (runner describe).Follows _ (SimulationRunner.handled describe run.id e) _
          unfold SimulationRunner.handled
          split
          · exact ⟨.fail "cancelled", fun r => by cases r <;> trivial⟩
          · exact ⟨.fail (describe e), fun r => by cases r <;> trivial⟩
    · trivial
  | reconcile => exact ⟨.mark, fun r => by cases r <;> trivial⟩

/-! ## What a step writes

Whatever is performed, one record is left as it was, created, finished by the task that owes it, or
marked as interrupted. -/

/-- The updates with which a task finishes its record. -/
inductive RunUpdate.Given : RunUpdate M → Prop where
  | report (report : SimulationReport M) : Given (SimulationRunner.reportUpdate report)
  | fail (error : String) : Given { status := .FAILED, error := some error }

/-- What becomes of the record `runId` when a thread at stage `s` performs `o`. -/
inductive Written (ε : RunnerEnv M) (s : RunnerStage M) (o : RunnerOp M) (runId : DocId) :
    Option (SimulationRun M) → Option (SimulationRun M) → Prop where
  | kept {x : Option (SimulationRun M)} : Written ε s o runId x x
  | created {scenario : String} {dialingMode : DialingMode} (hs : s = .cleared)
      (ho : o = .create scenario dialingMode) (hnew : runId = ε.newId) :
      Written ε s o runId none (some (SimulationRunRepo.record runId scenario dialingMode ε.now))
  | finished {update : RunUpdate M} {d : SimulationRun M} (howes : runId ∈ s.owes)
      (ho : o = .finish runId update) (hgiven : update.Given) :
      Written ε s o runId (some d) (some (SimulationRunRepo.finished update ε.now d))
  | interrupted {d : SimulationRun M} (ho : o = .markInterruptedRuns)
      (hrunning : d.status = .RUNNING) :
      Written ε s o runId (some d) (some (SimulationRunRepo.interrupted ε.now d))

/-- Finishing writes the record that is named. -/
theorem written_finish {ε : RunnerEnv M} {s : RunnerStage M} {ownId : DocId}
    {update : RunUpdate M} (howes : ownId ∈ s.owes) (hgiven : update.Given)
    (σ : SimulationRuns M) (runId : DocId) :
    Written ε s (.finish ownId update) runId (σ.get? runId)
      ((SimulationRunRepo.finish ownId update ε.now σ).get? runId) := by
  unfold SimulationRunRepo.finish
  by_cases hid : runId = ownId
  · subst hid
    cases hd : σ.get? runId with
    | none =>
      rw [Collection.update_of_not_match _ fun d hsome =>
        absurd (hd.symm.trans hsome) (Option.some_ne_none d).symm, hd]
      exact .kept
    | some d =>
      rw [Collection.get?_update_self _ hd trivial]
      exact .finished howes rfl hgiven
  · rw [Collection.get?_update_of_ne _ hid]
    exact .kept

/-- **What a step can write.** A record is left alone, created, finished by the task that owes it,
or interrupted by a restart; the invariants below use nothing else about the operations. -/
theorem RunnerEmits.written {s : RunnerStage M} {o : RunnerOp M} (h : RunnerEmits s o)
    (ε : RunnerEnv M) (σ : SimulationRuns M) (runId : DocId) :
    Written ε s o runId (σ.get? runId) ((runnerExec ε o σ).2.get? runId) := by
  -- the operation itself, if it goes through
  have happly : Written ε s o runId (σ.get? runId) ((o.apply ε σ).2.get? runId) := by
    cases h with
    | look => exact .kept
    | run => exact .kept
    | create scenario dialingMode =>
      unfold RunnerOp.apply
      dsimp only
      split
      · rename_i runs hruns
        rw [Collection.get?_of_insertOne hruns]
        split
        · rename_i hid
          replace hid : runId = ε.newId := hid
          have hnone := Collection.get?_none_of_insertOne hruns
          replace hnone : σ.get? ε.newId = none := hnone
          rw [hid, hnone]
          exact .created rfl rfl rfl
        · exact .kept
      · exact .kept
    | report => exact written_finish rfl (.report _) σ runId
    | fail error => exact written_finish rfl (.fail error) σ runId
    | mark =>
      show Written ε _ _ runId _ ((SimulationRunRepo.markInterruptedRuns ε.now σ).get? runId)
      rw [SimulationRunRepo.get?_markInterruptedRuns]
      cases σ.get? runId with
      | none => exact .kept
      | some d =>
        show Written ε _ _ runId (some d) (some (if d.status = .RUNNING then _ else d))
        split
        · exact .interrupted rfl ‹_›
        · exact .kept
  -- a failure comes before the operation has written, or after it
  unfold runnerExec
  split
  · exact happly
  · split
    · exact happly
    · exact .kept

/-- A record that has been answered for is there. -/
theorem runnerExec_create {ε : RunnerEnv M} {scenario : String} {dialingMode : DialingMode}
    {σ : SimulationRuns M} {run : SimulationRun M}
    (h : (runnerExec ε (.create scenario dialingMode) σ).1 = .ok run) :
    run.id = ε.newId ∧ σ.get? run.id = none
      ∧ (runnerExec ε (.create scenario dialingMode) σ).2.get? run.id
        = some (SimulationRunRepo.record run.id scenario dialingMode ε.now) := by
  unfold runnerExec at h ⊢
  split at h
  · unfold RunnerOp.apply at h ⊢
    dsimp only at h ⊢
    split at h
    · rename_i runs hruns
      cases h
      have hnone := Collection.get?_none_of_insertOne hruns
      refine ⟨rfl, hnone, ?_⟩
      rw [Collection.get?_of_insertOne hruns]
      exact if_pos rfl
    · cases h
  · cases h

/-! ## Records that tell the truth

A record may be finished after it was marked as interrupted, when the process that marked it is not
the one that runs it. It is then finished as any other, and its mark is gone; this is why `Open`
speaks of the mark. -/

/-- The fields of a record agree with its status. -/
def SimulationRun.Coherent (d : SimulationRun M) : Prop :=
  match d.status with
  | .RUNNING => d.finishedAt = none ∧ d.passed = none ∧ d.violations = [] ∧ d.error = none
      ∧ d.metrics = none
  | .COMPLETED => d.finishedAt ≠ none ∧ d.passed = some true ∧ d.violations = [] ∧ d.error = none
  | .FAILED => d.finishedAt ≠ none ∧ d.passed ≠ some true ∧ (d.violations ≠ [] ∨ d.error ≠ none)

/-- No task has finished the record: it is running, or has been marked as interrupted. -/
structure SimulationRun.Open (d : SimulationRun M) : Prop where
  unreported : d.passed = none
  marked : d.status = .RUNNING ∨ d.error = some SimulationRunRepo.INTERRUPTED_ERROR

/-- The task of the run has finished the record. -/
def SimulationRun.Final (d : SimulationRun M) : Prop :=
  d.status ≠ .RUNNING ∧ d.error ≠ some SimulationRunRepo.INTERRUPTED_ERROR

theorem SimulationRun.Open.not_final {d : SimulationRun M} (h : d.Open) : ¬ d.Final :=
  fun hfinal => h.marked.elim hfinal.1 hfinal.2

theorem coherent_record (runId : DocId) (scenario : String) (dialingMode : DialingMode)
    (now : Time) :
    (SimulationRunRepo.record runId scenario dialingMode now : SimulationRun M).Coherent :=
  ⟨rfl, rfl, rfl, rfl, rfl⟩

/-- **Finishing an open record makes it coherent.** The update gives every field that a finished
record must have, and an open one has none that it must not. -/
theorem SimulationRun.Open.coherent_finished {d : SimulationRun M} (h : d.Open)
    {update : RunUpdate M} (hgiven : update.Given) (now : Time) :
    (SimulationRunRepo.finished update now d).Coherent := by
  cases hgiven with
  | report report =>
    cases hpassed : report.passed with
    -- it has passed: no violations and no error
    | true =>
      obtain ⟨hviolations, herror⟩ := Bool.and_eq_true_iff.mp hpassed
      unfold SimulationRun.Coherent SimulationRunRepo.finished SimulationRunner.reportUpdate
      dsimp only
      rw [hpassed]
      refine ⟨Option.some_ne_none now, rfl, ?_, Option.isNone_iff_eq_none.mp herror⟩
      rw [List.isEmpty_iff.mp hviolations]
      rfl
    -- it has not: one of the two is there
    | false =>
      unfold SimulationRun.Coherent SimulationRunRepo.finished SimulationRunner.reportUpdate
      dsimp only
      rw [hpassed]
      refine ⟨Option.some_ne_none now, nofun, ?_⟩
      rcases Bool.and_eq_false_iff.mp hpassed with hviolations | herror
      · refine Or.inl fun hnil => ?_
        rw [List.map_eq_nil_iff.mp hnil] at hviolations
        cases hviolations
      · refine Or.inr fun hnone => ?_
        rw [hnone] at herror
        cases herror
  | fail error =>
    refine ⟨Option.some_ne_none now, fun htrue => ?_, Or.inr (Option.some_ne_none error)⟩
    cases h.unreported.symm.trans htrue

theorem SimulationRun.Coherent.interrupted {d : SimulationRun M} (h : d.Coherent)
    (hrunning : d.status = .RUNNING) (now : Time) :
    (SimulationRunRepo.interrupted now d).Coherent := by
  unfold SimulationRun.Coherent at h
  rw [hrunning] at h
  refine ⟨Option.some_ne_none now, fun htrue => ?_, Or.inr (Option.some_ne_none _)⟩
  cases h.2.1.symm.trans htrue

/-- Every record is coherent, and every task that has still to finish one has one of its own. -/
structure RecordsKept (σ : SimulationRuns M) (st : Nat → RunnerStage M) : Prop where
  coherent : ∀ runId d, σ.get? runId = some d → d.Coherent
  owed : ∀ p, ∀ runId ∈ (st p).owes, ∃ d, σ.get? runId = some d ∧ d.Open
  apart : ∀ p q, ∀ runId ∈ (st p).owes, runId ∈ (st q).owes → p = q

/-- What a task owes after an operation it has owed before, or has just created. -/
theorem RunnerEmits.owes_next {s : RunnerStage M} {o : RunnerOp M} (h : RunnerEmits s o)
    (r : Except Exn (RunnerRes M o)) :
    ∀ runId ∈ (s.next o r).owes, (runId ∈ s.owes ∧ ∀ update, o ≠ .finish runId update)
      ∨ ∃ scenario dialingMode run, o = .create scenario dialingMode
        ∧ (⟨o, r⟩ : Happening (RunnerOp M) (RunnerRes M) Exn)
          = ⟨.create scenario dialingMode, .ok run⟩ ∧ runId = run.id := by
  intro runId howes
  cases h with
  | look => rcases r with e | (_ | run) <;> cases howes
  | create scenario dialingMode =>
    cases r with
    | error e => cases howes
    | ok run =>
      cases howes
      exact Or.inr ⟨scenario, dialingMode, run, rfl, rfl, rfl⟩
  | run => cases r <;> exact Or.inl ⟨howes, nofun⟩
  | report | fail => cases r <;> cases howes
  | mark => cases r <;> cases howes

section Runs

variable {R : RunnerRegime M}

/-- What one operation does to the records and to what tasks owe. The record that is written and the
task that owes its end are looked at; all other records, and what other tasks owe, stay. -/
theorem RecordsKept.op {σ : SimulationRuns M} {st : Nat → RunnerStage M} (h : RecordsKept σ st)
    (p : Nat) {o : RunnerOp M} (ε : RunnerEnv M) (hemits : RunnerEmits (st p) o) :
    RecordsKept (runnerExec ε o σ).2
      (Function.update st p ((st p).next o (runnerExec ε o σ).1)) := by
  have hwritten := hemits.written ε σ
  -- what a thread owes afterwards it has owed before, unless it has finished or created it
  have howed : ∀ q, ∀ runId ∈ (Function.update st p ((st p).next o (runnerExec ε o σ).1) q).owes,
      (runId ∈ (st q).owes ∧ ∀ update, o = .finish runId update → runId ∉ (st p).owes)
        ∨ q = p ∧ σ.get? runId = none
          ∧ ∃ d, (runnerExec ε o σ).2.get? runId = some d ∧ d.Open := by
    intro q runId hin
    by_cases hq : q = p
    · subst hq
      rw [Function.update_self] at hin
      rcases hemits.owes_next _ runId hin with ⟨hold, hnot⟩ | ⟨scenario, mode, run, rfl, heq, rfl⟩
      · exact Or.inl ⟨hold, fun update ho => absurd ho (hnot update)⟩
      · have hok : (runnerExec ε (.create scenario mode) σ).1 = .ok run :=
          eq_of_heq (Happening.mk.inj heq).2
        obtain ⟨-, hnone, hget⟩ := runnerExec_create hok
        exact Or.inr ⟨rfl, hnone, _, hget, rfl, Or.inl rfl⟩
    · rw [Function.update_of_ne hq] at hin
      exact Or.inl ⟨hin, fun update _ hp => hq (h.apart q p runId hin hp)⟩
  refine ⟨fun runId d hd => ?_, fun q runId hin => ?_, fun q q' runId hin hin' => ?_⟩
  -- coherent: by what was written of the record
  · have hrun := hwritten runId
    rw [hd] at hrun
    generalize hx : σ.get? runId = x at hrun
    cases hrun with
    | kept => exact h.coherent runId d hx
    | created => exact coherent_record ..
    | finished howes _ hgiven =>
      obtain ⟨d', hd', hopen⟩ := h.owed p runId howes
      cases hx.symm.trans hd'
      exact hopen.coherent_finished hgiven ε.now
    | interrupted _ hrunning => exact (h.coherent runId _ hx).interrupted hrunning ε.now
  -- owed: the record was open and nobody else has finished it, or it is new
  · rcases howed q runId hin with ⟨hold, hnot⟩ | ⟨-, -, hnew⟩
    · obtain ⟨d, hd, hopen⟩ := h.owed q runId hold
      have hrun := hwritten runId
      rw [hd] at hrun
      generalize (runnerExec ε o σ).2.get? runId = y at hrun
      cases hrun with
      | kept => exact ⟨d, rfl, hopen⟩
      | finished howes ho _ => exact absurd howes (hnot _ ho)
      | interrupted _ _ => exact ⟨_, rfl, hopen.unreported, Or.inr rfl⟩
    · exact hnew
  -- apart: a new record is owed by nobody else
  · rcases howed q runId hin with ⟨hold, -⟩ | ⟨hq, hnone, -⟩
    · rcases howed q' runId hin' with ⟨hold', -⟩ | ⟨-, hnone', -⟩
      · exact h.apart q q' runId hold hold'
      · obtain ⟨d, hd, -⟩ := h.owed q runId hold
        cases hnone'.symm.trans hd
    · rcases howed q' runId hin' with ⟨hold', -⟩ | ⟨hq', -, -⟩
      · obtain ⟨d, hd, -⟩ := h.owed q' runId hold'
        cases hnone.symm.trans hd
      · exact hq.trans hq'.symm

/-- **Every step keeps the records.** -/
theorem RecordsKept.preserves : (runner (M := M) describe).Preserves R
    fun σ _ st => RecordsKept σ st where
  spawn := fun {σ tr st} p job h _ _ => by
    have hnone : ∀ q, ∀ runId ∈ (Function.update st p ((runner describe).start job) q).owes,
        runId ∈ (st q).owes := by
      intro q runId hin
      by_cases hq : q = p
      · rw [hq, Function.update_self] at hin
        cases job <;> cases hin
      · rwa [Function.update_of_ne hq] at hin
    exact ⟨h.coherent, fun q runId hin => h.owed q runId (hnone q runId hin),
      fun q q' runId hin hin' => h.apart q q' runId (hnone q runId hin) (hnone q' runId hin')⟩
  op := fun p o env h hemits _ _ => h.op p env hemits

theorem recordsKept_of_reachable {σ₀ : SimulationRuns M} {w : RunnerWorld M}
    (h₀ : ∀ runId d, σ₀.get? runId = some d → d.Coherent)
    (h : Reachable (runner describe) R (World.fresh σ₀) w) :
    RecordsKept w.store (w.lastStage (runner describe)) :=
  h.invariant runner_conforms RecordsKept.preserves (World.Obeys.fresh _ σ₀)
    ⟨h₀, nofun, nofun⟩

/-- **Records tell the truth.** Whatever requests, tasks and restarts interleave, and whatever fails
or is cancelled, a running record has no result, a completed one has passed without a violation and
without an error, and a failed one has a reason and has not passed. -/
theorem run_records_coherent {σ₀ : SimulationRuns M} {w : RunnerWorld M}
    (h₀ : ∀ runId d, σ₀.get? runId = some d → d.Coherent)
    (h : Reachable (runner describe) R (World.fresh σ₀) w) :
    ∀ runId d, w.store.get? runId = some d → d.Coherent :=
  (recordsKept_of_reachable h₀ h).coherent

/-! ## Records that stay

`Onward` orders what a record can become. It is proved of one step, from what the step writes, and
composes over a run. -/

/-- What can become of a record: it is of the same run, it does not run again once it has ended, and
once the task of the run has finished it, nothing changes it. -/
structure SimulationRun.Onward (d d' : SimulationRun M) : Prop where
  run : d'.id = d.id ∧ d'.scenario = d.scenario ∧ d'.dialingMode = d.dialingMode
    ∧ d'.startedAt = d.startedAt
  ended : d.status ≠ .RUNNING → d'.status ≠ .RUNNING
  final : d.Final → d' = d

theorem SimulationRun.Onward.refl (d : SimulationRun M) : d.Onward d :=
  ⟨⟨rfl, rfl, rfl, rfl⟩, fun hended => hended, fun _ => rfl⟩

theorem SimulationRun.Onward.trans {d d' d'' : SimulationRun M} (h : d.Onward d')
    (h' : d'.Onward d'') : d.Onward d'' := by
  obtain ⟨hid, hscenario, hmode, hstarted⟩ := h.run
  obtain ⟨hid', hscenario', hmode', hstarted'⟩ := h'.run
  refine ⟨⟨hid'.trans hid, hscenario'.trans hscenario, hmode'.trans hmode,
    hstarted'.trans hstarted⟩, fun hended => h'.ended (h.ended hended), fun hfinal => ?_⟩
  have hsame := h.final hfinal
  subst hsame
  exact h'.final hfinal

theorem RunUpdate.Given.not_running {update : RunUpdate M} (h : update.Given) (now : Time)
    (d : SimulationRun M) : (SimulationRunRepo.finished update now d).status ≠ .RUNNING := by
  cases h with
  | report report =>
    unfold SimulationRunRepo.finished SimulationRunner.reportUpdate
    dsimp only
    split <;> nofun
  | fail error => nofun

theorem onward_finished {d : SimulationRun M} (hopen : d.Open) {update : RunUpdate M}
    (hgiven : update.Given) (now : Time) :
    d.Onward (SimulationRunRepo.finished update now d) := by
  refine ⟨?_, fun _ => hgiven.not_running now d, fun hfinal => absurd hfinal hopen.not_final⟩
  unfold SimulationRunRepo.finished
  split <;> exact ⟨rfl, rfl, rfl, rfl⟩

/-- A step of a thread that keeps to the conduct. -/
theorem RecordsKept.onward {σ : SimulationRuns M} {st : Nat → RunnerStage M}
    (h : RecordsKept σ st) (p : Nat) {o : RunnerOp M} (ε : RunnerEnv M)
    (hemits : RunnerEmits (st p) o) {runId : DocId} {d : SimulationRun M}
    (hd : σ.get? runId = some d) :
    ∃ d', (runnerExec ε o σ).2.get? runId = some d' ∧ d.Onward d' := by
  have hrun := hemits.written ε σ runId
  rw [hd] at hrun
  generalize (runnerExec ε o σ).2.get? runId = y at hrun
  cases hrun with
  | kept => exact ⟨d, rfl, .refl d⟩
  | finished howes _ hgiven =>
    obtain ⟨d', hd', hopen⟩ := h.owed p runId howes
    cases hd.symm.trans hd'
    exact ⟨_, rfl, onward_finished hopen hgiven ε.now⟩
  | interrupted _ hrunning =>
    exact ⟨_, rfl, ⟨rfl, rfl, rfl, rfl⟩, fun _ => nofun, fun hfinal => absurd hrunning hfinal.1⟩

/-- **A finished record is final.** Between any two moments of a run every record is still there and
of the same run; it never runs again once it has ended, and what the task of the run has written in
the end nobody changes, neither another task nor a restart. -/
theorem finished_records_stay {σ₀ : SimulationRuns M} {v w : RunnerWorld M}
    (h₀ : ∀ runId d, σ₀.get? runId = some d → d.Coherent)
    (hv : Reachable (runner describe) R (World.fresh σ₀) v)
    (hw : Reachable (runner describe) R v w) {runId : DocId} {d : SimulationRun M}
    (hd : v.store.get? runId = some d) :
    ∃ d', w.store.get? runId = some d' ∧ d.Onward d' := by
  -- on the steps from the one moment to the other
  induction hw with
  | refl => exact ⟨d, hd, .refl d⟩
  | @step u a hu hok ih =>
    obtain ⟨d', hd', honward⟩ := ih
    rcases u.act_cases (M := runner describe) a with heq | ⟨p, job, -, -, heq⟩ | ⟨p, t, -, -, heq⟩
      | ⟨p, ε, t, o, k, -, ht, -, hprog, heq⟩
    · rw [heq]
      exact ⟨d', hd', honward⟩
    · rw [heq]
      exact ⟨d', hd', honward⟩
    · rw [heq]
      exact ⟨d', hd', honward⟩
    · have hreach := hv.trans hu
      have hfollows := (hreach.obeys runner_conforms (World.Obeys.fresh _ σ₀)).follows p t ht
      rw [hprog, ← World.lastStage_eq ht] at hfollows
      rw [heq]
      obtain ⟨d'', hd'', honward'⟩ := (recordsKept_of_reachable h₀ hreach).onward p ε hfollows.1 hd'
      exact ⟨d'', hd'', honward.trans honward'⟩

/-! ## Runs that are running

`start` looks for a running record and creates one in two operations, so two requests may both have
looked before either creates. The guard rules that out, and nothing else in the program does. -/

/-- What is running after a step was running before, or has just been created. -/
theorem RunnerEmits.running {s : RunnerStage M} {o : RunnerOp M} (h : RunnerEmits s o)
    {ε : RunnerEnv M} {σ : SimulationRuns M} {runId : DocId} {d : SimulationRun M}
    (hd : (runnerExec ε o σ).2.get? runId = some d) (hrunning : d.status = .RUNNING) :
    σ.get? runId = some d ∨ s = .cleared ∧ runId = ε.newId
      ∧ ∃ scenario dialingMode, o = .create scenario dialingMode := by
  have hrun := h.written ε σ runId
  rw [hd] at hrun
  generalize σ.get? runId = x at hrun
  cases hrun with
  | kept => exact Or.inl rfl
  | created hs ho hnew => exact Or.inr ⟨hs, hnew, _, _, ho⟩
  | finished _ _ hgiven => exact absurd hrunning (hgiven.not_running ε.now _)
  | interrupted => cases hrunning

/-- A request looks only while no other is between its look and its record. -/
def oneRequestAtATime : RunnerRegime M where
  admits := fun _ => True
  guard := fun _ live _ o _ => o = .findRunning → ∀ q, live q ≠ .cleared

/-- No two records are running, and none where a request may still create one. -/
structure OneRunning (σ : SimulationRuns M) (live : Nat → RunnerStage M) : Prop where
  one : ∀ i j d d', σ.get? i = some d → σ.get? j = some d' → d.status = .RUNNING →
    d'.status = .RUNNING → i = j
  none : ∀ p, live p = .cleared → ∀ i d, σ.get? i = some d → d.status ≠ .RUNNING
  alone : ∀ p q, live p = .cleared → live q = .cleared → p = q

/-- A request is cleared by finding nothing that is running. -/
theorem RunnerEmits.cleared {s : RunnerStage M} {o : RunnerOp M} (h : RunnerEmits s o)
    {ε : RunnerEnv M} {σ : SimulationRuns M}
    (hnext : s.next o (runnerExec ε o σ).1 = .cleared) :
    o = .findRunning ∧ ∀ i d, σ.get? i = some d → d.status ≠ .RUNNING := by
  generalize hr : (runnerExec ε o σ).1 = r at hnext
  cases h with
  | look =>
    rcases r with e | (_ | run)
    · cases hnext
    · refine ⟨rfl, fun i d hd hrunning => ?_⟩
      -- the answer was that nothing is running
      have hnone : SimulationRunRepo.findRunning σ = none := by
        unfold runnerExec at hr
        split at hr
        · exact Except.ok.inj hr
        · cases hr
      have hin : d ∈ σ.find fun d => d.status = .RUNNING :=
        Collection.mem_find.mpr ⟨(Collection.key_of_get? hd).symm ▸ hd, hrunning⟩
      rw [List.head?_eq_none_iff.mp hnone] at hin
      cases hin
    · cases hnext
  | create scenario dialingMode => cases r <;> cases hnext
  | run => cases r <;> cases hnext
  | report | fail => cases r <;> cases hnext
  | mark => cases r <;> cases hnext

/-- What one operation does to what is running. A new running record is inserted only by a request
that has found none, and no other request is at that point. -/
theorem OneRunning.op {σ : SimulationRuns M} {live : Nat → RunnerStage M} (h : OneRunning σ live)
    (p : Nat) {o : RunnerOp M} (ε : RunnerEnv M) (hemits : RunnerEmits (live p) o)
    (hguard : o = .findRunning → ∀ q, live q ≠ .cleared) :
    OneRunning (runnerExec ε o σ).2
      (Function.update live p ((live p).next o (runnerExec ε o σ).1)) := by
  have hold : ∀ {i d}, (runnerExec ε o σ).2.get? i = some d → d.status = .RUNNING →
      σ.get? i = some d ∨ live p = .cleared ∧ i = ε.newId := fun hd hrunning =>
    (hemits.running hd hrunning).imp_right fun hnew => ⟨hnew.1, hnew.2.1⟩
  -- whoever is cleared afterwards is the one that has just looked, or another that was before
  have hcleared : ∀ q, Function.update live p ((live p).next o (runnerExec ε o σ).1) q = .cleared →
      (q = p ∧ o = .findRunning ∧ ∀ i d, σ.get? i = some d → d.status ≠ .RUNNING)
        ∨ q ≠ p ∧ live q = .cleared ∧ live p ≠ .cleared := by
    intro q hq
    by_cases hqp : q = p
    · rw [hqp, Function.update_self] at hq
      exact Or.inl ⟨hqp, hemits.cleared hq⟩
    · rw [Function.update_of_ne hqp] at hq
      exact Or.inr ⟨hqp, hq, fun hp => hqp (h.alone q p hq hp)⟩
  -- two running records; a running one where a request is cleared; two cleared requests
  refine ⟨fun i j d d' hd hd' hrunning hrunning' => ?_, fun q hq i d hd hrunning => ?_,
    fun q q' hq hq' => ?_⟩
  · rcases hold hd hrunning with hi | ⟨hp, rfl⟩
    · rcases hold hd' hrunning' with hj | ⟨hp, -⟩
      · exact h.one i j d d' hi hj hrunning hrunning'
      · exact absurd hrunning (h.none p hp i d hi)
    · rcases hold hd' hrunning' with hj | ⟨-, rfl⟩
      · exact absurd hrunning' (h.none p hp j d' hj)
      · rfl
  · rcases hcleared q hq with ⟨-, ho, hnone⟩ | ⟨-, hlive, hp⟩
    · rcases hold hd hrunning with hi | ⟨hp, -⟩
      · exact hnone i d hi hrunning
      · exact hguard ho p hp
    · rcases hold hd hrunning with hi | ⟨hp', -⟩
      · exact h.none q hlive i d hi hrunning
      · exact hp hp'
  · rcases hcleared q hq with ⟨rfl, ho, -⟩ | ⟨-, hlive, -⟩
    · rcases hcleared q' hq' with ⟨rfl, -, -⟩ | ⟨-, hlive', -⟩
      · rfl
      · exact absurd hlive' (hguard ho q')
    · rcases hcleared q' hq' with ⟨rfl, ho, -⟩ | ⟨-, hlive', -⟩
      · exact absurd hlive (hguard ho q)
      · exact h.alone q q' hlive hlive'

theorem OneRunning.set {σ : SimulationRuns M} {live : Nat → RunnerStage M} (h : OneRunning σ live)
    (p : Nat) {s : RunnerStage M} (hs : s ≠ .cleared) : OneRunning σ (Function.update live p s) := by
  have hlive : ∀ q, Function.update live p s q = .cleared → live q = .cleared := by
    intro q hq
    by_cases hqp : q = p
    · rw [hqp, Function.update_self] at hq
      exact absurd hq hs
    · rwa [Function.update_of_ne hqp] at hq
  exact ⟨h.one, fun q hq => h.none q (hlive q hq),
    fun q q' hq hq' => h.alone q q' (hlive q hq) (hlive q' hq')⟩

theorem OneRunning.preserves : (runner (M := M) describe).PreservesRunning oneRequestAtATime
    fun σ _ live => OneRunning σ live where
  spawn := fun p job h _ _ => h.set p (by cases job <;> nofun)
  op := fun p o ε h hemits hguard => h.op p ε hemits hguard
  drop := fun p h => h.set p nofun

/-- At most one is running exactly when any two that run are the same. -/
theorem length_running_le_one {σ : SimulationRuns M} :
    (σ.find fun d => d.status = .RUNNING).length ≤ 1
      ↔ ∀ i j d d', σ.get? i = some d → σ.get? j = some d' → d.status = .RUNNING →
        d'.status = .RUNNING → i = j := by
  have hfound : ∀ {i d}, σ.get? i = some d → d.status = .RUNNING →
      d ∈ σ.find fun d => d.status = .RUNNING := fun hd hrunning =>
    Collection.mem_find.mpr ⟨(Collection.key_of_get? hd).symm ▸ hd, hrunning⟩
  -- two members of a list of at most one are equal, and a list without two different members is
  -- short
  constructor
  · intro hlength i j d d' hd hd' hrunning hrunning'
    have hsame : d = d' := by
      have hin := hfound hd hrunning
      have hin' := hfound hd' hrunning'
      generalize (σ.find fun d => d.status = .RUNNING) = l at hlength hin hin'
      rcases l with _ | ⟨x, _ | ⟨y, l⟩⟩
      · cases hin
      · exact (List.mem_singleton.mp hin).trans (List.mem_singleton.mp hin').symm
      · rw [List.length_cons, List.length_cons] at hlength
        omega
    exact (Collection.key_of_get? hd).symm.trans (hsame ▸ Collection.key_of_get? hd')
  · intro hone
    have hnodup := List.Nodup.of_map _ (σ.find_nodup fun d => d.status = .RUNNING)
    have hall : ∀ d ∈ σ.find fun d => d.status = .RUNNING,
        ∀ d' ∈ σ.find fun d => d.status = .RUNNING, d = d' := by
      intro d hd d' hd'
      obtain ⟨hget, hrunning⟩ := Collection.mem_find.mp hd
      obtain ⟨hget', hrunning'⟩ := Collection.mem_find.mp hd'
      have hid := hone _ _ d d' hget hget' hrunning hrunning'
      exact Option.some.inj (hget.symm.trans (hid ▸ hget'))
    generalize (σ.find fun d => d.status = .RUNNING) = l at hnodup hall
    rcases l with _ | ⟨d, _ | ⟨d', l⟩⟩
    · exact Nat.zero_le 1
    · exact le_refl 1
    · have hsame := hall d List.mem_cons_self d' (List.mem_cons_of_mem d List.mem_cons_self)
      exact absurd (hsame ▸ List.mem_cons_self) (List.nodup_cons.mp hnodup).1

/-- **One simulation at a time**, however many are requested, by however many processes: as long as
no request looks between the look and the record of another, no two records are ever running. -/
theorem one_run_at_a_time {σ₀ : SimulationRuns M} {w : RunnerWorld M}
    (h₀ : (σ₀.find fun d => d.status = .RUNNING).length ≤ 1)
    (h : Reachable (runner describe) oneRequestAtATime (World.fresh σ₀) w) :
    (w.store.find fun d => d.status = .RUNNING).length ≤ 1 :=
  length_running_le_one.mpr
    (h.invariant_running runner_conforms OneRunning.preserves (World.Obeys.fresh _ σ₀)
      ⟨length_running_le_one.mp h₀, nofun, nofun⟩).one

/-! ## Restarts

A restart marks everything that is running at that moment. What is running later must have been
created, and the trace says when. -/

/-- Whatever is running was created after the last restart. -/
def RunningSince (σ : SimulationRuns M)
    (tr : List (Entry (RunnerOp M) (RunnerRes M) Exn (RunnerEnv M))) : Prop :=
  ∀ before e after n, tr = before ++ e :: after → e.happening = ⟨.markInterruptedRuns, .ok n⟩ →
    ∀ runId d, σ.get? runId = some d → d.status = .RUNNING →
      ∃ e' ∈ after, (∃ scenario dialingMode, e'.op = .create scenario dialingMode)
        ∧ e'.env.newId = runId

/-- Nothing is running right after a restart. -/
theorem markInterruptedRuns_none {ε : RunnerEnv M} {σ : SimulationRuns M} {n : Nat}
    (h : (runnerExec ε .markInterruptedRuns σ).1 = .ok n) {runId : DocId} {d : SimulationRun M}
    (hd : (runnerExec ε .markInterruptedRuns σ).2.get? runId = some d) :
    d.status ≠ .RUNNING := by
  unfold runnerExec at h hd
  split at h
  · rename_i hfault
    rw [hfault] at hd
    obtain ⟨d', -, rfl⟩ := Option.map_eq_some_iff.mp
      ((SimulationRunRepo.get?_markInterruptedRuns ε.now σ runId).symm.trans hd)
    by_cases hrunning : d'.status = .RUNNING
    · rw [if_pos hrunning]
      nofun
    · rw [if_neg hrunning]
      exact hrunning
  · cases h

theorem RunningSince.preserves : (runner (M := M) describe).Preserves R
    fun σ tr _ => RunningSince σ tr where
  spawn := fun p job h _ _ => h
  op := fun {σ tr st live} p o ε h hemits _ _ => by
    intro before e after n htr hmark runId d hd hrunning
    rcases split_of_snoc htr with ⟨-, -, rfl⟩ | ⟨after', rfl, hsplit⟩
    · -- the restart itself
      obtain ⟨rfl, hanswer⟩ := Happening.mk.inj hmark
      exact absurd hrunning (markInterruptedRuns_none (eq_of_heq hanswer) hd)
    · rcases hemits.running hd hrunning with hold | ⟨-, hnew, hcreate⟩
      · obtain ⟨e', he', hcreated⟩ := h before e after' n hsplit hmark runId d hold hrunning
        exact ⟨e', List.mem_append_left _ he', hcreated⟩
      · exact ⟨⟨p, o, ε, _⟩, List.mem_append_right _ (List.mem_singleton_self _), hcreate,
          hnew.symm⟩

/-- **A restart leaves nothing running.** Whatever is running at any moment after a restart has gone
through its records was created since. -/
theorem restart_clears {σ₀ : SimulationRuns M} {w : RunnerWorld M}
    (h : Reachable (runner describe) R (World.fresh σ₀) w)
    {before after : List (Entry (RunnerOp M) (RunnerRes M) Exn (RunnerEnv M))}
    {e : Entry (RunnerOp M) (RunnerRes M) Exn (RunnerEnv M)} {n : Nat}
    (he : w.trace = before ++ e :: after) (hmark : e.happening = ⟨.markInterruptedRuns, .ok n⟩)
    {runId : DocId} {d : SimulationRun M} (hd : w.store.get? runId = some d)
    (hrunning : d.status = .RUNNING) :
    ∃ e' ∈ after, (∃ scenario dialingMode, e'.op = .create scenario dialingMode)
      ∧ e'.env.newId = runId := by
  have hsince : RunningSince w.store w.trace :=
    h.invariant runner_conforms RunningSince.preserves (World.Obeys.fresh _ σ₀)
      fun before e after n htr => by
        have hlength := congrArg List.length htr
        simp [World.fresh] at hlength
  exact hsince before e after n he hmark runId d hd hrunning

end Runs

/-! A process starts, a simulation is requested and passes, and another one is requested. -/

def runnerEnv (newId : String) : RunnerEnv Unit where
  newId := .ofString newId
  outcome := .ok { metrics := some () }

abbrev demoRunner : Machine RunnerJob (RunnerOp Unit) (RunnerRes Unit) Exn (SimulationRuns Unit)
    (RunnerEnv Unit) Unit (RunnerStage Unit) :=
  runner fun _ => "error"

def anyRequests : RunnerRegime Unit where
  admits := fun _ => True
  guard := fun _ _ _ _ _ => True

def firstRequest : List (Action RunnerJob (RunnerEnv Unit)) :=
  .spawn 1 (.simulate "A" .PROGRESSIVE) :: List.replicate 4 (.perform 1 (runnerEnv "first"))

def secondRequest : List (Action RunnerJob (RunnerEnv Unit)) :=
  .spawn 2 (.simulate "B" .PREDICTIVE) :: List.replicate 2 (.perform 2 (runnerEnv "second"))

def restarted : RunnerWorld Unit :=
  (World.fresh ∅).acts demoRunner [.spawn 0 .reconcile, .perform 0 (runnerEnv "")]

def firstPassed : RunnerWorld Unit := restarted.acts demoRunner firstRequest

def secondRunning : RunnerWorld Unit := firstPassed.acts demoRunner secondRequest

theorem restarted_reachable : Reachable demoRunner anyRequests (World.fresh ∅) restarted :=
  Reachable.of_acts _ _ (fun _ _ _ => trivial) fun _ _ _ _ => trivial

theorem firstPassed_reachable : Reachable demoRunner anyRequests (World.fresh ∅) firstPassed :=
  restarted_reachable.trans (Reachable.of_acts _ _ (fun _ _ _ => trivial) fun _ _ _ _ => trivial)

theorem secondRunning_later : Reachable demoRunner anyRequests firstPassed secondRunning :=
  Reachable.of_acts _ _ (fun _ _ _ => trivial) fun _ _ _ _ => trivial

theorem exists_record {w : RunnerWorld Unit} {runId : DocId} {status : RunStatus}
    (h : (w.store.get? runId).map SimulationRun.status = some status) :
    ∃ d, w.store.get? runId = some d ∧ d.status = status :=
  Option.map_eq_some_iff.mp h

theorem firstPassed_completed :
    (firstPassed.store.get? (.ofString "first")).map SimulationRun.status = some .COMPLETED := by
  decide +kernel

theorem run_records_coherent_passed : ∃ d, firstPassed.store.get? (.ofString "first") = some d
    ∧ d.status = .COMPLETED ∧ d.Coherent := by
  obtain ⟨d, hd, hstatus⟩ := exists_record firstPassed_completed
  exact ⟨d, hd, hstatus, run_records_coherent (fun _ _ hnone => by cases hnone)
    firstPassed_reachable (.ofString "first") d hd⟩

theorem finished_records_stay_passed : ∃ d d', firstPassed.store.get? (.ofString "first") = some d
    ∧ d.status = .COMPLETED ∧ secondRunning.store.get? (.ofString "first") = some d'
    ∧ d.Onward d' := by
  obtain ⟨d, hd, hstatus⟩ := exists_record firstPassed_completed
  obtain ⟨d', hd', honward⟩ := finished_records_stay (fun _ _ hnone => by cases hnone)
    firstPassed_reachable secondRunning_later hd
  exact ⟨d, d', hd, hstatus, hd', honward⟩

/-- The request has found nothing running. -/
def RunnerStage.looked : RunnerStage M → Bool
  | .cleared => true
  | _ => false

/-- No thread of the demo is about to look while one of them is cleared. -/
def looksAlone (w : RunnerWorld Unit) : Action RunnerJob (RunnerEnv Unit) → Bool
  | .perform p _ =>
    match (w.threads p).map Thread.prog with
    | some (.op .findRunning _) => [0, 1, 2].all fun q => !(w.stageOf demoRunner q).looked
    | _ => true
  | _ => true

theorem secondRunning_alone :
    Reachable demoRunner oneRequestAtATime (World.fresh ∅) secondRunning := by
  have hacts : secondRunning = (World.fresh ∅).acts demoRunner
      ([.spawn 0 .reconcile, .perform 0 (runnerEnv "")] ++ firstRequest ++ secondRequest) := by
    unfold secondRunning firstPassed restarted World.acts
    rw [List.foldl_append, List.foldl_append]
  rw [hacts]
  refine Reachable.of_checked_among [0, 1, 2] looksAlone (fun w a hidle hok => ?_)
    (Action.mem_of_startsAmong (by decide)) (fun _ _ => rfl) .refl (by decide +kernel)
  cases a with
  | spawn p job => trivial
  | crash p => trivial
  | perform p env =>
    intro t o k ht _ hprog hlook q hq
    subst hlook
    simp only [looksAlone, ht, Option.map_some, hprog] at hok
    by_cases hmem : q ∈ [0, 1, 2]
    · have hnot := List.all_eq_true.mp hok q hmem
      rw [hq] at hnot
      cases hnot
    · cases (hidle q hmem).symm.trans hq

theorem one_run_at_a_time_alone :
    (secondRunning.store.find fun d => d.status = .RUNNING).length ≤ 1 :=
  have hempty : ((∅ : SimulationRuns Unit).find fun d => d.status = .RUNNING).length ≤ 1 :=
    Nat.zero_le 1
  one_run_at_a_time hempty secondRunning_alone

/-- Two requests that both look before either of them creates its record. -/
def bothLook : List (Action RunnerJob (RunnerEnv Unit)) :=
  [.spawn 1 (.simulate "A" .PROGRESSIVE), .spawn 2 (.simulate "B" .PREDICTIVE),
    .perform 1 (runnerEnv "first"), .perform 2 (runnerEnv "second"),
    .perform 1 (runnerEnv "first"), .perform 2 (runnerEnv "second")]

-- nothing but the order of the requests keeps the second one out
example : (((World.fresh ∅).acts demoRunner bothLook).store.find fun d =>
    d.status = .RUNNING).length = 2 := by
  decide +kernel

theorem restart_clears_restarted : ∃ after d, secondRunning.trace
      = [] ++ ⟨0, .markInterruptedRuns, runnerEnv "", .ok 0⟩ :: after
    ∧ secondRunning.store.get? (.ofString "second") = some d ∧ d.status = .RUNNING
    ∧ ∃ e' ∈ after, (∃ scenario dialingMode, e'.op = .create scenario dialingMode)
      ∧ e'.env.newId = .ofString "second" := by
  have hrunning : (secondRunning.store.get? (.ofString "second")).map SimulationRun.status
      = some .RUNNING := by
    decide +kernel
  obtain ⟨d, hd, hstatus⟩ := exists_record hrunning
  have hfirst : restarted.trace = [⟨0, .markInterruptedRuns, runnerEnv "", .ok 0⟩] := rfl
  obtain ⟨after, hafter⟩ := (World.trace_prefix_acts restarted firstRequest).trans
    (World.trace_prefix_acts firstPassed secondRequest)
  have htrace : secondRunning.trace
      = [] ++ ⟨0, .markInterruptedRuns, runnerEnv "", .ok 0⟩ :: after :=
    hafter.symm.trans (congrArg (fun tr => tr ++ after) hfirst)
  exact ⟨after, d, htrace, hd, hstatus,
    restart_clears (firstPassed_reachable.trans secondRunning_later) htrace rfl hd hstatus⟩

end SmartDialer
