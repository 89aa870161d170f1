import Mathlib.Data.List.Induction
import SmartDialer.Lib.Program

/-!
# Interleaved threads over one store

A `Machine` says how an operation acts on the store, which program each job runs, and a
*conduct*: a stage for every point of every program, the operations a stage may emit, and the
stage that follows an operation and its answer. The stage of a thread is a function of what
the thread has done so far; no program reads it.

A `World` is a store, threads that perform one operation at a time, and the trace of all
operations performed. `Reachable` allows any scheduling, any number of threads, and the death
of a thread at any point. The two facts every safety proof starts from are

* `Machine.Follows`: a program keeps to the conduct, whatever answers it gets, and
* `Reachable.invariant`: a property of store, trace and stages that every operation *emitted at
  its stage* preserves holds in every reachable world.
-/

namespace Concurrent

/-- One performed operation: who performed it, in which environment, with which answer. -/
structure Entry (Op : Type) (Res : Op → Type) (Exn Env : Type) where
  pid : Nat
  op : Op
  env : Env
  resp : Except Exn (Res op)

/-- A running, finished or crashed execution of the program of `job`. -/
structure Thread (Job Op : Type) (Res : Op → Type) (Exn Out Stage : Type) where
  job : Job
  prog : Prog Op Res Exn Out
  stage : Stage
  crashed : Bool

structure World (Job Op : Type) (Res : Op → Type) (Exn Store Env Out Stage : Type) where
  store : Store
  threads : Nat → Option (Thread Job Op Res Exn Out Stage)
  trace : List (Entry Op Res Exn Env)

/-- What the scheduler does next. -/
inductive Action (Job Env : Type) where
  | spawn (pid : Nat) (job : Job)
  | perform (pid : Nat) (env : Env)
  | crash (pid : Nat)

structure Machine (Job Op : Type) (Res : Op → Type) (Exn Store Env Out Stage : Type) where
  exec : Env → (o : Op) → Store → Except Exn (Res o) × Store
  program : Job → Prog Op Res Exn Out
  idle : Stage
  start : Job → Stage
  Emits : Stage → Op → Prop
  next : Stage → (o : Op) → Except Exn (Res o) → Stage

/-- Which jobs a run may start, and when an operation may be performed. The guard sees the
store, the stage of every running thread and the operation about to be performed. -/
structure Regime (Job Op Store Env Stage : Type) where
  admits : Job → Prop
  guard : Store → (Nat → Stage) → Nat → Op → Env → Prop

variable {Job Op : Type} {Res : Op → Type} {Exn Store Env Out Stage α β : Type}

/-- A thread that has not crashed and still has an operation to perform. -/
def Thread.running (t : Thread Job Op Res Exn Out Stage) : Bool :=
  match t.prog with
  | .op _ _ => !t.crashed
  | _ => false

/-- A thread that has returned or raised. -/
def Thread.finished (t : Thread Job Op Res Exn Out Stage) : Bool :=
  match t.prog with
  | .op _ _ => false
  | _ => true

namespace World

variable (M : Machine Job Op Res Exn Store Env Out Stage)

/-- One action of the scheduler; an action that does not apply changes nothing. -/
def act (w : World Job Op Res Exn Store Env Out Stage) :
    Action Job Env → World Job Op Res Exn Store Env Out Stage
  | .spawn p job =>
    match w.threads p with
    | some _ => w
    | none => { w with
        threads := Function.update w.threads p
          (some { job, prog := M.program job, stage := M.start job, crashed := false }) }
  | .perform p env =>
    match w.threads p with
    | none => w
    | some t =>
      match t.crashed, t.prog with
      | false, .op o k =>
        let r := M.exec env o w.store
        { store := r.2
          threads := Function.update w.threads p
            (some { t with prog := k r.1, stage := M.next t.stage o r.1 })
          trace := w.trace ++ [⟨p, o, env, r.1⟩] }
      | _, _ => w
  | .crash p =>
    match w.threads p with
    | none => w
    | some t => { w with threads := Function.update w.threads p (some { t with crashed := true }) }

/-- A run of the scheduler. -/
def acts (w : World Job Op Res Exn Store Env Out Stage) (as : List (Action Job Env)) :
    World Job Op Res Exn Store Env Out Stage :=
  as.foldl (act M) w

/-- The stage of a running thread; whatever is not running is idle. -/
def stageOf (w : World Job Op Res Exn Store Env Out Stage) (p : Nat) : Stage :=
  match w.threads p with
  | some t => if t.running then t.stage else M.idle
  | none => M.idle

/-- The stage a thread is in or ended in. -/
def lastStage (w : World Job Op Res Exn Store Env Out Stage) (p : Nat) : Stage :=
  match w.threads p with
  | some t => t.stage
  | none => M.idle

end World

namespace Regime

/-- When the scheduler may take an action. -/
def allows (R : Regime Job Op Store Env Stage) (M : Machine Job Op Res Exn Store Env Out Stage)
    (w : World Job Op Res Exn Store Env Out Stage) : Action Job Env → Prop
  | .spawn _ job => R.admits job
  | .perform p env => ∀ t o k, w.threads p = some t → t.crashed = false → t.prog = .op o k →
      R.guard w.store (w.stageOf M) p o env
  | .crash _ => True

end Regime

/-- The worlds a run under regime `R` reaches from `w₀`. -/
inductive Reachable (M : Machine Job Op Res Exn Store Env Out Stage)
    (R : Regime Job Op Store Env Stage) (w₀ : World Job Op Res Exn Store Env Out Stage) :
    World Job Op Res Exn Store Env Out Stage → Prop where
  | refl : Reachable M R w₀ w₀
  | step {w : World Job Op Res Exn Store Env Out Stage} (a : Action Job Env)
      (h : Reachable M R w₀ w) (hok : R.allows M w a) : Reachable M R w₀ (w.act M a)

namespace Machine

variable (M : Machine Job Op Res Exn Store Env Out Stage)

/-- From stage `s` the program only performs operations the conduct emits there, and ends in
a stage and a result satisfying `Q`, whatever the answers are. -/
def Follows : Stage → Prog Op Res Exn α → (Stage → Except Exn α → Prop) → Prop
  | s, .ret a, Q => Q s (.ok a)
  | s, .raise e, Q => Q s (.error e)
  | s, .op o k, Q => M.Emits s o ∧ ∀ r, Follows (M.next s o r) (k r) Q

variable {M}

@[simp] theorem follows_ret (s : Stage) (a : α) (Q : Stage → Except Exn α → Prop) :
    M.Follows s (.ret a) Q ↔ Q s (.ok a) := Iff.rfl

@[simp] theorem follows_raise (s : Stage) (e : Exn) (Q : Stage → Except Exn α → Prop) :
    M.Follows s (.raise e) Q ↔ Q s (.error e) := Iff.rfl

theorem follows_perform (s : Stage) (o : Op) (Q : Stage → Except Exn (Res o) → Prop) :
    M.Follows s (Prog.perform o) Q ↔ M.Emits s o ∧ ∀ r, Q (M.next s o r) r := by
  refine and_congr Iff.rfl (forall_congr' fun r => ?_)
  cases r <;> exact Iff.rfl

theorem follows_bind (s : Stage) (x : Prog Op Res Exn α) (f : α → Prog Op Res Exn β)
    (Q : Stage → Except Exn β → Prop) :
    M.Follows s (x.bind f) Q ↔ M.Follows s x (fun s' r =>
      match r with
      | .ok a => M.Follows s' (f a) Q
      | .error e => Q s' (.error e)) := by
  induction x generalizing s with
  | ret a => exact Iff.rfl
  | raise e => exact Iff.rfl
  | op o k ih => exact and_congr Iff.rfl (forall_congr' fun r => ih _ _)

/-- The rule of exception handling: the handler starts at the stage where the exception was
raised. -/
theorem follows_catching (s : Stage) (x : Prog Op Res Exn α) (h : Exn → Prog Op Res Exn α)
    (Q : Stage → Except Exn α → Prop) :
    M.Follows s (x.catching h) Q ↔ M.Follows s x (fun s' r =>
      match r with
      | .ok a => Q s' (.ok a)
      | .error e => M.Follows s' (h e) Q) := by
  induction x generalizing s with
  | ret a => exact Iff.rfl
  | raise e => exact Iff.rfl
  | op o k ih => exact and_congr Iff.rfl (forall_congr' fun r => ih _ _)

theorem Follows.mono {s : Stage} {x : Prog Op Res Exn α} {Q Q' : Stage → Except Exn α → Prop}
    (h : M.Follows s x Q) (hQ : ∀ s' r, Q s' r → Q' s' r) : M.Follows s x Q' := by
  induction x generalizing s with
  | ret a => exact hQ _ _ h
  | raise e => exact hQ _ _ h
  | op o k ih => exact ⟨h.1, fun r => ih _ (h.2 r)⟩

/-- Every program keeps to the conduct from the start of its job; `Q` is what a thread that
has finished knows about its last stage and its result. -/
def Conforms (M : Machine Job Op Res Exn Store Env Out Stage)
    (Q : Job → Stage → Except Exn Out → Prop) : Prop :=
  ∀ job, M.Follows (M.start job) (M.program job) (Q job)

end Machine

/-! ## Threads of a reachable world keep to the conduct

The programs are checked against the conduct one by one, with every answer an operation could give.
What is left to show about a world is that each of its threads is at the stage that its program is
checked from. -/

section Runs

variable {M : Machine Job Op Res Exn Store Env Out Stage} {R : Regime Job Op Store Env Stage}
  {w₀ w : World Job Op Res Exn Store Env Out Stage}

/-- A world in which nothing has been started. -/
def World.fresh (σ : Store) : World Job Op Res Exn Store Env Out Stage where
  store := σ
  threads := fun _ => none
  trace := []

/-- Every thread, at the stage it is in, keeps to the conduct for the rest of its program, and
whatever has been performed was performed by a thread. -/
structure World.Obeys (M : Machine Job Op Res Exn Store Env Out Stage)
    (Q : Job → Stage → Except Exn Out → Prop)
    (w : World Job Op Res Exn Store Env Out Stage) : Prop where
  follows : ∀ p t, w.threads p = some t → M.Follows t.stage t.prog (Q t.job)
  performed : ∀ e ∈ w.trace, w.threads e.pid ≠ none

/-- What one action does: it changes nothing, starts a thread, marks a thread as crashed, or
performs the next operation of a running thread. -/
theorem World.act_cases (w : World Job Op Res Exn Store Env Out Stage) (a : Action Job Env) :
    w.act M a = w
    ∨ (∃ p job, a = .spawn p job ∧ w.threads p = none ∧ w.act M a = { w with
        threads := Function.update w.threads p
          (some { job, prog := M.program job, stage := M.start job, crashed := false }) })
    ∨ (∃ p t, a = .crash p ∧ w.threads p = some t ∧ w.act M a = { w with
        threads := Function.update w.threads p (some { t with crashed := true }) })
    ∨ (∃ p env t o k, a = .perform p env ∧ w.threads p = some t ∧ t.crashed = false
        ∧ t.prog = .op o k ∧ w.act M a =
        { store := (M.exec env o w.store).2
          threads := Function.update w.threads p
            (some { t with prog := k (M.exec env o w.store).1,
                           stage := M.next t.stage o (M.exec env o w.store).1 })
          trace := w.trace ++ [⟨p, o, env, (M.exec env o w.store).1⟩] }) := by
  cases a with
  | spawn p job =>
    cases ht : w.threads p with
    | some t => exact Or.inl (by simp [World.act, ht])
    | none => exact Or.inr (Or.inl ⟨p, job, rfl, ht, by simp [World.act, ht]⟩)
  -- an action on a thread that is not there does nothing
  | crash p =>
    cases ht : w.threads p with
    | none => exact Or.inl (by simp [World.act, ht])
    | some t => exact Or.inr (Or.inr (Or.inl ⟨p, t, rfl, ht, by simp [World.act, ht]⟩))
  | perform p env =>
    cases ht : w.threads p with
    | none => exact Or.inl (by simp [World.act, ht])
    | some t =>
      -- and only a thread that has neither crashed nor ended performs anything
      cases hc : t.crashed with
      | true => exact Or.inl (by simp [World.act, ht, hc])
      | false =>
        cases hp : t.prog with
        | ret a => exact Or.inl (by simp [World.act, ht, hc, hp])
        | raise e => exact Or.inl (by simp [World.act, ht, hc, hp])
        | op o k =>
          exact Or.inr (Or.inr (Or.inr ⟨p, env, t, o, k, rfl, ht, hc, hp,
            by simp [World.act, ht, hc, hp]⟩))

/-- Replacing one thread by one that keeps to the conduct. -/
theorem World.Obeys.set {Q : Job → Stage → Except Exn Out → Prop} (h : w.Obeys M Q) {p : Nat}
    {t : Thread Job Op Res Exn Out Stage} (ht : M.Follows t.stage t.prog (Q t.job))
    {w' : World Job Op Res Exn Store Env Out Stage}
    (hw' : w'.threads = Function.update w.threads p (some t))
    (htrace : ∀ e ∈ w'.trace, e ∈ w.trace ∨ e.pid = p) : w'.Obeys M Q := by
  refine ⟨fun q u hu => ?_, fun e he => ?_⟩
  · rw [hw'] at hu
    by_cases hq : q = p
    · rw [hq, Function.update_self] at hu
      cases hu
      exact ht
    · rw [Function.update_of_ne hq] at hu
      exact h.follows q u hu
  · rw [hw']
    by_cases hp : e.pid = p
    · rw [hp, Function.update_self]
      exact Option.some_ne_none t
    · rw [Function.update_of_ne hp]
      exact h.performed e ((htrace e he).resolve_right hp)

theorem World.lastStage_set {p : Nat} {t : Thread Job Op Res Exn Out Stage}
    {w' : World Job Op Res Exn Store Env Out Stage}
    (hw' : w'.threads = Function.update w.threads p (some t)) :
    w'.lastStage M = Function.update (w.lastStage M) p t.stage := by
  funext q
  unfold World.lastStage
  rw [hw']
  by_cases hq : q = p
  · rw [hq, Function.update_self, Function.update_self]
  · rw [Function.update_of_ne hq, Function.update_of_ne hq]

theorem World.lastStage_eq {p : Nat} {t : Thread Job Op Res Exn Out Stage}
    (ht : w.threads p = some t) : w.lastStage M p = t.stage := by
  unfold World.lastStage
  rw [ht]

/-- Every reachable world keeps to a conduct that its programs conform to. -/
theorem Reachable.obeys {Q : Job → Stage → Except Exn Out → Prop} (hM : M.Conforms Q)
    (hw₀ : w₀.Obeys M Q) (h : Reachable M R w₀ w) : w.Obeys M Q := by
  induction h with
  | refl => exact hw₀
  | @step w a _ _ ih =>
    rcases w.act_cases (M := M) a with heq | ⟨p, job, -, -, heq⟩ | ⟨p, t, -, ht, heq⟩
      | ⟨p, env, t, o, k, -, ht, -, hprog, heq⟩
    · rw [heq]
      exact ih
    · exact ih.set (hM job) (by rw [heq]) fun e he => Or.inl (by rwa [heq] at he)
    · exact ih.set (t := { t with crashed := true }) (ih.follows p t ht) (by rw [heq])
        fun e he => Or.inl (by rwa [heq] at he)
    · have hfollow := ih.follows p t ht
      rw [hprog] at hfollow
      refine ih.set (t := { t with prog := k (M.exec env o w.store).1,
                                   stage := M.next t.stage o (M.exec env o w.store).1 })
        (hfollow.2 _) (by rw [heq]) fun e he => ?_
      rw [heq, List.mem_append, List.mem_singleton] at he
      exact he.imp id fun he => by rw [he]

/-! ## Invariants

There are two of these rules. The first keeps the stage of a thread that has ended, for results
about what a thread has done; the second forgets it, for results about what running threads hold. -/

/-- A property of store, trace and stages that survives whatever a thread may do at its stage.
The stage of a thread that ends stays the one it ended in. A thread that is started has not
performed anything, and one that performs is running, so the guard has seen its stage. -/
structure Machine.Preserves (M : Machine Job Op Res Exn Store Env Out Stage)
    (R : Regime Job Op Store Env Stage)
    (I : Store → List (Entry Op Res Exn Env) → (Nat → Stage) → Prop) : Prop where
  spawn : ∀ {σ tr st} (p : Nat) (job : Job), I σ tr st → R.admits job → (∀ e ∈ tr, e.pid ≠ p) →
    I σ tr (Function.update st p (M.start job))
  op : ∀ {σ tr st live} (p : Nat) (o : Op) (env : Env), I σ tr st → M.Emits (st p) o →
    live p = st p → R.guard σ live p o env →
    I (M.exec env o σ).2 (tr ++ [⟨p, o, env, (M.exec env o σ).1⟩])
      (Function.update st p (M.next (st p) o (M.exec env o σ).1))

/-- **Invariants of all threads**: what is preserved by every operation that is emitted at its stage
holds in every reachable world. -/
theorem Reachable.invariant
    {I : Store → List (Entry Op Res Exn Env) → (Nat → Stage) → Prop}
    {Q : Job → Stage → Except Exn Out → Prop} (hM : M.Conforms Q) (hI : M.Preserves R I)
    (hobeys : w₀.Obeys M Q) (hinit : I w₀.store w₀.trace (w₀.lastStage M))
    (h : Reachable M R w₀ w) : I w.store w.trace (w.lastStage M) := by
  induction h with
  | refl => exact hinit
  | @step w a hreach hok ih =>
    -- nothing happens, a thread starts, a thread dies, or a thread performs
    rcases w.act_cases (M := M) a with heq | ⟨p, job, ha, ht, heq⟩ | ⟨p, t, ha, ht, heq⟩
      | ⟨p, env, t, o, k, ha, ht, hc, hprog, heq⟩
    · rw [heq]
      exact ih
    · rw [World.lastStage_set (w := w) (by rw [heq]), heq]
      subst ha
      exact hI.spawn p job ih hok fun e he hp =>
        (hreach.obeys hM hobeys).performed e he (by rw [hp, ht])
    · have hstage : (w.act M a).lastStage M = Function.update (w.lastStage M) p t.stage :=
        World.lastStage_set (t := { t with crashed := true }) (by rw [heq])
      rw [← World.lastStage_eq (M := M) ht, Function.update_eq_self] at hstage
      rw [hstage, heq]
      exact ih
    · have hfollow := (hreach.obeys hM hobeys).follows p t ht
      rw [hprog, ← World.lastStage_eq (M := M) ht] at hfollow
      have hlive : w.stageOf M p = w.lastStage M p := by
        rw [World.lastStage_eq ht]
        unfold World.stageOf
        rw [ht]
        simp [Thread.running, hprog, hc]
      rw [World.lastStage_set (w := w) (by rw [heq]), heq, ← World.lastStage_eq (M := M) ht]
      subst ha
      exact hI.op p o env ih hfollow.1 hlive (hok t o k ht hc hprog)

/-- A fact about the job of a thread and the stage it is in, if no step spoils it. For facts that
need no knowledge of the store, such as which stages a job can come to. -/
theorem Reachable.threads {P : Job → Stage → Prop} (hstart : ∀ job, P job (M.start job))
    (hnext : ∀ job s o r, P job s → P job (M.next s o r))
    (hw₀ : ∀ p t, w₀.threads p = some t → P t.job t.stage) (h : Reachable M R w₀ w) :
    ∀ p t, w.threads p = some t → P t.job t.stage := by
  have hset : ∀ {v : World Job Op Res Exn Store Env Out Stage} {p : Nat}
      {t : Thread Job Op Res Exn Out Stage}, (∀ q u, v.threads q = some u → P u.job u.stage) →
      P t.job t.stage →
      ∀ q u, Function.update v.threads p (some t) q = some u → P u.job u.stage := by
    intro v p t hv ht q u hu
    by_cases hq : q = p
    · rw [hq, Function.update_self] at hu
      cases hu
      exact ht
    · rw [Function.update_of_ne hq] at hu
      exact hv q u hu
  induction h with
  | refl => exact hw₀
  | @step w a _ _ ih =>
    -- a thread is left alone, started, marked as crashed, or led to its next stage
    rcases w.act_cases (M := M) a with heq | ⟨p, job, -, -, heq⟩ | ⟨p, t, -, ht, heq⟩
      | ⟨p, env, t, o, k, -, ht, -, -, heq⟩
    · rw [heq]
      exact ih
    · rw [heq]
      exact hset ih (hstart job)
    · rw [heq]
      exact hset (t := { t with crashed := true }) ih (ih p t ht)
    · rw [heq]
      exact hset (t := { t with prog := k (M.exec env o w.store).1,
                                stage := M.next t.stage o (M.exec env o w.store).1 })
        ih (hnext _ _ _ _ (ih p t ht))

/-- The stages of the running threads after one of them has been replaced. -/
theorem World.stageOf_set {p : Nat} {t : Thread Job Op Res Exn Out Stage}
    {w' : World Job Op Res Exn Store Env Out Stage}
    (hw' : w'.threads = Function.update w.threads p (some t)) :
    w'.stageOf M
      = Function.update (w.stageOf M) p (if t.running then t.stage else M.idle) := by
  funext q
  unfold World.stageOf
  rw [hw']
  by_cases hq : q = p
  · rw [hq, Function.update_self, Function.update_self]
  · rw [Function.update_of_ne hq, Function.update_of_ne hq]

/-- A property of store, trace and the stages of the *running* threads: it must also survive a
thread ceasing to run, at whatever stage it is. -/
structure Machine.PreservesRunning (M : Machine Job Op Res Exn Store Env Out Stage)
    (R : Regime Job Op Store Env Stage)
    (I : Store → List (Entry Op Res Exn Env) → (Nat → Stage) → Prop) : Prop where
  spawn : ∀ {σ tr st} (p : Nat) (job : Job), I σ tr st → R.admits job → st p = M.idle →
    I σ tr (Function.update st p (M.start job))
  op : ∀ {σ tr st} (p : Nat) (o : Op) (env : Env), I σ tr st → M.Emits (st p) o →
    R.guard σ st p o env →
    I (M.exec env o σ).2 (tr ++ [⟨p, o, env, (M.exec env o σ).1⟩])
      (Function.update st p (M.next (st p) o (M.exec env o σ).1))
  drop : ∀ {σ tr st} (p : Nat), I σ tr st → I σ tr (Function.update st p M.idle)

/-- **Invariants of the running threads**, likewise. What a thread holds is forgotten when it ends
or crashes, which is why the invariant must also survive `drop`. -/
theorem Reachable.invariant_running
    {I : Store → List (Entry Op Res Exn Env) → (Nat → Stage) → Prop}
    {Q : Job → Stage → Except Exn Out → Prop} (hM : M.Conforms Q)
    (hI : M.PreservesRunning R I) (hobeys : w₀.Obeys M Q)
    (hinit : I w₀.store w₀.trace (w₀.stageOf M)) (h : Reachable M R w₀ w) :
    I w.store w.trace (w.stageOf M) := by
  induction h with
  | refl => exact hinit
  | @step w a hreach hok ih =>
    -- as above, but a thread that ends or dies drops its stage
    rcases w.act_cases (M := M) a with heq | ⟨p, job, ha, ht, heq⟩ | ⟨p, t, ha, ht, heq⟩
      | ⟨p, env, t, o, k, ha, ht, hc, hprog, heq⟩
    · rw [heq]
      exact ih
    · have hidle : w.stageOf M p = M.idle := by
        unfold World.stageOf
        rw [ht]
      rw [World.stageOf_set (w := w) (by rw [heq]), heq]
      subst ha
      split
      · exact hI.spawn p job ih hok hidle
      · exact hI.drop p ih
    · rw [World.stageOf_set (w := w) (t := { t with crashed := true }) (by rw [heq]), heq]
      split
      · next hrun => exact absurd hrun (by simp [Thread.running]; split <;> simp)
      · exact hI.drop p ih
    · have hstage : w.stageOf M p = t.stage := by
        unfold World.stageOf
        rw [ht]
        simp [Thread.running, hprog, hc]
      have hfollow := (hreach.obeys hM hobeys).follows p t ht
      rw [hprog, ← hstage] at hfollow
      subst ha
      have hop := hI.op p o env ih hfollow.1 (hok t o k ht hc hprog)
      rw [World.stageOf_set (w := w) (by rw [heq]), heq, ← hstage]
      split
      · exact hop
      · have hdrop := hI.drop p hop
        rw [Function.update_idem] at hdrop
        exact hdrop

theorem World.Obeys.fresh (Q : Job → Stage → Except Exn Out → Prop) (σ : Store) :
    (World.fresh σ : World Job Op Res Exn Store Env Out Stage).Obeys M Q :=
  ⟨nofun, nofun⟩

/-- The trace only grows. -/
theorem World.trace_prefix_act (w : World Job Op Res Exn Store Env Out Stage)
    (a : Action Job Env) : w.trace <+: (w.act M a).trace := by
  rcases w.act_cases (M := M) a with heq | ⟨p, job, -, -, heq⟩ | ⟨p, t, -, -, heq⟩
    | ⟨p, env, t, o, k, -, -, -, -, heq⟩
  · exact (congrArg World.trace heq).symm ▸ List.prefix_rfl
  · exact (congrArg World.trace heq).symm ▸ List.prefix_rfl
  · exact (congrArg World.trace heq).symm ▸ List.prefix_rfl
  · exact (congrArg World.trace heq).symm ▸ List.prefix_append _ _

theorem World.trace_prefix_acts (w : World Job Op Res Exn Store Env Out Stage)
    (as : List (Action Job Env)) : w.trace <+: (w.acts M as).trace := by
  induction as generalizing w with
  | nil => exact List.prefix_rfl
  | cons a as ih => exact (w.trace_prefix_act a).trans (ih _)

/-- A finite run is one of the regime when its trace shows only operations that the regime allows
whenever they come. -/
theorem Reachable.of_acts (w₀ : World Job Op Res Exn Store Env Out Stage)
    (as : List (Action Job Env)) (hadmits : ∀ p job, Action.spawn p job ∈ as → R.admits job)
    (hguard : ∀ e ∈ (w₀.acts M as).trace, ∀ σ st, R.guard σ st e.pid e.op e.env) :
    Reachable M R w₀ (w₀.acts M as) := by
  induction as using List.reverseRecOn with
  | nil => exact .refl
  | append_singleton as a ih =>
    have hlast : w₀.acts M (as ++ [a]) = (w₀.acts M as).act M a := by
      unfold World.acts
      rw [List.foldl_append]
      rfl
    rw [hlast] at hguard ⊢
    refine .step a (ih (fun p job hp => hadmits p job (List.mem_append_left _ hp))
      fun e he => hguard e ((World.trace_prefix_act _ a).subset he)) ?_
    cases a with
    | spawn p job => exact hadmits p job (List.mem_append_right _ (List.mem_singleton_self _))
    | crash p => trivial
    | perform p env =>
      intro t o k ht hc hprog
      refine hguard ⟨p, o, env, (M.exec env o (w₀.acts M as).store).1⟩ ?_ _ _
      simp [World.act, ht, hc, hprog]

/-- A thread that is never started is not there. -/
theorem World.acts_threads_none {p : Nat} {as : List (Action Job Env)}
    (h : w.threads p = none) (has : ∀ job, Action.spawn p job ∉ as) :
    (w.acts M as).threads p = none := by
  induction as generalizing w with
  | nil => exact h
  | cons a as ih =>
    refine ih ?_ fun job hjob => has job (List.mem_cons_of_mem _ hjob)
    rcases w.act_cases (M := M) a with heq | ⟨q, job, ha, -, heq⟩ | ⟨q, t, -, ht, heq⟩
      | ⟨q, env, t, o, k, -, ht, -, -, heq⟩
    · rw [heq]
      exact h
    · have hq : p ≠ q := by
        rintro rfl
        exact has job (ha ▸ List.mem_cons_self)
      rw [heq]
      exact (Function.update_of_ne hq _ _).trans h
    -- the other actions are on threads that are there already
    all_goals
      have hq : p ≠ q := by
        rintro rfl
        cases h.symm.trans ht
      rw [heq]
      exact (Function.update_of_ne hq _ _).trans h

/-- The action starts no thread but one of the list. -/
def Action.startsAmong (ps : List Nat) : Action Job Env → Bool
  | .spawn p _ => p ∈ ps
  | _ => true

theorem Action.mem_of_startsAmong {ps : List Nat} {as : List (Action Job Env)}
    (h : as.all (Action.startsAmong ps) = true) (p : Nat) (job : Job) (hp : Action.spawn p job ∈ as) :
    p ∈ ps :=
  of_decide_eq_true (List.all_eq_true.mp h _ hp)

/-- A check of every action of a run, at the world it is taken in. -/
def World.checked (M : Machine Job Op Res Exn Store Env Out Stage)
    (ok : World Job Op Res Exn Store Env Out Stage → Action Job Env → Bool)
    (w : World Job Op Res Exn Store Env Out Stage) : List (Action Job Env) → Bool
  | [] => true
  | a :: as => ok w a && (w.act M a).checked M ok as

/-- A finite run is one of the regime when every action passes a check that the regime accepts. -/
theorem Reachable.of_checked (ok : World Job Op Res Exn Store Env Out Stage → Action Job Env → Bool)
    (hok : ∀ w a, ok w a = true → R.allows M w a) {as : List (Action Job Env)}
    (h : Reachable M R w₀ w) (hchecked : w.checked M ok as = true) :
    Reachable M R w₀ (w.acts M as) := by
  induction as generalizing w with
  | nil => exact h
  | cons a as ih =>
    simp only [World.checked, Bool.and_eq_true] at hchecked
    exact ih (h.step a (hok w a hchecked.1)) hchecked.2

/-- The same for a run of a few threads: the check may count on nobody else running. -/
theorem Reachable.of_checked_among (ps : List Nat)
    (ok : World Job Op Res Exn Store Env Out Stage → Action Job Env → Bool)
    (hok : ∀ w a, (∀ q ∉ ps, w.stageOf M q = M.idle) → ok w a = true → R.allows M w a)
    {as : List (Action Job Env)} (hspawn : ∀ p job, Action.spawn p job ∈ as → p ∈ ps)
    (hnone : ∀ q ∉ ps, w.threads q = none) (h : Reachable M R w₀ w)
    (hchecked : w.checked M ok as = true) : Reachable M R w₀ (w.acts M as) := by
  induction as generalizing w with
  | nil => exact h
  | cons a as ih =>
    simp only [World.checked, Bool.and_eq_true] at hchecked
    have hidle : ∀ q ∉ ps, w.stageOf M q = M.idle := by
      intro q hq
      unfold World.stageOf
      rw [hnone q hq]
    have hstep : ∀ q ∉ ps, (w.acts M [a]).threads q = none := by
      intro q hq
      refine World.acts_threads_none (hnone q hq) fun job hjob => hq (hspawn q job ?_)
      exact List.mem_cons.mpr (Or.inl (List.mem_singleton.mp hjob))
    exact ih (fun p job hp => hspawn p job (List.mem_cons_of_mem _ hp)) hstep
      (h.step a (hok w a hidle hchecked.1)) hchecked.2

end Runs

/-! ## Runs

For results about the passing of time a run is a sequence of worlds, with an instant for each. -/

/-- An infinite run: a world and an allowed action at every instant. Finite runs are those that
go on with actions that do not apply. -/
structure Run (M : Machine Job Op Res Exn Store Env Out Stage)
    (R : Regime Job Op Store Env Stage)
    (w₀ : World Job Op Res Exn Store Env Out Stage) where
  world : Nat → World Job Op Res Exn Store Env Out Stage
  action : Nat → Action Job Env
  start : world 0 = w₀
  step : ∀ n, world (n + 1) = (world n).act M (action n)
  allowed : ∀ n, R.allows M (world n) (action n)

namespace Run

variable {M : Machine Job Op Res Exn Store Env Out Stage} {R : Regime Job Op Store Env Stage}
  {w₀ : World Job Op Res Exn Store Env Out Stage}

theorem reachable (run : Run M R w₀) (n : Nat) : Reachable M R w₀ (run.world n) := by
  induction n with
  | zero =>
    rw [run.start]
    exact .refl
  | succ n ih =>
    rw [run.step]
    exact .step _ ih (run.allowed n)

/-- What one action preserves holds from the first instant at which it holds. -/
theorem stable (run : Run M R w₀) {P : World Job Op Res Exn Store Env Out Stage → Prop}
    (hstep : ∀ w a, P w → P (w.act M a)) {m n : Nat} (hmn : m ≤ n) (h : P (run.world m)) :
    P (run.world n) := by
  induction hmn with
  | refl => exact h
  | step _ ih =>
    rw [run.step]
    exact hstep _ _ ih

/-- The world after the first `n` of the given actions. -/
def after (M : Machine Job Op Res Exn Store Env Out Stage)
    (w₀ : World Job Op Res Exn Store Env Out Stage) (actions : Nat → Action Job Env) :
    Nat → World Job Op Res Exn Store Env Out Stage
  | 0 => w₀
  | n + 1 => (after M w₀ actions n).act M (actions n)

/-- The run that takes the given actions, where the regime allows everything. -/
def ofActions (M : Machine Job Op Res Exn Store Env Out Stage)
    (R : Regime Job Op Store Env Stage) (w₀ : World Job Op Res Exn Store Env Out Stage)
    (actions : Nat → Action Job Env) (hall : ∀ w a, R.allows M w a) : Run M R w₀ where
  world := after M w₀ actions
  action := actions
  start := rfl
  step := fun _ => rfl
  allowed := fun n => hall _ (actions n)

end Run

end Concurrent
