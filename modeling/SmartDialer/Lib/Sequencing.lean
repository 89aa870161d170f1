import SmartDialer.Lib.Passage

/-!
# Programs that run jobs one after another

A larger system has operations of its own beside those of a machine `M`, and its programs run jobs
of `M` in turn: `lift` reads a program over the larger alphabet, `andThen` goes on from either end of
it, and `Composed` programs are what can be built so. Such a system refines `M`: whatever its threads
do, threads of `M` that run one job each do to the documents of `M` (`Reachable.mirrored`).

The refinement is proved by running the two systems side by side. `Mirrors` relates their worlds:
the documents and the histories are the same, and every thread of the larger system that is in the
middle of a job has a thread of `M` of its own that is in the middle of it, too. One operation of
the larger system is then one of four things:

* an operation of its own, which `M` does not see (`Mirrors.perform_more`);
* the first operation of a job, or a further one (`Mirrors.perform_start`,
  `Mirrors.perform_within`);
* an operation that only reads (`Mirrors.perform_idle`);
* a deed, which some job could have come to after reading (`Mirrors.perform_deed`).
-/

namespace Concurrent

variable {Job Op Op' : Type} {Res : Op → Type} {Res' : Op' → Type}
  {Exn Store Env Out Stage α β γ : Type}

/-- The answers of two alphabets side by side. -/
abbrev EitherRes (Res : Op → Type) (Res' : Op' → Type) : Op ⊕ Op' → Type
  | .inl o => Res o
  | .inr o => Res' o

namespace Prog

/-- The program over a larger alphabet. -/
def lift : Prog Op Res Exn α → Prog (Op ⊕ Op') (EitherRes Res Res') Exn α
  | .ret a => .ret a
  | .raise e => .raise e
  | .op o k => .op (.inl o) fun r => (k r).lift

/-- Go on from the result, be it a value or an exception. -/
def andThen : Prog Op Res Exn α → (Except Exn α → Prog Op Res Exn β) → Prog Op Res Exn β
  | .ret a, k => k (.ok a)
  | .raise e, k => k (.error e)
  | .op o c, k => .op o fun r => (c r).andThen k

theorem lift_perform (o : Op) :
    ((perform o).lift : Prog (Op ⊕ Op') (EitherRes Res Res') Exn (Res o))
      = perform (Sum.inl o) := by
  refine congrArg (Prog.op _) (funext fun r => ?_)
  cases r <;> rfl

theorem lift_bind (x : Prog Op Res Exn α) (f : α → Prog Op Res Exn β) :
    ((x.bind f).lift : Prog (Op ⊕ Op') (EitherRes Res Res') Exn β)
      = x.lift.bind fun a => (f a).lift := by
  induction x with
  | ret a => rfl
  | raise e => rfl
  | op o k ih => exact congrArg (Prog.op _) (funext fun r => ih r)

theorem Performs.all {S : Op → Prop} (hS : ∀ o, S o) (x : Prog Op Res Exn α) : x.Performs S := by
  induction x with
  | ret a => trivial
  | raise e => trivial
  | op o k ih => exact ⟨hS o, ih⟩

theorem Performs.lift {S : Op → Prop} {S' : Op ⊕ Op' → Prop} {x : Prog Op Res Exn α}
    (hS : ∀ o, S o → S' (.inl o)) (hx : x.Performs S) :
    (x.lift : Prog (Op ⊕ Op') (EitherRes Res Res') Exn α).Performs S' := by
  induction x with
  | ret a => trivial
  | raise e => trivial
  | op o k ih => exact ⟨hS o hx.1, fun r => ih r (hx.2 r)⟩

theorem Performs.mono {S S' : Op → Prop} {x : Prog Op Res Exn α} (hx : x.Performs S)
    (hS : ∀ o, S o → S' o) : x.Performs S' := by
  induction x with
  | ret a => trivial
  | raise e => trivial
  | op o k ih => exact ⟨hS o hx.1, fun r => ih r (hx.2 r)⟩

theorem Performs.andThen {S : Op → Prop} {x : Prog Op Res Exn α}
    {k : Except Exn α → Prog Op Res Exn β} (hx : x.Performs S) (hk : ∀ r, (k r).Performs S) :
    (x.andThen k).Performs S := by
  induction x with
  | ret a => exact hk _
  | raise e => exact hk _
  | op o c ih => exact ⟨hx.1, fun r => ih r (hx.2 r)⟩

theorem Performs.of_bind {S : Op → Prop} {x : Prog Op Res Exn α} {f : α → Prog Op Res Exn β}
    (h : (x.bind f).Performs S) : x.Performs S := by
  induction x with
  | ret a => trivial
  | raise e => trivial
  | op o k ih => exact ⟨h.1, fun r => ih r (h.2 r)⟩

theorem bind_eq_andThen (x : Prog Op Res Exn α) (f : α → Prog Op Res Exn β) :
    x.bind f = x.andThen fun
      | .ok a => f a
      | .error e => .raise e := by
  induction x with
  | ret a => rfl
  | raise e => rfl
  | op o k ih => exact congrArg (Prog.op o) (funext fun r => ih r)

theorem catching_eq_andThen (x : Prog Op Res Exn α) (handler : Exn → Prog Op Res Exn α) :
    x.catching handler = x.andThen fun
      | .ok a => .ret a
      | .error e => handler e := by
  induction x with
  | ret a => rfl
  | raise e => rfl
  | op o k ih => exact congrArg (Prog.op o) (funext fun r => ih r)

theorem andThen_assoc (x : Prog Op Res Exn α) (k : Except Exn α → Prog Op Res Exn β)
    (l : Except Exn β → Prog Op Res Exn γ) :
    (x.andThen k).andThen l = x.andThen fun r => (k r).andThen l := by
  induction x with
  | ret a => rfl
  | raise e => rfl
  | op o c ih => exact congrArg (Prog.op o) (funext fun r => ih r)

end Prog

/-! ## Composed programs

A composed program begins with one operation or with a whole job, and is composed again from there
on, whatever the answer or the result is. -/

/-- What a larger system asks of `M`: `jobs` run to their end, and by themselves `reads`, which
change nothing, and `deeds`, which some job of `M` could have come to. The operations of `told` are
performed inside jobs only. -/
structure Repertoire (Job Op : Type) where
  jobs : Job → Prop
  reads : Op → Prop
  deeds : Op → Prop
  told : Op → Bool

/-- Built from operations of the larger system, operations of `M` that stand for themselves, and
whole jobs of `M`. -/
inductive Composed (M : Machine Job Op Res Exn Store Env Out Stage) (P : Repertoire Job Op) :
    Prog (Op ⊕ Op') (EitherRes Res Res') Exn α → Prop where
  | ret (a : α) : Composed M P (.ret a)
  | raise (e : Exn) : Composed M P (.raise e)
  | more (o : Op') {k : Except Exn (Res' o) → Prog (Op ⊕ Op') (EitherRes Res Res') Exn α}
      (hk : ∀ r, Composed M P (k r)) : Composed M P (.op (.inr o) k)
  | alone (o : Op) {k : Except Exn (Res o) → Prog (Op ⊕ Op') (EitherRes Res Res') Exn α}
      (ho : P.reads o ∨ P.deeds o) (hk : ∀ r, Composed M P (k r)) : Composed M P (.op (.inl o) k)
  | run {β : Type} (job : Job) (hjob : P.jobs job) (x : Prog Op Res Exn β) (f : β → Out)
      (hx : M.program job = x.bind fun b => .ret (f b))
      {k : Except Exn β → Prog (Op ⊕ Op') (EitherRes Res Res') Exn α}
      (hk : ∀ r, Composed M P (k r)) : Composed M P (x.lift.andThen k)

namespace Composed

variable {M : Machine Job Op Res Exn Store Env Out Stage} {P : Repertoire Job Op}

theorem andThen {x : Prog (Op ⊕ Op') (EitherRes Res Res') Exn α}
    {k : Except Exn α → Prog (Op ⊕ Op') (EitherRes Res Res') Exn β} (hx : Composed M P x)
    (hk : ∀ r, Composed M P (k r)) : Composed M P (x.andThen k) := by
  induction hx with
  | ret a => exact hk _
  | raise e => exact hk _
  | more o _ ih => exact .more o ih
  | alone o ho _ ih => exact .alone o ho ih
  | run job hjob y f hy _ ih =>
    rw [Prog.andThen_assoc]
    exact .run job hjob y f hy ih

theorem bind {x : Prog (Op ⊕ Op') (EitherRes Res Res') Exn α}
    {f : α → Prog (Op ⊕ Op') (EitherRes Res Res') Exn β} (hx : Composed M P x)
    (hf : ∀ a, Composed M P (f a)) : Composed M P (x.bind f) := by
  rw [Prog.bind_eq_andThen]
  refine hx.andThen fun r => ?_
  cases r with
  | ok a => exact hf a
  | error e => exact .raise e

theorem catching {x : Prog (Op ⊕ Op') (EitherRes Res Res') Exn α}
    {handler : Exn → Prog (Op ⊕ Op') (EitherRes Res Res') Exn α} (hx : Composed M P x)
    (hh : ∀ e, Composed M P (handler e)) : Composed M P (x.catching handler) := by
  rw [Prog.catching_eq_andThen]
  refine hx.andThen fun r => ?_
  cases r with
  | ok a => exact .ret a
  | error e => exact hh e

theorem perform_more (o : Op') :
    Composed M P
      (Prog.perform (Sum.inr o) : Prog (Op ⊕ Op') (EitherRes Res Res') Exn (Res' o)) := by
  refine .more o fun r => ?_
  cases r with
  | ok a => exact .ret a
  | error e => exact .raise e

/-- A program that performs only operations which stand for themselves. -/
theorem of_performs {x : Prog Op Res Exn α} (hx : x.Performs fun o => P.reads o ∨ P.deeds o) :
    Composed M P (x.lift : Prog (Op ⊕ Op') (EitherRes Res Res') Exn α) := by
  induction x with
  | ret a => exact .ret a
  | raise e => exact .raise e
  | op o k ih => exact .alone o hx.1 fun r => ih r (hx.2 r)

/-- A job by itself. -/
theorem job {x : Prog Op Res Exn α} (job : Job) (hjob : P.jobs job) (f : α → Out)
    (hx : M.program job = x.bind fun a => .ret (f a)) :
    Composed M P (x.lift : Prog (Op ⊕ Op') (EitherRes Res Res') Exn α) := by
  have hself : ∀ y : Prog (Op ⊕ Op') (EitherRes Res Res') Exn α, y.andThen (fun
      | .ok a => .ret a
      | .error e => .raise e) = y := by
    intro y
    induction y with
    | ret a => rfl
    | raise e => rfl
    | op o k ih => exact congrArg (Prog.op o) (funext fun r => ih r)
  rw [← hself x.lift]
  refine .run job hjob x f hx fun r => ?_
  cases r with
  | ok a => exact .ret a
  | error e => exact .raise e

/-- What the jobs and the single operations perform is all that is performed. -/
theorem performs {S : Op ⊕ Op' → Prop} {x : Prog (Op ⊕ Op') (EitherRes Res Res') Exn α}
    (hmore : ∀ o, S (.inr o)) (halone : ∀ o, P.reads o ∨ P.deeds o → S (.inl o))
    (hjobs : ∀ job, P.jobs job → (M.program job).Performs fun o => S (.inl o))
    (hx : Composed M P x) : x.Performs S := by
  induction hx with
  | ret a => trivial
  | raise e => trivial
  | more o _ ih => exact ⟨hmore o, ih⟩
  | alone o ho _ ih => exact ⟨halone o ho, ih⟩
  | run job hjob y f hy _ ih =>
    have hself := hjobs job hjob
    rw [hy] at hself
    exact (hself.of_bind.lift fun _ ho => ho).andThen ih

/-- **What a composed program does next.** -/
theorem op_cases {o' : Op ⊕ Op'}
    {k' : Except Exn (EitherRes Res Res' o') → Prog (Op ⊕ Op') (EitherRes Res Res') Exn α}
    (h : Composed M P (.op o' k')) :
    (∃ o, o' = .inr o ∧ ∀ r, Composed M P (k' r))
    ∨ (∃ o, o' = .inl o ∧ (P.reads o ∨ P.deeds o) ∧ ∀ r, Composed M P (k' r))
    ∨ ∃ (β : Type) (job : Job) (o : Op) (c : Except Exn (Res o) → Prog Op Res Exn β) (f : β → Out)
        (k : Except Exn β → Prog (Op ⊕ Op') (EitherRes Res Res') Exn α),
      P.jobs job ∧ M.program job = (Prog.op o c).bind (fun b => .ret (f b))
        ∧ (∀ r, Composed M P (k r)) ∧ (Prog.op o' k') = (Prog.op o c).lift.andThen k := by
  generalize hx : Prog.op o' k' = x at h
  induction h generalizing o' k' with
  | ret a => cases hx
  | raise e => cases hx
  | more o hk _ =>
    cases hx
    exact Or.inl ⟨o, rfl, hk⟩
  | alone o ho hk _ =>
    cases hx
    exact Or.inr (Or.inl ⟨o, rfl, ho, hk⟩)
  | @run β job hjob y f hy k hk ih =>
    cases y with
    | ret b => exact ih (.ok b) hx
    | raise e => exact ih (.error e) hx
    | op o c => exact Or.inr (Or.inr ⟨β, job, o, c, f, k, hjob, hy, hk, rfl⟩)

end Composed

/-! ## The larger system

What has to be shown of a larger system, once and without looking at its runs. -/

/-- The machine `M'` of the larger system works on the documents `base` of its store as `M` does,
and its own operations leave them alone. -/
structure Extends {Job' Out' Store' Env' Stage' : Type}
    (M' : Machine Job' (Op ⊕ Op') (EitherRes Res Res') Exn Store' Env' Out' Stage')
    (M : Machine Job Op Res Exn Store Env Out Stage) (base : Store' → Store) (env : Env' → Env) :
    Prop where
  answer : ∀ ε o σ, (M'.exec ε (.inl o) σ).1 = (M.exec (env ε) o (base σ)).1
  store : ∀ ε o σ, base (M'.exec ε (.inl o) σ).2 = (M.exec (env ε) o (base σ)).2
  more : ∀ ε o σ, base (M'.exec ε (.inr o) σ).2 = base σ

/-- The operation changes nothing where it is performed, or it is what some job comes to after
reading. -/
def Doable (M : Machine Job Op Res Exn Store Env Out Stage) (R : Regime Job Op Store Env Stage)
    (P : Repertoire Job Op) (o : Op) (env : Env) (σ : Store) : Prop :=
  (M.exec env o σ).2 = σ
  ∨ ∃ job h k, R.admits job ∧ (M.program job).Leads M.exec h (.op o k)
    ∧ ∀ m ∈ h, m.found = σ ∧ m.left M.exec = σ ∧ P.told m.op = false
      ∧ ∀ live p, R.guard σ live p m.op m.env

/-- What a regime of the larger system has to promise for its runs to be runs of `M` under `R`. -/
structure Regime.Covers {Job' Store' Env' Stage' : Type}
    (R' : Regime Job' (Op ⊕ Op') Store' Env' Stage') (M : Machine Job Op Res Exn Store Env Out Stage)
    (R : Regime Job Op Store Env Stage) (P : Repertoire Job Op) (base : Store' → Store)
    (env : Env' → Env) : Prop where
  admits : ∀ job, P.jobs job → R.admits job
  guard : ∀ {σ live p o ε}, R'.guard σ live p (.inl o) ε →
    ∀ live' q, R.guard (base σ) live' q o (env ε)
  reads : ∀ {o}, P.reads o → ∀ ε σ, (M.exec ε o σ).2 = σ
  deeds : ∀ {σ live p o ε}, R'.guard σ live p (.inl o) ε → P.deeds o →
    Doable M R P o (env ε) (base σ)
  told : ∀ {o}, P.reads o ∨ P.deeds o → P.told o = false

/-! ## Traces without threads

The larger system starts other threads than `M` does, so histories are compared without the numbers
of the threads, and only in the operations that the comparison is about. -/

/-- An operation with its environment and answer, whoever performed it. -/
def Entry.what (e : Entry Op Res Exn Env) : Σ o : Op, Env × Except Exn (Res o) :=
  ⟨e.op, e.env, e.resp⟩

/-- The operations of `keep`, in the order in which they were performed. -/
def told (keep : Op → Bool) (tr : List (Entry Op Res Exn Env)) :
    List (Σ o : Op, Env × Except Exn (Res o)) :=
  (tr.filter fun e => keep e.op).map Entry.what

/-- What an entry of the larger system is to `M`. -/
def Entry.below {Env' : Type} (env : Env' → Env) :
    Entry (Op ⊕ Op') (EitherRes Res Res') Exn Env' → List (Entry Op Res Exn Env)
  | ⟨p, .inl o, ε, r⟩ => [⟨p, o, env ε, r⟩]
  | ⟨_, .inr _, _, _⟩ => []

theorem told_append (keep : Op → Bool) (tr tr' : List (Entry Op Res Exn Env)) :
    told keep (tr ++ tr') = told keep tr ++ told keep tr' := by
  unfold told
  rw [List.filter_append, List.map_append]

theorem told_untold {keep : Op → Bool} {e : Entry Op Res Exn Env} (he : keep e.op = false)
    (tr : List (Entry Op Res Exn Env)) : told keep (tr ++ [e]) = told keep tr := by
  rw [told_append]
  unfold told
  rw [List.filter_cons_of_neg (by rw [he]; exact Bool.false_ne_true)]
  exact List.append_nil _

theorem told_same (keep : Op → Bool) (p q : Nat) (o : Op) (env : Env) (r : Except Exn (Res o)) :
    told keep [(⟨p, o, env, r⟩ : Entry Op Res Exn Env)] = told keep [⟨q, o, env, r⟩] := by
  unfold told
  cases h : keep o with
  | true => simp [h, Entry.what]
  | false => simp [h]

/-! ## Runs of `M`

Steps of `M` that an argument about the larger system takes on purpose. -/

section Runs

variable {M : Machine Job Op Res Exn Store Env Out Stage} {R : Regime Job Op Store Env Stage}
  {w₀ w₁ w₂ w : World Job Op Res Exn Store Env Out Stage}

theorem Reachable.trans (h : Reachable M R w₀ w₁) (h' : Reachable M R w₁ w₂) :
    Reachable M R w₀ w₂ := by
  induction h' with
  | refl => exact h
  | step a _ hok ih => exact ih.step a hok

/-- A thread is started. -/
theorem Reachable.spawned {q : Nat} {job : Job} (hq : w.threads q = none) (hjob : R.admits job) :
    Reachable M R w { w with
      threads := Function.update w.threads q
        (some { job, prog := M.program job, stage := M.start job, crashed := false }) } := by
  have hact : w.act M (.spawn q job) = { w with
      threads := Function.update w.threads q
        (some { job, prog := M.program job, stage := M.start job, crashed := false }) } := by
    simp only [World.act, hq]
  rw [← hact]
  exact Reachable.refl.step _ hjob

/-- A running thread performs its next operation. -/
theorem Reachable.performed {q : Nat} {t : Thread Job Op Res Exn Out Stage} {o : Op}
    {k : Except Exn (Res o) → Prog Op Res Exn Out} {e : Env} (ht : w.threads q = some t)
    (hc : t.crashed = false) (hp : t.prog = .op o k) (hg : R.guard w.store (w.stageOf M) q o e) :
    Reachable M R w
      { store := (M.exec e o w.store).2
        threads := Function.update w.threads q
          (some { t with prog := k (M.exec e o w.store).1,
                         stage := M.next t.stage o (M.exec e o w.store).1 })
        trace := w.trace ++ [⟨q, o, e, (M.exec e o w.store).1⟩] } := by
  have hact : w.act M (.perform q e) =
      { store := (M.exec e o w.store).2
        threads := Function.update w.threads q
          (some { t with prog := k (M.exec e o w.store).1,
                         stage := M.next t.stage o (M.exec e o w.store).1 })
        trace := w.trace ++ [⟨q, o, e, (M.exec e o w.store).1⟩] } := by
    simp only [World.act, ht, hc, hp]
  rw [← hact]
  refine Reachable.refl.step _ fun u o' k' hu _ hprog => ?_
  cases ht.symm.trans hu
  cases hp.symm.trans hprog
  exact hg

/-- A running thread reads, as far as `h` tells, and leaves everything as it was. -/
theorem Reachable.looked {P : Repertoire Job Op} {q : Nat} {x y : Prog Op Res Exn Out}
    {h : List (Moment Op Store Env)} (hlead : x.Leads M.exec h y) :
    ∀ {w : World Job Op Res Exn Store Env Out Stage} {t : Thread Job Op Res Exn Out Stage},
      w.threads q = some t → t.crashed = false → t.prog = x →
      (∀ m ∈ h, m.found = w.store ∧ m.left M.exec = w.store ∧ P.told m.op = false
        ∧ ∀ live p, R.guard w.store live p m.op m.env) →
      ∃ w₂ t₂, Reachable M R w w₂ ∧ w₂.store = w.store ∧ told P.told w₂.trace = told P.told w.trace
        ∧ w₂.threads = Function.update w.threads q (some t₂) ∧ t₂.crashed = false
        ∧ t₂.prog = y := by
  induction h generalizing x with
  | nil =>
    intro w t ht hc hp _
    rw [Prog.leads_nil] at hlead
    exact ⟨w, t, .refl, rfl, rfl, by rw [← ht, Function.update_eq_self], hc, hp.trans hlead⟩
  | cons m h ih =>
    intro w t ht hc hp hmoments
    cases x with
    | ret a => exact hlead.elim
    | raise e => exact hlead.elim
    | op o k =>
      -- the first moment changes neither the store nor what is told
      obtain ⟨hop, hrest⟩ := hlead
      subst hop
      obtain ⟨hfound, hleft, htold, hguard⟩ := hmoments m (by simp)
      have hstore : (M.exec m.env m.op w.store).2 = w.store := hfound ▸ hleft
      rw [hfound] at hrest
      have hone := Reachable.performed (M := M) ht hc hp (hguard (w.stageOf M) q)
      obtain ⟨w₂, t₂, hreach, hsame, htrace, hthreads, hc₂, hp₂⟩ := ih hrest
        (w := { store := (M.exec m.env m.op w.store).2
                threads := Function.update w.threads q
                  (some { t with prog := k (M.exec m.env m.op w.store).1,
                                 stage := M.next t.stage m.op (M.exec m.env m.op w.store).1 })
                trace := w.trace ++ [⟨q, m.op, m.env, (M.exec m.env m.op w.store).1⟩] })
        (Function.update_self ..) hc rfl (fun m' hm' => by
          show m'.found = (M.exec m.env m.op w.store).2 ∧ m'.left M.exec
            = (M.exec m.env m.op w.store).2 ∧ _ ∧ ∀ live p,
              R.guard (M.exec m.env m.op w.store).2 live p m'.op m'.env
          rw [hstore]
          exact hmoments m' (List.mem_cons_of_mem _ hm'))
      refine ⟨w₂, t₂, hone.trans hreach, hsame.trans hstore, htrace.trans (told_untold htold _),
        ?_, hc₂, hp₂⟩
      rw [hthreads, Function.update_idem]

end Runs

/-! ## Side by side

The relation between the two worlds, and what one operation of the larger system does to it. -/

section Mirror

variable {Job' Out' Store' Env' Stage' : Type}
  {M' : Machine Job' (Op ⊕ Op') (EitherRes Res Res') Exn Store' Env' Out' Stage'}
  {M : Machine Job Op Res Exn Store Env Out Stage} {P : Repertoire Job Op}

/-- Where a composed program is: between two jobs, or in the middle of one that thread `q` runs. -/
inductive Abreast (M : Machine Job Op Res Exn Store Env Out Stage) (P : Repertoire Job Op)
    (threads : Nat → Option (Thread Job Op Res Exn Out Stage)) :
    Prog (Op ⊕ Op') (EitherRes Res Res') Exn α → Option Nat → Prop where
  | between {x : Prog (Op ⊕ Op') (EitherRes Res Res') Exn α} (hx : Composed M P x) :
      Abreast M P threads x none
  | within {β : Type} {q : Nat} {t : Thread Job Op Res Exn Out Stage} (y : Prog Op Res Exn β)
      (f : β → Out) {k : Except Exn β → Prog (Op ⊕ Op') (EitherRes Res Res') Exn α}
      (ht : threads q = some t) (hc : t.crashed = false)
      (hp : t.prog = y.bind fun b => .ret (f b)) (hk : ∀ r, Composed M P (k r)) :
      Abreast M P threads (y.lift.andThen k) (some q)

/-- Two worlds with the same documents and the same history, in which every job that a thread of the
larger system is in the middle of has a thread of its own. -/
structure Mirrors (M : Machine Job Op Res Exn Store Env Out Stage) (P : Repertoire Job Op)
    (base : Store' → Store) (env : Env' → Env)
    (w' : World Job' (Op ⊕ Op') (EitherRes Res Res') Exn Store' Env' Out' Stage')
    (w : World Job Op Res Exn Store Env Out Stage) (own : Nat → Option Nat) : Prop where
  store : w.store = base w'.store
  trace : told P.told w.trace = told P.told (w'.trace.flatMap (Entry.below env))
  abreast : ∀ p t, w'.threads p = some t → Abreast M P w.threads t.prog (own p)
  absent : ∀ p, w'.threads p = none → own p = none
  apart : ∀ p p' q, own p = some q → own p' = some q → p = p'
  present : ∀ p q, own p = some q → w.threads q ≠ none
  finite : ∃ n, ∀ q, n ≤ q → w.threads q = none

variable {base : Store' → Store} {env : Env' → Env}
  {w' w₂' : World Job' (Op ⊕ Op') (EitherRes Res Res') Exn Store' Env' Out' Stage'}
  {w w₂ : World Job Op Res Exn Store Env Out Stage} {own : Nat → Option Nat}
  {R : Regime Job Op Store Env Stage} {R' : Regime Job' (Op ⊕ Op') Store' Env' Stage'}

/-- Threads that are added disturb nobody. -/
theorem Abreast.mono {threads threads' : Nat → Option (Thread Job Op Res Exn Out Stage)}
    {x : Prog (Op ⊕ Op') (EitherRes Res Res') Exn α} {q : Option Nat} (h : Abreast M P threads x q)
    (hsame : ∀ q' ∈ q, threads' q' = threads q') : Abreast M P threads' x q := by
  cases h with
  | between hx => exact .between hx
  | within y f ht hc hp hk => exact .within y f ((hsame _ rfl).trans ht) hc hp hk

/-- One thread of the larger system has gone on, and so has the thread that runs its job. All other
threads are left alone, on both sides, and no two threads come to share one below. -/
theorem Mirrors.set (h : Mirrors M P base env w' w own) {p : Nat}
    {t : Thread Job' (Op ⊕ Op') (EitherRes Res Res') Exn Out' Stage'} {q : Option Nat}
    (hthreads : w₂'.threads = Function.update w'.threads p (some t))
    (hstore : w₂.store = base w₂'.store)
    (htrace : told P.told w₂.trace = told P.told (w₂'.trace.flatMap (Entry.below env)))
    (hp : Abreast M P w₂.threads t.prog q)
    (hsame : ∀ p' q', p' ≠ p → own p' = some q' → w₂.threads q' = w.threads q')
    (hq : ∀ q' ∈ q, (∀ p', p' ≠ p → own p' ≠ some q') ∧ w₂.threads q' ≠ none)
    (hfinite : ∃ n, ∀ q, n ≤ q → w₂.threads q = none) :
    Mirrors M P base env w₂' w₂ (Function.update own p q) where
  store := hstore
  trace := htrace
  abreast := fun p' t' ht' => by
    rw [hthreads] at ht'
    by_cases hne : p' = p
    · subst hne
      rw [Function.update_self] at ht' ⊢
      cases ht'
      exact hp
    · rw [Function.update_of_ne hne] at ht' ⊢
      exact (h.abreast p' t' ht').mono fun q' hq' => hsame p' q' hne hq'
  absent := fun p' hp' => by
    rw [hthreads] at hp'
    by_cases hne : p' = p
    · subst hne
      rw [Function.update_self] at hp'
      cases hp'
    · rw [Function.update_of_ne hne] at hp' ⊢
      exact h.absent p' hp'
  -- the number that the thread has now is nobody else's
  apart := fun p₁ p₂ q' h₁ h₂ => by
    by_cases hne₁ : p₁ = p
    · subst hne₁
      by_cases hne₂ : p₂ = p₁
      · exact hne₂.symm
      · rw [Function.update_self] at h₁
        rw [Function.update_of_ne hne₂] at h₂
        exact absurd h₂ ((hq q' h₁).1 p₂ hne₂)
    · rw [Function.update_of_ne hne₁] at h₁
      by_cases hne₂ : p₂ = p
      · subst hne₂
        rw [Function.update_self] at h₂
        exact absurd h₁ ((hq q' h₂).1 p₁ hne₁)
      · rw [Function.update_of_ne hne₂] at h₂
        exact h.apart p₁ p₂ q' h₁ h₂
  present := fun p' q' hp' => by
    by_cases hne : p' = p
    · subst hne
      rw [Function.update_self] at hp'
      exact (hq q' hp').2
    · rw [Function.update_of_ne hne] at hp'
      rw [hsame p' q' hne hp']
      exact h.present p' q' hp'
  finite := hfinite

/-- What a thread of the larger system leaves behind when it performs its next operation. -/
def World.after (M' : Machine Job' (Op ⊕ Op') (EitherRes Res Res') Exn Store' Env' Out' Stage')
    (w' : World Job' (Op ⊕ Op') (EitherRes Res Res') Exn Store' Env' Out' Stage') (p : Nat)
    (t : Thread Job' (Op ⊕ Op') (EitherRes Res Res') Exn Out' Stage') (o : Op ⊕ Op') (ε : Env')
    (k : Except Exn (EitherRes Res Res' o) → Prog (Op ⊕ Op') (EitherRes Res Res') Exn Out') :
    World Job' (Op ⊕ Op') (EitherRes Res Res') Exn Store' Env' Out' Stage' where
  store := (M'.exec ε o w'.store).2
  threads := Function.update w'.threads p
    (some { t with prog := k (M'.exec ε o w'.store).1,
                   stage := M'.next t.stage o (M'.exec ε o w'.store).1 })
  trace := w'.trace ++ [⟨p, o, ε, (M'.exec ε o w'.store).1⟩]

/-- A thread number that is not in use. -/
theorem Mirrors.vacant (h : Mirrors M P base env w' w own) :
    ∃ q, w.threads q = none ∧ (∀ p, own p ≠ some q) ∧ ∀ t,
      ∃ n, ∀ q', n ≤ q' → Function.update w.threads q (some t) q' = none := by
  obtain ⟨n, hn⟩ := h.finite
  refine ⟨n, hn n (Nat.le_refl n), fun p hp => h.present p n hp (hn n (Nat.le_refl n)), fun t =>
    ⟨n + 1, fun q' hq' => ?_⟩⟩
  rw [Function.update_of_ne (by omega)]
  exact hn q' (by omega)

variable {p : Nat} {t : Thread Job' (Op ⊕ Op') (EitherRes Res Res') Exn Out' Stage'} {ε : Env'}

/-- An operation of the larger system's own. -/
theorem Mirrors.perform_more (hM : Extends M' M base env) (h : Mirrors M P base env w' w own)
    {o : Op'}
    {k : Except Exn (Res' o) → Prog (Op ⊕ Op') (EitherRes Res Res') Exn Out'}
    (hk : ∀ r, Composed M P (k r)) :
    Mirrors M P base env (World.after M' w' p t (.inr o) ε k) w (Function.update own p none) := by
  refine h.set rfl (h.store.trans (hM.more ε o w'.store).symm) ?_ (.between (hk _))
    (fun _ _ _ _ => rfl) (by nofun) h.finite
  rw [h.trace]
  show _ = told P.told ((w'.trace ++ [_]).flatMap (Entry.below env))
  rw [List.flatMap_append]
  exact congrArg _ (List.append_nil _).symm

/-- An operation of `M` that changes nothing. -/
theorem Mirrors.perform_idle (hM : Extends M' M base env) (h : Mirrors M P base env w' w own)
    {o : Op} {k : Except Exn (Res o) → Prog (Op ⊕ Op') (EitherRes Res Res') Exn Out'}
    (hk : ∀ r, Composed M P (k r)) (hidle : (M.exec (env ε) o (base w'.store)).2 = base w'.store)
    (htold : P.told o = false) :
    Mirrors M P base env (World.after M' w' p t (.inl o) ε k) w (Function.update own p none) := by
  refine h.set rfl (h.store.trans ?_) ?_ (.between (hk _)) (fun _ _ _ _ => rfl) (by nofun) h.finite
  · exact ((hM.store ε o w'.store).trans hidle).symm
  · rw [h.trace]
    show _ = told P.told ((w'.trace ++ [_]).flatMap (Entry.below env))
    rw [List.flatMap_append]
    exact (told_untold (e := ⟨p, o, env ε, _⟩) htold _).symm

/-- The history of the larger system after an operation of `M`. -/
theorem told_after (hM : Extends M' M base env) (h : Mirrors M P base env w' w own) (q : Nat)
    (o : Op) (k : Except Exn (Res o) → Prog (Op ⊕ Op') (EitherRes Res Res') Exn Out')
    {tr : List (Entry Op Res Exn Env)} (htr : told P.told tr = told P.told w.trace) :
    told P.told (tr ++ [⟨q, o, env ε, (M.exec (env ε) o w.store).1⟩])
      = told P.told ((World.after M' w' p t (.inl o) ε k).trace.flatMap (Entry.below env)) := by
  show _ = told P.told ((w'.trace ++ [_]).flatMap (Entry.below env))
  rw [List.flatMap_append, told_append, told_append, htr, h.trace]
  refine congrArg _ ?_
  show _ = told P.told [(⟨p, o, env ε, (M'.exec ε (.inl o) w'.store).1⟩ : Entry Op Res Exn Env)]
  rw [told_same P.told q p, hM.answer, h.store]

/-- An operation of `M` inside a job that thread `q` runs. The thread is known and running, so it
can perform the operation as well, in the same store and with the same answer. -/
theorem Mirrors.perform_within (hM : Extends M' M base env) (hR : R'.Covers M R P base env)
    (h : Mirrors M P base env w' w own) {q : Nat} (hown : ∀ p', p' ≠ p → own p' ≠ some q)
    {u : Thread Job Op Res Exn Out Stage} (hu : w.threads q = some u) (hc : u.crashed = false)
    {β : Type} {o : Op} {c : Except Exn (Res o) → Prog Op Res Exn β} {f : β → Out}
    (hprog : u.prog = (Prog.op o c).bind fun b => .ret (f b))
    {k : Except Exn β → Prog (Op ⊕ Op') (EitherRes Res Res') Exn Out'}
    (hk : ∀ r, Composed M P (k r)) {live : Nat → Stage'} (hg : R'.guard w'.store live p (.inl o) ε) :
    ∃ w₂ own₂, Reachable M R w w₂ ∧ Mirrors M P base env
      (World.after M' w' p t (.inl o) ε fun r => (c r).lift.andThen k) w₂ own₂ := by
  have hrun := Reachable.performed (M := M) (R := R) (e := env ε) hu hc hprog
    (h.store ▸ hR.guard hg (w.stageOf M) q)
  obtain ⟨n, hn⟩ := h.finite
  -- the bound on the thread numbers in use stays
  have hlt : q < n := by
    by_contra hle
    rw [hn q (by omega)] at hu
    cases hu
  have hothers : ∀ q', q' ≠ q → Function.update w.threads q (some
      { u with prog := ((c (M.exec (env ε) o w.store).1).bind fun b => .ret (f b)),
               stage := M.next u.stage o (M.exec (env ε) o w.store).1 }) q' = w.threads q' :=
    fun q' hne => Function.update_of_ne hne ..
  refine ⟨_, Function.update own p (some q), hrun, h.set rfl ?_ ?_ ?_ ?_ ?_ ⟨n, ?_⟩⟩
  · show (M.exec (env ε) o w.store).2 = base (M'.exec ε (.inl o) w'.store).2
    rw [hM.store, h.store]
  · exact told_after hM h q o _ rfl
  · show Abreast M P _ ((c (M'.exec ε (.inl o) w'.store).1).lift.andThen k) (some q)
    -- both are answered alike, so both go on alike
    have hsame : (M'.exec ε (.inl o) w'.store).1 = (M.exec (env ε) o w.store).1 := by
      rw [hM.answer, h.store]
    rw [hsame]
    exact .within _ f (Function.update_self ..) hc rfl hk
  · intro p' q' hne hq'
    refine hothers q' fun heq => ?_
    subst heq
    exact hown p' hne hq'
  · intro q' hq'
    cases hq'
    refine ⟨hown, ?_⟩
    show Function.update w.threads q _ q ≠ none
    rw [Function.update_self]
    exact Option.some_ne_none _
  · intro q' hq'
    exact (hothers q' (by omega)).trans (hn q' hq')

/-- An operation of `M` with which a job begins: a thread is started for it. -/
theorem Mirrors.perform_start (hM : Extends M' M base env) (hR : R'.Covers M R P base env)
    (h : Mirrors M P base env w' w own) {β : Type} {job : Job} (hjob : P.jobs job) {o : Op}
    {c : Except Exn (Res o) → Prog Op Res Exn β} {f : β → Out}
    (hprog : M.program job = (Prog.op o c).bind fun b => .ret (f b))
    {k : Except Exn β → Prog (Op ⊕ Op') (EitherRes Res Res') Exn Out'}
    (hk : ∀ r, Composed M P (k r)) {live : Nat → Stage'} (hg : R'.guard w'.store live p (.inl o) ε) :
    ∃ w₂ own₂, Reachable M R w w₂ ∧ Mirrors M P base env
      (World.after M' w' p t (.inl o) ε fun r => (c r).lift.andThen k) w₂ own₂ := by
  obtain ⟨q, hq, hown, hfinite⟩ := h.vacant
  have hspawn := Reachable.spawned (M := M) hq (hR.admits job hjob)
  -- with the new thread, which nobody's job depends on yet, the worlds still mirror each other
  have hmirrors : Mirrors M P base env w' { w with
      threads := Function.update w.threads q
        (some { job, prog := M.program job, stage := M.start job, crashed := false }) } own := by
    have hne : ∀ p' q', own p' = some q' → q' ≠ q := fun p' q' hp' heq => hown p' (heq ▸ hp')
    refine ⟨h.store, h.trace, fun p' t' ht' => (h.abreast p' t' ht').mono fun q' hq' => ?_, h.absent,
      h.apart, fun p' q' hp' => ?_, hfinite _⟩
    · exact Function.update_of_ne (hne p' q' hq') ..
    · show Function.update w.threads q _ q' ≠ none
      rw [Function.update_of_ne (hne p' q' hp')]
      exact h.present p' q' hp'
  obtain ⟨w₂, own₂, hrun, hafter⟩ := hmirrors.perform_within (p := p) (t := t) hM hR
    (fun p' _ => hown p') (Function.update_self ..) rfl hprog hk hg
  exact ⟨w₂, own₂, hspawn.trans hrun, hafter⟩

/-- A deed: a thread is started that reads, comes to it, and is left there. -/
theorem Mirrors.perform_deed (hM : Extends M' M base env) (hR : R'.Covers M R P base env)
    (h : Mirrors M P base env w' w own) {o : Op} (ho : P.deeds o)
    {k : Except Exn (Res o) → Prog (Op ⊕ Op') (EitherRes Res Res') Exn Out'}
    (hk : ∀ r, Composed M P (k r)) {live : Nat → Stage'} (hg : R'.guard w'.store live p (.inl o) ε) :
    ∃ w₂ own₂, Reachable M R w w₂
      ∧ Mirrors M P base env (World.after M' w' p t (.inl o) ε k) w₂ own₂ := by
  rcases hR.deeds hg ho with hidle | ⟨job, moments, c, hjob, hlead, hmoments⟩
  · exact ⟨w, _, .refl, h.perform_idle hM hk hidle (hR.told (Or.inr ho))⟩
  -- a thread is started for it, reads its way to the deed, and is left there
  · obtain ⟨q, hq, hown, hfinite⟩ := h.vacant
    have hspawn := Reachable.spawned (M := M) hq hjob
    obtain ⟨w₁, u, hlook, hsame, htold, hthreads, hc, hu⟩ := Reachable.looked (P := P) (R := R) hlead
      (w := { w with
        threads := Function.update w.threads q
          (some { job, prog := M.program job, stage := M.start job, crashed := false }) })
      (Function.update_self ..) rfl rfl (fun m hm => by rw [h.store]; exact hmoments m hm)
    replace hthreads : w₁.threads = Function.update w.threads q (some u) :=
      hthreads.trans (Function.update_idem ..)
    have hw₁ : w₁.store = w.store := hsame
    have hdo := Reachable.performed (M := M) (R := R) (e := env ε)
      (by rw [hthreads, Function.update_self]) hc hu
      (by rw [hw₁, h.store]; exact hR.guard hg (w₁.stageOf M) q)
    refine ⟨_, Function.update own p none, (hspawn.trans hlook).trans hdo, h.set rfl ?_ ?_
      (.between (hk _)) ?_ (by nofun) ?_⟩
    · show (M.exec (env ε) o w₁.store).2 = base (M'.exec ε (.inl o) w'.store).2
      rw [hM.store, hw₁, h.store]
    · show told P.told (w₁.trace ++ [⟨q, o, env ε, (M.exec (env ε) o w₁.store).1⟩]) = _
      rw [hw₁]
      exact told_after hM h q o k htold
    · intro p' q' _ hq'
      show Function.update w₁.threads q _ q' = w.threads q'
      have hne : q' ≠ q := fun heq => hown p' (heq ▸ hq')
      rw [hthreads, Function.update_idem, Function.update_of_ne hne]
    · show ∃ n, ∀ q', n ≤ q' → Function.update w₁.threads q _ q' = none
      rw [hthreads, Function.update_idem]
      exact hfinite _

/-- **One operation of the larger system** is matched by threads of `M`. Where the program is in the
middle of a job, or between two jobs, decides which of the lemmas above applies. -/
theorem Mirrors.perform (hM : Extends M' M base env) (hR : R'.Covers M R P base env)
    (h : Mirrors M P base env w' w own) (ht : w'.threads p = some t) {o : Op ⊕ Op'}
    {k : Except Exn (EitherRes Res Res' o) → Prog (Op ⊕ Op') (EitherRes Res Res') Exn Out'}
    (hp : t.prog = .op o k) {live : Nat → Stage'} (hg : R'.guard w'.store live p o ε) :
    ∃ w₂ own₂, Reachable M R w w₂ ∧ Mirrors M P base env (World.after M' w' p t o ε k) w₂ own₂ := by
  -- between two jobs
  have hbetween : Composed M P (Prog.op o k) → ∃ w₂ own₂, Reachable M R w w₂
      ∧ Mirrors M P base env (World.after M' w' p t o ε k) w₂ own₂ := by
    intro hx
    rcases hx.op_cases with ⟨o, rfl, hk⟩ | ⟨o, rfl, ho | ho, hk⟩
      | ⟨β, job, o, c, f, k, hjob, hprog, hk, heq⟩
    · exact ⟨w, _, .refl, h.perform_more hM hk⟩
    · exact ⟨w, _, .refl, h.perform_idle hM hk (hR.reads ho _ _) (hR.told (Or.inl ho))⟩
    · exact h.perform_deed hM hR ho hk hg
    · cases heq
      exact h.perform_start hM hR hjob hprog hk hg
  -- the thread may be in the middle of a job
  have habreast := h.abreast p t ht
  rw [hp] at habreast
  generalize hx : Prog.op o k = x at habreast
  generalize hown : own p = own? at habreast
  cases habreast with
  | between hcomposed =>
    subst hx
    exact hbetween hcomposed
  | @within β q u y f k hu hc hprog hk =>
    cases y with
    -- the job has ended already
    | ret b => exact hbetween (hx ▸ hk (.ok b))
    | raise e => exact hbetween (hx ▸ hk (.error e))
    | op o c =>
      cases hx
      exact h.perform_within hM hR (fun p' hne hp' => hne (h.apart p' p q hp' hown)) hu hc hprog hk hg

/-- **One step of the larger system.** Only an operation moves anything below: a thread that is
started has not begun its first job, and one that crashes leaves its thread of `M` where it is. -/
theorem Mirrors.step (hM : Extends M' M base env) (hR : R'.Covers M R P base env)
    (hprog : ∀ job, R'.admits job → Composed M P (M'.program job))
    (h : Mirrors M P base env w' w own) (a : Action Job' Env') (hok : R'.allows M' w' a) :
    ∃ w₂ own₂, Reachable M R w w₂ ∧ Mirrors M P base env (w'.act M' a) w₂ own₂ := by
  rcases w'.act_cases (M := M') a with heq | ⟨p, job, rfl, hnone, heq⟩ | ⟨p, t, rfl, ht, heq⟩
    | ⟨p, ε, t, o, k, rfl, ht, hc, hp, heq⟩
  · rw [heq]
    exact ⟨w, own, .refl, h⟩
  · refine ⟨w, Function.update own p none, .refl, heq ▸ h.set rfl h.store h.trace
      (.between (hprog job hok)) (fun _ _ _ _ => rfl) (by nofun) h.finite⟩
  · refine ⟨w, Function.update own p (own p), .refl, heq ▸ h.set rfl h.store h.trace
      (h.abreast p t ht) (fun _ _ _ _ => rfl) (fun q' hq' => ?_) h.finite⟩
    exact ⟨fun p' hne hp' => hne (h.apart p' p q' hp' hq'), h.present p q' hq'⟩
  · rw [heq]
    exact h.perform hM hR ht hp (hok t o k ht hc hp)

end Mirror

/-- **Refinement.** Whatever a system of composed programs does, threads of `M` that run one job
each can do, with the same documents and the same history. -/
theorem Reachable.mirrored {Job' Out' Store' Env' Stage' : Type}
    {M' : Machine Job' (Op ⊕ Op') (EitherRes Res Res') Exn Store' Env' Out' Stage'}
    {M : Machine Job Op Res Exn Store Env Out Stage} {P : Repertoire Job Op} {base : Store' → Store}
    {env : Env' → Env} {R : Regime Job Op Store Env Stage}
    {R' : Regime Job' (Op ⊕ Op') Store' Env' Stage'} (hM : Extends M' M base env)
    (hR : R'.Covers M R P base env) (hprog : ∀ job, R'.admits job → Composed M P (M'.program job))
    {σ' : Store'} {w' : World Job' (Op ⊕ Op') (EitherRes Res Res') Exn Store' Env' Out' Stage'}
    (h : Reachable M' R' (World.fresh σ') w') :
    ∃ w, Reachable M R (World.fresh (base σ')) w ∧ w.store = base w'.store
      ∧ told P.told w.trace = told P.told (w'.trace.flatMap (Entry.below env)) := by
  have hmirrors : ∃ w own, Reachable M R (World.fresh (base σ')) w
      ∧ Mirrors M P base env w' w own := by
    -- on the run of the larger system, which is empty on both sides at first
    induction h with
    | refl =>
      exact ⟨_, fun _ => none, .refl, ⟨rfl, rfl, by nofun, fun _ _ => rfl, by nofun, by nofun,
        ⟨0, fun _ _ => rfl⟩⟩⟩
    | step a _ hok ih =>
      obtain ⟨w, own, hreach, hw⟩ := ih
      obtain ⟨w₂, own₂, hrun, hw₂⟩ := hw.step hM hR hprog a hok
      exact ⟨w₂, own₂, hreach.trans hrun, hw₂⟩
  obtain ⟨w, own, hreach, hw⟩ := hmirrors
  exact ⟨w, hreach, hw.store, hw.trace⟩

end Concurrent
