import Mathlib.Logic.Function.Basic

/-!
# Programs over atomic operations

`Prog Op Res Exn α` is a program that performs operations `o : Op` one after another, each of
them answering with a `Res o` or raising an exception, and that ends by returning an `α` or
by raising. The operations are the only points at which anything outside the program can
happen, so a program is exactly the sequence of its interaction points.

`wp` is the total-correctness calculus of a program running alone against a store:
`wp exec ok P Q σ` says that every run of `P` from `σ`, whatever admissible environment each
operation meets, ends in a result and a store satisfying `Q`.
-/

namespace Concurrent

/-- A program: return, raise, or perform one operation and continue with its answer. -/
inductive Prog (Op : Type) (Res : Op → Type) (Exn : Type) (α : Type) where
  | ret (a : α)
  | raise (e : Exn)
  | op (o : Op) (k : Except Exn (Res o) → Prog Op Res Exn α)

namespace Prog

variable {Op : Type} {Res : Op → Type} {Exn Store Env α β : Type}

/-- Perform one operation; its exception, if it raises one, is the program's. -/
def perform (o : Op) : Prog Op Res Exn (Res o) :=
  .op o fun
    | .ok r => .ret r
    | .error e => .raise e

/-- Sequencing: an exception of the first part skips the second. -/
def bind : Prog Op Res Exn α → (α → Prog Op Res Exn β) → Prog Op Res Exn β
  | .ret a, f => f a
  | .raise e, _ => .raise e
  | .op o k, f => .op o fun r => (k r).bind f

/-- `try x except e: h e`. -/
def catching : Prog Op Res Exn α → (Exn → Prog Op Res Exn α) → Prog Op Res Exn α
  | .ret a, _ => .ret a
  | .raise e, h => h e
  | .op o k, h => .op o fun r => (k r).catching h

instance : Monad (Prog Op Res Exn) where
  pure := .ret
  bind := bind

@[simp] theorem pure_def (a : α) : (pure a : Prog Op Res Exn α) = .ret a := rfl

@[simp] theorem bind_def (x : Prog Op Res Exn α) (f : α → Prog Op Res Exn β) :
    x >>= f = x.bind f := rfl

@[simp] theorem ret_bind (a : α) (f : α → Prog Op Res Exn β) : (Prog.ret a).bind f = f a := rfl

theorem bind_assoc {γ : Type} (x : Prog Op Res Exn α) (f : α → Prog Op Res Exn β)
    (g : β → Prog Op Res Exn γ) : (x.bind f).bind g = x.bind fun a => (f a).bind g := by
  induction x with
  | ret a => rfl
  | raise e => rfl
  | op o k ih => exact congrArg (Prog.op o) (funext fun r => ih r)

/-! ## Running alone

With nobody else around a run is a function of the store and of the environments that the operations
meet. -/

/-- One program running alone: operation number `n` of the run meets the environment
`envs n`. The answer is the result together with the store and the number of operations. -/
def run (exec : Env → (o : Op) → Store → Except Exn (Res o) × Store) (envs : Nat → Env) :
    Prog Op Res Exn α → Nat → Store → Except Exn α × Store × Nat
  | .ret a, n, σ => (.ok a, σ, n)
  | .raise e, n, σ => (.error e, σ, n)
  | .op o k, n, σ => (k (exec (envs n) o σ).1).run exec envs (n + 1) (exec (envs n) o σ).2

theorem run_perform (exec : Env → (o : Op) → Store → Except Exn (Res o) × Store)
    (envs : Nat → Env) (o : Op) (n : Nat) (σ : Store) :
    (perform o : Prog Op Res Exn (Res o)).run exec envs n σ
      = ((exec (envs n) o σ).1, (exec (envs n) o σ).2, n + 1) := by
  unfold perform
  show (match (exec (envs n) o σ).1 with
    | .ok r => Prog.ret r
    | .error e => Prog.raise e : Prog Op Res Exn (Res o)).run exec envs (n + 1) _ = _
  cases (exec (envs n) o σ).1 <;> rfl

theorem run_bind (exec : Env → (o : Op) → Store → Except Exn (Res o) × Store) (envs : Nat → Env)
    (x : Prog Op Res Exn α) (f : α → Prog Op Res Exn β) (n : Nat) (σ : Store) :
    (x.bind f).run exec envs n σ =
      match x.run exec envs n σ with
      | (.ok a, σ', n') => (f a).run exec envs n' σ'
      | (.error e, σ', n') => (.error e, σ', n') := by
  induction x generalizing n σ with
  | ret a => rfl
  | raise e => rfl
  | op o k ih => exact ih _ _ _

theorem run_catching (exec : Env → (o : Op) → Store → Except Exn (Res o) × Store)
    (envs : Nat → Env) (x : Prog Op Res Exn α) (h : Exn → Prog Op Res Exn α) (n : Nat)
    (σ : Store) :
    (x.catching h).run exec envs n σ =
      match x.run exec envs n σ with
      | (.ok a, σ', n') => (.ok a, σ', n')
      | (.error e, σ', n') => (h e).run exec envs n' σ' := by
  induction x generalizing n σ with
  | ret a => rfl
  | raise e => rfl
  | op o k ih => exact ih _ _ _

/-! ## Two runs side by side

For readers only: two programs that write nothing and ask the same number of questions of two stores
answer alike if each question is answered alike. -/

/-- Both results are values related by `A`, or both are the same exception. -/
inductive Alike (A : α → β → Prop) : Except Exn α → Except Exn β → Prop where
  | ok {a : α} {b : β} (h : A a b) : Alike A (.ok a) (.ok b)
  | error (e : Exn) : Alike A (.error e) (.error e)

/-- Two programs, each against a store of its own and in the same environments, that perform
equally many operations, write nothing and end alike. -/
def ReadAlike (exec : Env → (o : Op) → Store → Except Exn (Res o) × Store) (envs : Nat → Env)
    (A : α → β → Prop) (x : Prog Op Res Exn α) (y : Prog Op Res Exn β) (n : Nat) (σ σ' : Store) :
    Prop :=
  ∃ r r' m, x.run exec envs n σ = (r, σ, m) ∧ y.run exec envs n σ' = (r', σ', m) ∧ Alike A r r'

section Side

variable {exec : Env → (o : Op) → Store → Except Exn (Res o) × Store} {envs : Nat → Env} {γ δ : Type}
  {A : α → β → Prop} {B : γ → δ → Prop} {n : Nat} {σ σ' : Store}

theorem ReadAlike.pure {a : α} {b : β} (h : A a b) :
    ReadAlike exec envs A (.ret a) (.ret b) n σ σ' :=
  ⟨_, _, _, rfl, rfl, .ok h⟩

theorem ReadAlike.raise (e : Exn) : ReadAlike exec envs A (.raise e) (.raise e) n σ σ' :=
  ⟨_, _, _, rfl, rfl, .error e⟩

theorem ReadAlike.perform {o o' : Op} {A : Res o → Res o' → Prop}
    (hleft : (exec (envs n) o σ).2 = σ) (hright : (exec (envs n) o' σ').2 = σ')
    (h : Alike A (exec (envs n) o σ).1 (exec (envs n) o' σ').1) :
    ReadAlike exec envs A (Prog.perform o) (Prog.perform o') n σ σ' := by
  refine ⟨_, _, n + 1, ?_, ?_, h⟩
  · rw [run_perform, hleft]
  · rw [run_perform, hright]

theorem ReadAlike.bind {x : Prog Op Res Exn α} {y : Prog Op Res Exn β} {f : α → Prog Op Res Exn γ}
    {g : β → Prog Op Res Exn δ} (hx : ReadAlike exec envs A x y n σ σ')
    (hf : ∀ a b m, A a b → ReadAlike exec envs B (f a) (g b) m σ σ') :
    ReadAlike exec envs B (x.bind f) (y.bind g) n σ σ' := by
  obtain ⟨r, r', m, hrun, hrun', halike⟩ := hx
  unfold ReadAlike
  rw [run_bind, run_bind, hrun, hrun']
  cases halike with
  | ok h => exact hf _ _ m h
  | error e => exact ⟨_, _, m, rfl, rfl, .error e⟩

theorem ReadAlike.catching {x : Prog Op Res Exn α} {y : Prog Op Res Exn β}
    {f : Exn → Prog Op Res Exn α} {g : Exn → Prog Op Res Exn β}
    (hx : ReadAlike exec envs A x y n σ σ')
    (hf : ∀ e m, ReadAlike exec envs A (f e) (g e) m σ σ') :
    ReadAlike exec envs A (x.catching f) (y.catching g) n σ σ' := by
  obtain ⟨r, r', m, hrun, hrun', halike⟩ := hx
  unfold ReadAlike
  rw [run_catching, run_catching, hrun, hrun']
  cases halike with
  | ok h => exact ⟨_, _, m, rfl, rfl, .ok h⟩
  | error e => exact hf e m

/-- The results of two runs side by side. -/
theorem ReadAlike.results {x : Prog Op Res Exn α} {y : Prog Op Res Exn β}
    (h : ReadAlike exec envs A x y n σ σ') :
    Alike A (x.run exec envs n σ).1 (y.run exec envs n σ').1 := by
  obtain ⟨r, r', m, hrun, hrun', halike⟩ := h
  rw [hrun, hrun']
  exact halike

end Side

/-- Weakest precondition of a program running alone. -/
def wp (exec : Env → (o : Op) → Store → Except Exn (Res o) × Store) (ok : Op → Env → Prop) :
    Prog Op Res Exn α → (Except Exn α → Store → Prop) → Store → Prop
  | .ret a, Q, σ => Q (.ok a) σ
  | .raise e, Q, σ => Q (.error e) σ
  | .op o k, Q, σ => ∀ env, ok o env → (k (exec env o σ).1).wp exec ok Q (exec env o σ).2

variable {exec : Env → (o : Op) → Store → Except Exn (Res o) × Store} {ok : Op → Env → Prop}

@[simp] theorem wp_ret (a : α) (Q : Except Exn α → Store → Prop) (σ : Store) :
    (Prog.ret a).wp exec ok Q σ ↔ Q (.ok a) σ := Iff.rfl

@[simp] theorem wp_raise (e : Exn) (Q : Except Exn α → Store → Prop) (σ : Store) :
    (Prog.raise e).wp exec ok Q σ ↔ Q (.error e) σ := Iff.rfl

theorem wp_op (o : Op) (k : Except Exn (Res o) → Prog Op Res Exn α)
    (Q : Except Exn α → Store → Prop) (σ : Store) :
    (Prog.op o k).wp exec ok Q σ
      ↔ ∀ env, ok o env → (k (exec env o σ).1).wp exec ok Q (exec env o σ).2 := Iff.rfl

/-- The rule of a single operation: one goal per answer. -/
theorem wp_perform (o : Op) (Q : Except Exn (Res o) → Store → Prop) (σ : Store) :
    (perform o : Prog Op Res Exn (Res o)).wp exec ok Q σ
      ↔ ∀ env, ok o env → Q (exec env o σ).1 (exec env o σ).2 := by
  unfold perform
  rw [wp_op]
  refine forall_congr' fun env => imp_congr_right fun _ => ?_
  cases (exec env o σ).1 <;> exact Iff.rfl

/-- The rule of sequencing. -/
theorem wp_bind (x : Prog Op Res Exn α) (f : α → Prog Op Res Exn β)
    (Q : Except Exn β → Store → Prop) (σ : Store) :
    (x.bind f).wp exec ok Q σ ↔ x.wp exec ok (fun r σ' =>
      match r with
      | .ok a => (f a).wp exec ok Q σ'
      | .error e => Q (.error e) σ') σ := by
  induction x generalizing σ with
  | ret a => exact Iff.rfl
  | raise e => exact Iff.rfl
  | op o k ih => exact forall_congr' fun env => imp_congr_right fun _ => ih _ _

/-- The rule of exception handling. -/
theorem wp_catching (x : Prog Op Res Exn α) (h : Exn → Prog Op Res Exn α)
    (Q : Except Exn α → Store → Prop) (σ : Store) :
    (x.catching h).wp exec ok Q σ ↔ x.wp exec ok (fun r σ' =>
      match r with
      | .ok a => Q (.ok a) σ'
      | .error e => (h e).wp exec ok Q σ') σ := by
  induction x generalizing σ with
  | ret a => exact Iff.rfl
  | raise e => exact Iff.rfl
  | op o k ih => exact forall_congr' fun env => imp_congr_right fun _ => ih _ _

/-- The rule of consequence. -/
theorem wp_mono {x : Prog Op Res Exn α} {Q Q' : Except Exn α → Store → Prop} {σ : Store}
    (h : x.wp exec ok Q σ) (hQ : ∀ r σ', Q r σ' → Q' r σ') : x.wp exec ok Q' σ := by
  induction x generalizing σ with
  | ret a => exact hQ _ _ h
  | raise e => exact hQ _ _ h
  | op o k ih => exact fun env henv => ih _ (h env henv)

theorem wp_and {x : Prog Op Res Exn α} {Q Q' : Except Exn α → Store → Prop} {σ : Store}
    (h : x.wp exec ok Q σ) (h' : x.wp exec ok Q' σ) :
    x.wp exec ok (fun r σ' => Q r σ' ∧ Q' r σ') σ := by
  induction x generalizing σ with
  | ret a => exact ⟨h, h'⟩
  | raise e => exact ⟨h, h'⟩
  | op o k ih => exact fun env henv => ih _ (h env henv) (h' env henv)

/-- **Soundness of the calculus.** A run against admissible environments ends as `wp` says. -/
theorem run_of_wp {x : Prog Op Res Exn α} {Q : Except Exn α → Store → Prop} {σ : Store}
    (h : x.wp exec ok Q σ) {envs : Nat → Env} (henvs : ∀ o n, ok o (envs n)) (n : Nat) :
    Q (x.run exec envs n σ).1 (x.run exec envs n σ).2.1 := by
  induction x generalizing σ n with
  | ret a => exact h
  | raise e => exact h
  | op o k ih => exact ih _ (h (envs n) (henvs o n)) (n + 1)

/-! ## Two kinds of specification

`Maintains` is about safety: the invariant is kept whatever happens, a result tells a fact that no
later operation can spoil, and only certain exceptions escape. `Achieves` is about success: the
program ends with a result, in a store as promised. -/

section Specifications

variable (exec : Env → (o : Op) → Store → Except Exn (Res o) × Store) (ok : Op → Env → Prop)

def Maintains (I : Store → Prop) (x : Prog Op Res Exn α) (Q : α → Prop) (E : Exn → Prop) : Prop :=
  ∀ σ, I σ → x.wp exec ok
    (fun r σ' => I σ' ∧ (∀ a, r = .ok a → Q a) ∧ ∀ e, r = .error e → E e) σ

def Achieves (P : Store → Prop) (x : Prog Op Res Exn α) (Q : α → Store → Prop) : Prop :=
  ∀ σ, P σ → x.wp exec ok (fun r σ' => ∃ a, r = .ok a ∧ Q a σ') σ

end Specifications

variable {I P P' : Store → Prop} {Q : α → Prop} {Q' : β → Prop} {E E' : Exn → Prop}

theorem Maintains.pure {a : α} (ha : Q a) : Maintains exec ok I (.ret a) Q E :=
  fun _ hI => ⟨hI, fun _ h => Except.ok.inj h ▸ ha, nofun⟩

theorem Maintains.raise {e : Exn} (he : E e) : Maintains exec ok I (.raise e) Q E :=
  fun _ hI => ⟨hI, nofun, fun _ h => Except.error.inj h ▸ he⟩

theorem Maintains.perform {o : Op} {Q : Res o → Prop}
    (h : ∀ σ env, I σ → ok o env → I (exec env o σ).2 ∧ (∀ a, (exec env o σ).1 = .ok a → Q a)
      ∧ ∀ e, (exec env o σ).1 = .error e → E e) :
    Maintains exec ok I (perform o) Q E :=
  fun σ hI => (wp_perform o _ σ).mpr fun env henv => h σ env hI henv

theorem Maintains.bind {x : Prog Op Res Exn α} {f : α → Prog Op Res Exn β}
    (hx : Maintains exec ok I x Q E) (hf : ∀ a, Q a → Maintains exec ok I (f a) Q' E) :
    Maintains exec ok I (x.bind f) Q' E := by
  intro σ hI
  refine (wp_bind x f _ σ).mpr (wp_mono (hx σ hI) fun r σ' h => ?_)
  cases r with
  | ok a => exact hf a (h.2.1 a rfl) σ' h.1
  | error e => exact ⟨h.1, nofun, fun _ hr => Except.error.inj hr ▸ h.2.2 e rfl⟩

theorem Maintains.catching {x : Prog Op Res Exn α} {handler : Exn → Prog Op Res Exn α}
    (hx : Maintains exec ok I x Q E) (hh : ∀ e, E e → Maintains exec ok I (handler e) Q E') :
    Maintains exec ok I (x.catching handler) Q E' := by
  intro σ hI
  refine (wp_catching x handler _ σ).mpr (wp_mono (hx σ hI) fun r σ' h => ?_)
  cases r with
  | ok a => exact ⟨h.1, h.2.1, nofun⟩
  | error e => exact hh e (h.2.2 e rfl) σ' h.1

/-- Of any program, nothing. -/
theorem Maintains.anything {x : Prog Op Res Exn α} :
    Maintains exec ok (fun _ => True) x (fun _ => True) (fun _ => True) := by
  intro σ _
  induction x generalizing σ with
  | ret a => exact ⟨trivial, fun _ _ => trivial, fun _ _ => trivial⟩
  | raise e => exact ⟨trivial, fun _ _ => trivial, fun _ _ => trivial⟩
  | op o k ih => exact fun env _ => ih _ _

/-- A program from which no exception escapes succeeds. -/
theorem Maintains.achieves {x : Prog Op Res Exn α}
    (hx : Maintains exec ok I x Q fun _ => False) :
    Achieves exec ok I x fun a σ' => Q a ∧ I σ' := by
  intro σ hI
  refine wp_mono (hx σ hI) fun r σ' h => ?_
  cases r with
  | ok a => exact ⟨a, rfl, h.2.1 a rfl, h.1⟩
  | error e => exact (h.2.2 e rfl).elim

theorem Achieves.pure {a : α} {Q : α → Store → Prop} (h : ∀ σ, P σ → Q a σ) :
    Achieves exec ok P (.ret a) Q :=
  fun σ hP => ⟨a, rfl, h σ hP⟩

theorem Achieves.perform {o : Op} {Q : Res o → Store → Prop}
    (h : ∀ σ env, P σ → ok o env → ∃ a, (exec env o σ).1 = .ok a ∧ Q a (exec env o σ).2) :
    Achieves exec ok P (perform o) Q :=
  fun σ hP => (wp_perform o _ σ).mpr fun env henv => h σ env hP henv

theorem Achieves.bind {x : Prog Op Res Exn α} {f : α → Prog Op Res Exn β}
    {Q : α → Store → Prop} {Q' : β → Store → Prop} (hx : Achieves exec ok P x Q)
    (hf : ∀ a, Achieves exec ok (Q a) (f a) Q') : Achieves exec ok P (x.bind f) Q' := by
  intro σ hP
  refine (wp_bind x f _ σ).mpr (wp_mono (hx σ hP) fun r σ' h => ?_)
  obtain ⟨a, rfl, ha⟩ := h
  exact hf a σ' ha

/-- A handler that is never reached. -/
theorem Achieves.catching {x : Prog Op Res Exn α} {handler : Exn → Prog Op Res Exn α}
    {Q : α → Store → Prop} (hx : Achieves exec ok P x Q) :
    Achieves exec ok P (x.catching handler) Q := by
  intro σ hP
  refine (wp_catching x handler _ σ).mpr (wp_mono (hx σ hP) fun r σ' h => ?_)
  obtain ⟨a, rfl, ha⟩ := h
  exact ⟨a, rfl, ha⟩

theorem Achieves.conseq {x : Prog Op Res Exn α} {Q Q₁ : α → Store → Prop}
    (hx : Achieves exec ok P x Q) (hP : ∀ σ, P' σ → P σ) (hQ : ∀ a σ, Q a σ → Q₁ a σ) :
    Achieves exec ok P' x Q₁ :=
  fun σ hσ => wp_mono (hx σ (hP σ hσ)) fun _ _ ⟨a, hr, ha⟩ => ⟨a, hr, hQ a _ ha⟩

end Prog

end Concurrent
