import SmartDialer.Lib.Interleaving

/-!
# One program among others

A `Moment` is an operation as it happened: the store it found and the environment it met.
`Passes exec x h r` says that program `x` performs exactly the moments `h` and ends in `r`. Nothing
ties the store a moment finds to the one the moment before it left, so every interference of other
threads is covered; in a run of a machine each thread passes through its own moments
(`World.leads_moments`).
-/

namespace Concurrent

structure Moment (Op Store Env : Type) where
  op : Op
  found : Store
  env : Env

variable {Job Op : Type} {Res : Op → Type} {Exn Store Env Out Stage α β : Type}

namespace Moment

variable (exec : Env → (o : Op) → Store → Except Exn (Res o) × Store)

def answer (m : Moment Op Store Env) : Except Exn (Res m.op) := (exec m.env m.op m.found).1

/-- The store the operation leaves behind. -/
def left (m : Moment Op Store Env) : Store := (exec m.env m.op m.found).2

end Moment

namespace Prog

/-! ## Programs by the operations they may perform

A first, coarse description of a program: the set of its operations, with any answers or only with
those that operations really give. -/

/-- Whatever the answers are, every operation is one of `S`. -/
def Performs (S : Op → Prop) : Prog Op Res Exn α → Prop
  | .ret _ => True
  | .raise _ => True
  | .op o k => S o ∧ ∀ r, Performs S (k r)

theorem performs_ret {S : Op → Prop} (a : α) : (Prog.ret a : Prog Op Res Exn α).Performs S := trivial

theorem performs_perform {S : Op → Prop} {o : Op} :
    (perform o : Prog Op Res Exn (Res o)).Performs S ↔ S o := by
  refine ⟨fun h => h.1, fun h => ⟨h, fun r => ?_⟩⟩
  cases r <;> trivial

theorem Performs.bind {S : Op → Prop} {x : Prog Op Res Exn α} {f : α → Prog Op Res Exn β}
    (hx : x.Performs S) (hf : ∀ a, (f a).Performs S) : (x.bind f).Performs S := by
  induction x with
  | ret a => exact hf a
  | raise e => trivial
  | op o k ih => exact ⟨hx.1, fun r => ih r (hx.2 r)⟩

theorem Performs.catching {S : Op → Prop} {x : Prog Op Res Exn α} {handler : Exn → Prog Op Res Exn α}
    (hx : x.Performs S) (hh : ∀ e, (handler e).Performs S) : (x.catching handler).Performs S := by
  induction x with
  | ret a => trivial
  | raise e => exact hh e
  | op o k ih => exact ⟨hx.1, fun r => ih r (hx.2 r)⟩

section Abiding

variable (exec : Env → (o : Op) → Store → Except Exn (Res o) × Store)

/-- With answers as operations really give them, every operation is one of `S` and a result is one
of `Q`. -/
def Abides (S : Op → Prop) (Q : α → Prop) : Prog Op Res Exn α → Prop
  | .ret a => Q a
  | .raise _ => True
  | .op o k => S o ∧ ∀ env σ, Abides S Q (k (exec env o σ).1)

variable {exec} {S : Op → Prop} {Q : α → Prop} {Q' : β → Prop}

theorem Performs.abides {x : Prog Op Res Exn α} (hx : x.Performs S) :
    x.Abides exec S fun _ => True := by
  induction x with
  | ret a => trivial
  | raise e => trivial
  | op o k ih => exact ⟨hx.1, fun env σ => ih _ (hx.2 _)⟩

theorem abides_perform {o : Op} {Q : Res o → Prop} (ho : S o)
    (hQ : ∀ env σ a, (exec env o σ).1 = .ok a → Q a) :
    (perform o : Prog Op Res Exn (Res o)).Abides exec S Q := by
  refine ⟨ho, fun env σ => ?_⟩
  cases hr : (exec env o σ).1 with
  | ok a => exact hQ env σ a hr
  | error e => trivial

theorem Abides.bind {x : Prog Op Res Exn α} {f : α → Prog Op Res Exn β} (hx : x.Abides exec S Q)
    (hf : ∀ a, Q a → (f a).Abides exec S Q') : (x.bind f).Abides exec S Q' := by
  induction x with
  | ret a => exact hf a hx
  | raise e => trivial
  | op o k ih => exact ⟨hx.1, fun env σ => ih _ (hx.2 env σ)⟩

theorem Abides.catching {x : Prog Op Res Exn α} {handler : Exn → Prog Op Res Exn α}
    (hx : x.Abides exec S Q) (hh : ∀ e, (handler e).Abides exec S Q) :
    (x.catching handler).Abides exec S Q := by
  induction x with
  | ret a => exact hx
  | raise e => exact hh e
  | op o k ih => exact ⟨hx.1, fun env σ => ih _ (hx.2 env σ)⟩

end Abiding

/-! ## Passages

A passage lists what a program has performed, with the store that each operation found. The rules
take a passage apart along the program: sequences split it in two. -/

section Passages

variable (exec : Env → (o : Op) → Store → Except Exn (Res o) × Store)

/-- `x` performs the moments `h` and is `y` then. -/
def Leads : Prog Op Res Exn α → List (Moment Op Store Env) → Prog Op Res Exn α → Prop
  | x, [], y => x = y
  | .op o k, m :: h, y => m.op = o ∧ Leads (k (exec m.env o m.found).1) h y
  | .ret _, _ :: _, _ => False
  | .raise _, _ :: _, _ => False

/-- `x` performs exactly the moments `h` and ends in `r`. -/
def Passes : Prog Op Res Exn α → List (Moment Op Store Env) → Except Exn α → Prop
  | .ret a, [], r => r = .ok a
  | .raise e, [], r => r = .error e
  | .op o k, m :: h, r => m.op = o ∧ Passes (k (exec m.env o m.found).1) h r
  | .ret _, _ :: _, _ => False
  | .raise _, _ :: _, _ => False
  | .op _ _, [], _ => False

/-- `x` is what `y` performs first. -/
inductive Starts (x : Prog Op Res Exn α) : {β : Type} → Prog Op Res Exn β → Prop where
  | here : Starts x x
  | bind {β γ : Type} {y : Prog Op Res Exn β} (f : β → Prog Op Res Exn γ) (h : Starts x y) :
      Starts x (y.bind f)
  | catching {β : Type} {y : Prog Op Res Exn β} (handler : Exn → Prog Op Res Exn β)
      (h : Starts x y) : Starts x (y.catching handler)

variable {exec} {h : List (Moment Op Store Env)}

@[simp] theorem passes_ret (a : α) (r : Except Exn α) :
    (Prog.ret a).Passes exec h r ↔ h = [] ∧ r = .ok a := by
  cases h with
  | nil => simp [Passes]
  | cons m h => simp [Passes]

@[simp] theorem passes_raise (e : Exn) (r : Except Exn α) :
    (Prog.raise e).Passes exec h r ↔ h = [] ∧ r = .error e := by
  cases h with
  | nil => simp [Passes]
  | cons m h => simp [Passes]

theorem passes_op (o : Op) (k : Except Exn (Res o) → Prog Op Res Exn α) (r : Except Exn α) :
    (Prog.op o k).Passes exec h r
      ↔ ∃ σ env h', h = ⟨o, σ, env⟩ :: h' ∧ (k (exec env o σ).1).Passes exec h' r := by
  cases h with
  | nil => simp [Passes]
  | cons m h =>
    constructor
    · rintro ⟨rfl, hk⟩
      exact ⟨m.found, m.env, h, rfl, hk⟩
    · rintro ⟨σ, env, h', heq, hk⟩
      cases heq
      exact ⟨rfl, hk⟩

/-- The one moment of a single operation. -/
theorem passes_perform (o : Op) (r : Except Exn (Res o)) :
    (perform o : Prog Op Res Exn (Res o)).Passes exec h r
      ↔ ∃ σ env, h = [⟨o, σ, env⟩] ∧ r = (exec env o σ).1 := by
  unfold perform
  rw [passes_op]
  constructor
  · rintro ⟨σ, env, h', heq, hk⟩
    cases hr : (exec env o σ).1 with
    | ok a =>
      simp only [hr, passes_ret] at hk
      exact ⟨σ, env, by rw [heq, hk.1], hk.2.trans hr.symm⟩
    | error e =>
      simp only [hr, passes_raise] at hk
      exact ⟨σ, env, by rw [heq, hk.1], hk.2.trans hr.symm⟩
  · rintro ⟨σ, env, heq, hr⟩
    refine ⟨σ, env, [], heq, ?_⟩
    rw [hr]
    cases (exec env o σ).1 with
    | ok a => simp
    | error e => simp

/-- A sequence passes through the moments of its first part, then through those of its second. An
exception of the first part ends the sequence, and then the second part passes through nothing. -/
theorem passes_bind (x : Prog Op Res Exn α) (f : α → Prog Op Res Exn β) (r : Except Exn β) :
    (x.bind f).Passes exec h r ↔
      (∃ h₁ h₂ a, h = h₁ ++ h₂ ∧ x.Passes exec h₁ (.ok a) ∧ (f a).Passes exec h₂ r)
      ∨ ∃ e, x.Passes exec h (.error e) ∧ r = .error e := by
  -- on the first part: it ends at once, in a value or in an exception, or performs one operation
  induction x generalizing h with
  | ret a =>
    constructor
    · exact fun hf => Or.inl ⟨[], h, a, rfl, by simp, hf⟩
    · rintro (⟨h₁, h₂, b, rfl, hret, hf⟩ | ⟨e, hret, -⟩)
      · obtain ⟨rfl, hb⟩ := (passes_ret a _).mp hret
        cases hb
        exact hf
      · simp at hret
  | raise e =>
    constructor
    · intro hr
      simp only [Prog.bind, passes_raise] at hr
      exact Or.inr ⟨e, by simp [hr.1], hr.2⟩
    · rintro (⟨h₁, h₂, b, rfl, hret, -⟩ | ⟨e', hret, rfl⟩)
      · simp at hret
      · simp only [passes_raise, Except.error.injEq] at hret
        simp [Prog.bind, hret]
  | op o k ih =>
    simp only [Prog.bind, passes_op, ih]
    constructor
    · rintro ⟨σ, env, h', rfl, ⟨h₁, h₂, a, rfl, hx, hf⟩ | ⟨e, hx, rfl⟩⟩
      · exact Or.inl ⟨⟨o, σ, env⟩ :: h₁, h₂, a, rfl, ⟨σ, env, h₁, rfl, hx⟩, hf⟩
      · exact Or.inr ⟨e, ⟨σ, env, h', rfl, hx⟩, rfl⟩
    · rintro (⟨h₁, h₂, a, rfl, ⟨σ, env, h', rfl, hx⟩, hf⟩ | ⟨e, ⟨σ, env, h', rfl, hx⟩, rfl⟩)
      · exact ⟨σ, env, h' ++ h₂, rfl, Or.inl ⟨h', h₂, a, rfl, hx, hf⟩⟩
      · exact ⟨σ, env, h', rfl, Or.inr ⟨e, hx, rfl⟩⟩

/-- A handler passes through its moments after those of the program it guards. A value of the
guarded program ends it, and then the handler passes through nothing. -/
theorem passes_catching (x : Prog Op Res Exn α) (handler : Exn → Prog Op Res Exn α)
    (r : Except Exn α) :
    (x.catching handler).Passes exec h r ↔
      (∃ a, x.Passes exec h (.ok a) ∧ r = .ok a)
      ∨ ∃ h₁ h₂ e, h = h₁ ++ h₂ ∧ x.Passes exec h₁ (.error e) ∧ (handler e).Passes exec h₂ r := by
  -- on the guarded program, like `passes_bind` with the two ends exchanged
  induction x generalizing h with
  | ret a =>
    constructor
    · intro hr
      simp only [Prog.catching, passes_ret] at hr
      exact Or.inl ⟨a, by simp [hr.1], hr.2⟩
    · rintro (⟨b, hret, rfl⟩ | ⟨h₁, h₂, e, rfl, hret, -⟩)
      · simp only [passes_ret, Except.ok.injEq] at hret
        simp [Prog.catching, hret]
      · simp at hret
  | raise e =>
    constructor
    · exact fun hf => Or.inr ⟨[], h, e, rfl, by simp, hf⟩
    · rintro (⟨b, hret, -⟩ | ⟨h₁, h₂, e', rfl, hret, hf⟩)
      · simp at hret
      · obtain ⟨rfl, he⟩ := (passes_raise e _).mp hret
        cases he
        exact hf
  | op o k ih =>
    simp only [Prog.catching, passes_op, ih]
    constructor
    · rintro ⟨σ, env, h', rfl, ⟨a, hx, rfl⟩ | ⟨h₁, h₂, e, rfl, hx, hf⟩⟩
      · exact Or.inl ⟨a, ⟨σ, env, h', rfl, hx⟩, rfl⟩
      · exact Or.inr ⟨⟨o, σ, env⟩ :: h₁, h₂, e, rfl, ⟨σ, env, h₁, rfl, hx⟩, hf⟩
    · rintro (⟨a, ⟨σ, env, h', rfl, hx⟩, rfl⟩ | ⟨h₁, h₂, e, rfl, ⟨σ, env, h', rfl, hx⟩, hf⟩)
      · exact ⟨σ, env, h', rfl, Or.inl ⟨a, hx, rfl⟩⟩
      · exact ⟨σ, env, h' ++ h₂, rfl, Or.inr ⟨h', h₂, e, rfl, hx, hf⟩⟩

theorem Performs.of_passes {S : Op → Prop} {x : Prog Op Res Exn α} (hx : x.Performs S)
    {r : Except Exn α} (hpass : x.Passes exec h r) : ∀ m ∈ h, S m.op := by
  induction x generalizing h with
  | ret a => simp [((passes_ret a r).mp hpass).1]
  | raise e => simp [((passes_raise e r).mp hpass).1]
  | op o k ih =>
    obtain ⟨σ, env, h', rfl, hk⟩ := (passes_op o k r).mp hpass
    intro m hm
    rcases List.mem_cons.mp hm with rfl | hm
    · exact hx.1
    · exact ih _ (hx.2 _) hk m hm

/-- A moment of a sequence that the first part cannot perform is one of the second part. -/
theorem Passes.past {x : Prog Op Res Exn α} {f : α → Prog Op Res Exn β} {r : Except Exn β}
    {before after : List (Moment Op Store Env)} {m : Moment Op Store Env}
    (h : (x.bind f).Passes exec (before ++ m :: after) r) {S : Op → Prop} (hx : x.Performs S)
    (hm : ¬ S m.op) :
    ∃ h₁ before' a, before = h₁ ++ before' ∧ x.Passes exec h₁ (.ok a)
      ∧ (f a).Passes exec (before' ++ m :: after) r := by
  rcases (passes_bind x f r).mp h with ⟨h₁, h₂, a, hsplit, hpass, hf⟩ | ⟨e, hpass, -⟩
  · rcases List.append_eq_append_iff.mp hsplit with ⟨rest, rfl, hrest⟩ | ⟨rest, rfl, rfl⟩
    · cases rest with
      | nil => exact ⟨before, [], a, by simp, by simpa using hpass, by rw [List.nil_append, hrest]; exact hf⟩
      | cons m' rest =>
        cases hrest
        exact absurd (hx.of_passes hpass m (by simp)) hm
    · exact ⟨h₁, rest, a, rfl, hpass, hf⟩
  · exact absurd (hx.of_passes hpass m (by simp)) hm

@[simp] theorem leads_nil {x y : Prog Op Res Exn α} :
    x.Leads exec ([] : List (Moment Op Store Env)) y ↔ x = y := by
  cases x <;> exact Iff.rfl

/-- The rest of a program after some of its moments. -/
theorem leads_append {x z : Prog Op Res Exn α} {h' : List (Moment Op Store Env)} :
    x.Leads exec (h ++ h') z ↔ ∃ y, x.Leads exec h y ∧ y.Leads exec h' z := by
  induction h generalizing x with
  | nil => simp
  | cons m h ih =>
    cases x with
    | ret a => simp [Leads]
    | raise e => simp [Leads]
    | op o k => simp [Leads, ih, and_assoc]

/-! ### Computing a passage -/

variable (exec) in
/-- What is left of `x` after the moments `h`, if it can perform them. -/
def after [DecidableEq Op] : Prog Op Res Exn α → List (Moment Op Store Env) → Option (Prog Op Res Exn α)
  | x, [] => some x
  | .op o k, m :: h => if m.op = o then (k (exec m.env o m.found).1).after h else none
  | .ret _, _ :: _ => none
  | .raise _, _ :: _ => none

/-- The result of a program that has ended. -/
def result : Prog Op Res Exn α → Option (Except Exn α)
  | .ret a => some (.ok a)
  | .raise e => some (.error e)
  | .op _ _ => none

theorem leads_of_after [DecidableEq Op] {x y : Prog Op Res Exn α} (hy : x.after exec h = some y) :
    x.Leads exec h y := by
  induction h generalizing x with
  | nil =>
    rw [leads_nil]
    cases x <;> exact Option.some.inj hy
  | cons m h ih =>
    cases x with
    | ret a => cases hy
    | raise e => cases hy
    | op o k =>
      simp only [after, Option.ite_none_right_eq_some] at hy
      exact ⟨hy.1, ih hy.2⟩

/-- What `after` computes is a passage so far, and a whole one once the program has ended. -/
theorem passes_of_after [DecidableEq Op] {x : Prog Op Res Exn α} {r : Except Exn α}
    (hr : (x.after exec h).bind result = some r) : x.Passes exec h r := by
  induction h generalizing x with
  | nil =>
    cases x with
    | ret a => exact (Option.some.inj hr).symm
    | raise e => exact (Option.some.inj hr).symm
    | op o k => cases hr
  | cons m h ih =>
    cases x with
    | ret a => cases hr
    | raise e => cases hr
    | op o k =>
      by_cases hop : m.op = o
      · simp only [after, hop, if_true] at hr
        exact ⟨hop, ih hr⟩
      · simp only [after, hop, if_false] at hr
        cases hr

/-! ### Counting operations -/

/-- How many of the moments perform an operation of `S`. -/
def count (S : Op → Bool) (h : List (Moment Op Store Env)) : Nat := h.countP fun m => S m.op

theorem count_append (S : Op → Bool) (h h' : List (Moment Op Store Env)) :
    count S (h ++ h') = count S h + count S h' := List.countP_append

variable (exec) in
/-- At most `n` operations of `S`, however the program ends. -/
def AtMost (S : Op → Bool) (n : Nat) (x : Prog Op Res Exn α) : Prop :=
  ∀ h r, x.Passes exec h r → count S h ≤ n

variable (exec) in
/-- A result in `Q` only after an operation of `S`. -/
def Needs (S : Op → Bool) (Q : α → Prop) (x : Prog Op Res Exn α) : Prop :=
  ∀ h a, x.Passes exec h (.ok a) → Q a → 1 ≤ count S h

section Counting

variable {S : Op → Bool} {n n' : Nat} {Q : α → Prop} {Q' : β → Prop} {x : Prog Op Res Exn α}
  {f : α → Prog Op Res Exn β}

theorem AtMost.mono (hx : AtMost exec S n x) (hle : n ≤ n') : AtMost exec S n' x :=
  fun h r hpass => Nat.le_trans (hx h r hpass) hle

/-- A program that performs no operation of `S`. -/
theorem AtMost.of_performs (hx : x.Performs fun o => S o = false) : AtMost exec S 0 x := by
  intro h r hpass
  refine Nat.le_of_eq (List.countP_eq_zero.mpr fun m hm => ?_)
  simp [hx.of_passes hpass m hm]

theorem AtMost.perform (o : Op) : AtMost exec S 1 (Prog.perform o : Prog Op Res Exn (Res o)) := by
  intro h r hpass
  obtain ⟨σ, env, rfl, -⟩ := (passes_perform o r).mp hpass
  exact List.countP_le_length

theorem AtMost.bind (hx : AtMost exec S n x) (hf : ∀ a, AtMost exec S n' (f a)) :
    AtMost exec S (n + n') (x.bind f) := by
  intro h r hpass
  rcases (passes_bind x f r).mp hpass with ⟨h₁, h₂, a, rfl, hleft, hright⟩ | ⟨e, hleft, -⟩
  · rw [count_append]
    exact Nat.add_le_add (hx h₁ _ hleft) (hf a h₂ r hright)
  · exact Nat.le_trans (hx h _ hleft) (Nat.le_add_right n n')

theorem Needs.ret {a : α} (ha : ¬ Q a) : Needs exec S Q (.ret a) := by
  intro h b hpass hQ
  cases ((passes_ret a _).mp hpass).2
  exact absurd hQ ha

/-- The operation itself. -/
theorem Needs.perform {o : Op} {Q : Res o → Prop} (ho : S o = true) :
    Needs exec S Q (Prog.perform o : Prog Op Res Exn (Res o)) := by
  intro h a hpass _
  obtain ⟨σ, env, rfl, -⟩ := (passes_perform o _).mp hpass
  simp [count, ho]

theorem Needs.first (hx : Needs exec S (fun _ => True) x) : Needs exec S Q' (x.bind f) := by
  intro h b hpass _
  rcases (passes_bind x f _).mp hpass with ⟨h₁, h₂, a, rfl, hleft, -⟩ | ⟨e, -, he⟩
  · rw [count_append]
    exact Nat.le_trans (hx h₁ a hleft trivial) (Nat.le_add_right _ _)
  · cases he

theorem Needs.second (hf : ∀ a, Needs exec S Q' (f a)) : Needs exec S Q' (x.bind f) := by
  intro h b hpass hQ
  rcases (passes_bind x f _).mp hpass with ⟨h₁, h₂, a, rfl, -, hright⟩ | ⟨e, -, he⟩
  · rw [count_append]
    exact Nat.le_trans (hf a h₂ b hright hQ) (Nat.le_add_left _ _)
  · cases he

end Counting

end Passages

end Prog

/-! ## Threads of a run

In a run other threads move between the moments of a thread. The passage of a thread forgets them,
but for what they have made of the store that the next moment finds. -/

namespace World

/-- What thread `p` performs when the scheduler takes an action. -/
def momentOf (w : World Job Op Res Exn Store Env Out Stage) (p : Nat) :
    Action Job Env → List (Moment Op Store Env)
  | .perform q env =>
    match w.threads q with
    | some t =>
      match t.crashed, t.prog with
      | false, .op o _ => if q = p then [⟨o, w.store, env⟩] else []
      | _, _ => []
    | none => []
  | _ => []

/-- The moments of thread `p` in a run of the scheduler. -/
def moments (M : Machine Job Op Res Exn Store Env Out Stage)
    (w : World Job Op Res Exn Store Env Out Stage) (p : Nat) :
    List (Action Job Env) → List (Moment Op Store Env)
  | [] => []
  | a :: as => w.momentOf p a ++ (w.act M a).moments M p as

variable {M : Machine Job Op Res Exn Store Env Out Stage}
  {w : World Job Op Res Exn Store Env Out Stage} {p : Nat}

/-- What another thread performs is no moment of this one. -/
theorem momentOf_of_ne {q : Nat} (hne : q ≠ p) (env : Env) : w.momentOf p (.perform q env) = [] := by
  cases hq : w.threads q with
  | none => simp [momentOf, hq]
  | some u =>
    cases hc : u.crashed with
    | true => simp [momentOf, hq, hc]
    | false => cases hprog : u.prog <;> simp [momentOf, hq, hc, hprog, hne]

theorem act_perform_of_ne {q : Nat} (hne : q ≠ p) (env : Env) :
    (w.act M (.perform q env)).threads p = w.threads p := by
  rcases w.act_cases (M := M) (.perform q env) with heq | ⟨_, _, ha, _⟩ | ⟨_, _, ha, _⟩
    | ⟨_, _, u, o, k, ha, -, -, -, heq⟩
  · rw [heq]
  · cases ha
  · cases ha
  · cases ha
    rw [heq]
    exact Function.update_of_ne hne.symm _ _

/-- One action leads a thread over the moment it has there, if it has one. -/
theorem leads_momentOf {a : Action Job Env} {t : Thread Job Op Res Exn Out Stage}
    (ht : w.threads p = some t) :
    ∃ t₁, (w.act M a).threads p = some t₁ ∧ t₁.job = t.job
      ∧ t.prog.Leads M.exec (w.momentOf p a) t₁.prog := by
  cases a with
  -- a thread that is started or crashes has no moment there
  | spawn q job =>
    cases hq : w.threads q with
    | some u => exact ⟨t, by simp [act, hq, ht], rfl, Prog.leads_nil.mpr rfl⟩
    | none =>
      have hne : p ≠ q := by
        rintro rfl
        rw [ht] at hq
        cases hq
      exact ⟨t, by simp [act, hq, ht, hne], rfl, Prog.leads_nil.mpr rfl⟩
  | crash q =>
    cases hq : w.threads q with
    | none => exact ⟨t, by simp [act, hq, ht], rfl, Prog.leads_nil.mpr rfl⟩
    | some u =>
      by_cases hne : p = q
      · subst hne
        cases ht.symm.trans hq
        exact ⟨{ t with crashed := true }, by simp [act, ht], rfl, Prog.leads_nil.mpr rfl⟩
      · exact ⟨t, by simp [act, hq, ht, hne], rfl, Prog.leads_nil.mpr rfl⟩
  | perform q env =>
    by_cases hne : q = p
    · subst hne
      cases hc : t.crashed with
      | true => exact ⟨t, by simp [act, ht, hc], rfl, by simp [momentOf, ht, hc]⟩
      | false =>
        -- this thread moves, if it still has an operation
        cases hprog : t.prog with
        | ret r => exact ⟨t, by simp [act, ht, hc, hprog], rfl, by simp [momentOf, ht, hc, hprog]⟩
        | raise e => exact ⟨t, by simp [act, ht, hc, hprog], rfl, by simp [momentOf, ht, hc, hprog]⟩
        | op o k =>
          exact ⟨{ t with prog := k (M.exec env o w.store).1
                          stage := M.next t.stage o (M.exec env o w.store).1 },
            by simp [act, ht, hc, hprog], rfl, by simp [momentOf, ht, hc, hprog, Prog.Leads]⟩
    · -- another thread moves
      exact ⟨t, by rw [act_perform_of_ne hne, ht], rfl,
        by rw [momentOf_of_ne hne, Prog.leads_nil]⟩

/-- A thread goes on from where it is through its own moments. -/
theorem leads_moments {as : List (Action Job Env)} {t : Thread Job Op Res Exn Out Stage}
    (ht : w.threads p = some t) :
    ∃ t', (w.acts M as).threads p = some t' ∧ t'.job = t.job
      ∧ t.prog.Leads M.exec (w.moments M p as) t'.prog := by
  induction as generalizing w t with
  | nil => exact ⟨t, ht, rfl, by simp [moments]⟩
  | cons a as ih =>
    obtain ⟨t₁, ht₁, hjob₁, hleads₁⟩ := leads_momentOf (M := M) (a := a) ht
    obtain ⟨t', ht', hjob', hleads'⟩ := ih ht₁
    exact ⟨t', ht', hjob'.trans hjob₁, Prog.leads_append.mpr ⟨_, hleads₁, hleads'⟩⟩

/-- **Time passes between the moments of a thread**: what no operation undoes holds from each store
to the next one the thread finds, whoever has moved between the two. -/
theorem moments_ordered {R : Store → Store → Prop} (hrefl : ∀ σ, R σ σ)
    (htrans : ∀ σ σ' σ'', R σ σ' → R σ' σ'' → R σ σ'')
    (hexec : ∀ env o σ, R σ (M.exec env o σ).2) (as : List (Action Job Env)) :
    (∀ m ∈ w.moments M p as, R w.store m.found)
      ∧ (w.moments M p as).Pairwise fun m m' => R (m.left M.exec) m'.found := by
  induction as generalizing w with
  | nil => exact ⟨fun m hm => absurd hm List.not_mem_nil, List.Pairwise.nil⟩
  | cons a as ih =>
    obtain ⟨hfound, hpairs⟩ := ih (w := w.act M a)
    have hstep : R w.store (w.act M a).store := by
      rcases w.act_cases (M := M) a with heq | ⟨q, job, -, -, heq⟩ | ⟨q, u, -, -, heq⟩
        | ⟨q, env, u, o, k, -, -, -, -, heq⟩
      · rw [heq]
        exact hrefl _
      · rw [heq]
        exact hrefl _
      · rw [heq]
        exact hrefl _
      · rw [heq]
        exact hexec env o w.store
    -- the one moment of the action itself, if the thread takes it
    have hhead : w.momentOf p a = [] ∨ ∃ m, w.momentOf p a = [m] ∧ m.found = w.store
        ∧ m.left M.exec = (w.act M a).store := by
      cases a with
      | spawn q job => exact Or.inl rfl
      | crash q => exact Or.inl rfl
      | perform q env =>
        by_cases hqp : q = p
        · subst hqp
          cases hq : w.threads q with
          | none => exact Or.inl (by simp [momentOf, hq])
          | some u =>
            cases hc : u.crashed with
            | true => exact Or.inl (by simp [momentOf, hq, hc])
            | false =>
              cases hprog : u.prog with
              | ret r => exact Or.inl (by simp [momentOf, hq, hc, hprog])
              | raise e => exact Or.inl (by simp [momentOf, hq, hc, hprog])
              | op o k =>
                exact Or.inr ⟨⟨o, w.store, env⟩, by simp [momentOf, hq, hc, hprog], rfl,
                  by simp [act, hq, hc, hprog, Moment.left]⟩
        · exact Or.inl (momentOf_of_ne hqp env)
    have hlater : ∀ m ∈ (w.act M a).moments M p as, R w.store m.found :=
      fun m hm => htrans _ _ _ hstep (hfound m hm)
    rw [moments]
    rcases hhead with hnil | ⟨m, hm, hat, hleft⟩
    · rw [hnil]
      exact ⟨hlater, hpairs⟩
    · rw [hm]
      refine ⟨fun m' hm' => ?_, List.pairwise_cons.mpr ⟨fun m' hm' => ?_, hpairs⟩⟩
      · rcases List.mem_cons.mp hm' with rfl | hm'
        · rw [hat]
          exact hrefl _
        · exact hlater m' hm'
      · rw [hleft]
        exact hfound m' hm'

/-- In the run of the actions `as` thread `p` comes to `x`, performs the moments `h` of it and ends
it in `r`. -/
def CarriesOut (M : Machine Job Op Res Exn Store Env Out Stage)
    (w : World Job Op Res Exn Store Env Out Stage) (as : List (Action Job Env)) (p : Nat)
    (x : Prog Op Res Exn α) (h : List (Moment Op Store Env)) (r : Except Exn α) : Prop :=
  ∃ t before y rest, (w.acts M as).threads p = some t ∧ w.moments M p as = before ++ h ++ rest
    ∧ (M.program t.job).Leads M.exec before y ∧ x.Starts y ∧ x.Passes M.exec h r

/-- The thread that the first action starts. -/
theorem CarriesOut.of_spawn {σ : Store} {job : Job} {as : List (Action Job Env)}
    {x : Prog Op Res Exn α} {y : Prog Op Res Exn Out} {before h rest : List (Moment Op Store Env)}
    {r : Except Exn α}
    (hsplit : (fresh σ).moments M p (.spawn p job :: as) = before ++ h ++ rest)
    (hleads : (M.program job).Leads M.exec before y) (hstarts : x.Starts y)
    (hpass : x.Passes M.exec h r) :
    CarriesOut M (fresh σ) (.spawn p job :: as) p x h r := by
  have hstart : ((fresh σ).act M (.spawn p job)).threads p
      = some ⟨job, M.program job, M.start job, false⟩ := by
    simp [act, fresh]
  obtain ⟨t, ht, hjob, -⟩ := leads_moments (M := M) hstart
  exact ⟨t, before, y, rest, ht, hsplit, by rw [hjob]; exact hleads, hstarts, hpass⟩

end World

/-- Every operation of every run is one of those its job's program abides by. The answers of a run
are given by `exec`, which is why the weaker `Abides` is enough. -/
theorem Reachable.abides {M : Machine Job Op Res Exn Store Env Out Stage}
    {R : Regime Job Op Store Env Stage} {σ₀ : Store} {S : Job → Op → Prop}
    (hS : ∀ job, (M.program job).Abides M.exec (S job) fun _ => True)
    {w : World Job Op Res Exn Store Env Out Stage} (h : Reachable M R (World.fresh σ₀) w) {p : Nat}
    {t : Thread Job Op Res Exn Out Stage} (ht : w.threads p = some t) :
    t.prog.Abides M.exec (S t.job) fun _ => True := by
  have hset : ∀ {v : World Job Op Res Exn Store Env Out Stage} {q : Nat}
      {u : Thread Job Op Res Exn Out Stage},
      (∀ p t, v.threads p = some t → t.prog.Abides M.exec (S t.job) fun _ => True) →
      u.prog.Abides M.exec (S u.job) (fun _ => True) →
      ∀ p t, Function.update v.threads q (some u) p = some t →
        t.prog.Abides M.exec (S t.job) fun _ => True := by
    intro v q u hv hu p t ht
    by_cases hp : p = q
    · rw [hp, Function.update_self] at ht
      cases ht
      exact hu
    · rw [Function.update_of_ne hp] at ht
      exact hv p t ht
  -- on the run: one thread at most is replaced in a step
  induction h generalizing p t with
  | refl => cases ht
  | @step w a _ _ ih =>
    have ih : ∀ p t, w.threads p = some t → t.prog.Abides M.exec (S t.job) fun _ => True :=
      fun p t ht => ih ht
    rcases w.act_cases (M := M) a with heq | ⟨q, job, -, -, heq⟩ | ⟨q, u, -, hu, heq⟩
      | ⟨q, env, u, o, k, -, hu, -, hprog, heq⟩
    · rw [heq] at ht
      exact ih p t ht
    · rw [heq] at ht
      exact hset ih (hS job) p t ht
    · rw [heq] at ht
      exact hset (u := { u with crashed := true }) ih (ih q u hu) p t ht
    · rw [heq] at ht
      have habides := ih q u hu
      rw [hprog] at habides
      exact hset (u := { u with prog := k (M.exec env o w.store).1
                                stage := M.next u.stage o (M.exec env o w.store).1 })
        ih (habides.2 env w.store) p t ht

end Concurrent
