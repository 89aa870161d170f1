import SmartDialer.Lib.Passage

/-!
# A second conduct for the same programs

A machine comes with one conduct. A proof about a few operations of a few programs often needs
a second, finer one: `Machine.under` puts a conduct in the place of the machine's own,
`Machine.both` lets every thread keep to the two side by side. What is known of the first carries
over (`Conforms.both`, `PreservesRunning.both`).

* `Follows.both`, `Conforms.both` and `PreservesRunning.both` put two conducts side by side.
* `Follows.transfer` and `Follows.performs` compare a conduct with another one and with a set of
  operations.
* `follows_of_performs` and its variants are for programs of which only the operations are known.
-/

namespace Concurrent

structure Conduct (Job Op : Type) (Res : Op → Type) (Exn Stage : Type) where
  idle : Stage
  start : Job → Stage
  Emits : Stage → Op → Prop
  next : Stage → (o : Op) → Except Exn (Res o) → Stage

variable {Job Op : Type} {Res : Op → Type} {Exn Store Env Out Stage Stage' α : Type}

namespace Machine

/-- The same programs under another conduct. -/
def under (M : Machine Job Op Res Exn Store Env Out Stage) (C : Conduct Job Op Res Exn Stage') :
    Machine Job Op Res Exn Store Env Out Stage' where
  exec := M.exec
  program := M.program
  idle := C.idle
  start := C.start
  Emits := C.Emits
  next := C.next

/-- The same programs under their own conduct and another one. -/
def both (M : Machine Job Op Res Exn Store Env Out Stage) (C : Conduct Job Op Res Exn Stage') :
    Machine Job Op Res Exn Store Env Out (Stage × Stage') where
  exec := M.exec
  program := M.program
  idle := (M.idle, C.idle)
  start := fun job => (M.start job, C.start job)
  Emits := fun s o => M.Emits s.1 o ∧ C.Emits s.2 o
  next := fun s o r => (M.next s.1 o r, C.next s.2 o r)

variable {M : Machine Job Op Res Exn Store Env Out Stage} {C : Conduct Job Op Res Exn Stage'}

theorem Follows.both {s : Stage} {s' : Stage'} {x : Prog Op Res Exn α}
    {Q : Stage → Except Exn α → Prop} {Q' : Stage' → Except Exn α → Prop} (h : M.Follows s x Q)
    (h' : (M.under C).Follows s' x Q') :
    (M.both C).Follows (s, s') x fun t r => Q t.1 r ∧ Q' t.2 r := by
  induction x generalizing s s' with
  | ret a => exact ⟨h, h'⟩
  | raise e => exact ⟨h, h'⟩
  | op o k ih => exact ⟨⟨h.1, h'.1⟩, fun r => ih r (h.2 r) (h'.2 r)⟩

theorem Conforms.both {Q : Job → Stage → Except Exn Out → Prop}
    {Q' : Job → Stage' → Except Exn Out → Prop} (h : M.Conforms Q) (h' : (M.under C).Conforms Q') :
    (M.both C).Conforms fun job t r => Q job t.1 r ∧ Q' job t.2 r :=
  fun job => (h job).both (h' job)

/-- A conduct that emits at least as much and has the same stages. -/
theorem Follows.transfer {Job' Out' : Type} {M' : Machine Job' Op Res Exn Store Env Out' Stage}
    (hemits : ∀ s o, M.Emits s o → M'.Emits s o) (hnext : ∀ s o r, M'.next s o r = M.next s o r)
    {s : Stage} {x : Prog Op Res Exn α} {Q : Stage → Except Exn α → Prop} (h : M.Follows s x Q) :
    M'.Follows s x Q := by
  induction x generalizing s with
  | ret a => exact h
  | raise e => exact h
  | op o k ih =>
    refine ⟨hemits s o h.1, fun r => ?_⟩
    rw [hnext]
    exact ih r (h.2 r)

/-- A conduct that emits only operations of `S`, as long as its stages stay in `J`. -/
theorem Follows.performs {J : Stage → Prop} {S : Op → Prop}
    (hJ : ∀ s o, J s → M.Emits s o → S o ∧ ∀ r, J (M.next s o r)) {s : Stage}
    {x : Prog Op Res Exn α} {Q : Stage → Except Exn α → Prop} (h : M.Follows s x Q) (hs : J s) :
    x.Performs S := by
  induction x generalizing s with
  | ret a => trivial
  | raise e => trivial
  | op o k ih =>
    obtain ⟨hS, hnext⟩ := hJ s o hs h.1
    exact ⟨hS, fun r => ih r (h.2 r) (hnext r)⟩

/-- Operations that a conduct emits at every stage of `J` and that do not lead out of `J`. -/
theorem follows_within_of_performs {J : Stage → Prop} {S : Op → Prop}
    (hS : ∀ s o, J s → S o → M.Emits s o ∧ ∀ r, J (M.next s o r)) {s : Stage} (hs : J s)
    {x : Prog Op Res Exn α} (h : x.Performs S) : M.Follows s x fun s' _ => J s' := by
  induction x generalizing s with
  | ret a => exact hs
  | raise e => exact hs
  | op o k ih =>
    obtain ⟨hemits, hnext⟩ := hS s o hs h.1
    exact ⟨hemits, fun r => ih r (hnext r) (h.2 r)⟩

/-- Operations that a conduct emits at every stage. -/
theorem follows_of_performs {S : Op → Prop} (hS : ∀ s o, S o → M.Emits s o) {s : Stage}
    {x : Prog Op Res Exn α} (h : x.Performs S) : M.Follows s x fun _ _ => True :=
  follows_within_of_performs (J := fun _ => True) (fun s o _ ho => ⟨hS s o ho, fun _ => trivial⟩)
    trivial h

/-- Operations that a conduct emits at a stage and that leave it as it is. -/
theorem follows_at_of_performs {S : Op → Prop} {s : Stage}
    (hS : ∀ o, S o → M.Emits s o ∧ ∀ r, M.next s o r = s) {x : Prog Op Res Exn α}
    (h : x.Performs S) : M.Follows s x fun s' _ => s' = s := by
  refine follows_within_of_performs (J := fun s' => s' = s) (fun s' o hs' ho => ?_) rfl h
  rw [hs']
  exact hS o ho

theorem fst_update (st : Nat → Stage × Stage') (p : Nat) (t : Stage × Stage') :
    (fun q => (Function.update st p t q).1) = Function.update (fun q => (st q).1) p t.1 := by
  funext q
  by_cases hq : q = p
  · rw [hq, Function.update_self, Function.update_self]
  · rw [Function.update_of_ne hq, Function.update_of_ne hq]

/-- What the first conduct preserves by itself. -/
theorem PreservesRunning.both {R : Regime Job Op Store Env Stage}
    {R' : Regime Job Op Store Env (Stage × Stage')}
    {I : Store → List (Entry Op Res Exn Env) → (Nat → Stage) → Prop} (h : M.PreservesRunning R I)
    (hadmits : ∀ job, R'.admits job → R.admits job)
    (hguard : ∀ σ st p o env, R'.guard σ st p o env → R.guard σ (fun q => (st q).1) p o env) :
    (M.both C).PreservesRunning R' fun σ tr st => I σ tr fun q => (st q).1 where
  spawn := fun p job hI hjob hidle => by
    rw [fst_update]
    exact h.spawn p job hI (hadmits job hjob) (congrArg Prod.fst hidle)
  op := fun p o env hI hemits hg => by
    rw [fst_update]
    exact h.op p o env hI hemits.1 (hguard _ _ p o env hg)
  drop := fun p hI => by
    rw [fst_update]
    exact h.drop p hI

end Machine

end Concurrent
