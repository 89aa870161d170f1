import SmartDialer.Lib.Conduct
import SmartDialer.Lib.Sequencing

/-!
# The history of a thread

The finest conduct: the stage of a thread is what it has performed and been answered so far.
`Machine.recording` is a machine with this conduct, and `Machine.emitting` puts a rule on what may be
performed after which history. Of a program that keeps to the rule whatever it is answered, the whole
trace does (`Reachable.audited`), and a thread that has ended has the history its program promises
(`Reachable.ended`).
-/

namespace Concurrent

variable {Job Op : Type} {Res : Op → Type} {Exn Store Env Out Stage α β : Type}

/-- An operation and its answer. -/
structure Happening (Op : Type) (Res : Op → Type) (Exn : Type) where
  op : Op
  resp : Except Exn (Res op)

abbrev History (Op : Type) (Res : Op → Type) (Exn : Type) := List (Happening Op Res Exn)

def Entry.happening (e : Entry Op Res Exn Env) : Happening Op Res Exn := ⟨e.op, e.resp⟩

/-- What thread `p` has done. -/
def historyOf (p : Nat) (tr : List (Entry Op Res Exn Env)) : History Op Res Exn :=
  (tr.filter fun e => e.pid = p).map Entry.happening

theorem historyOf_append (p : Nat) (tr tr' : List (Entry Op Res Exn Env)) :
    historyOf p (tr ++ tr') = historyOf p tr ++ historyOf p tr' := by
  unfold historyOf
  rw [List.filter_append, List.map_append]

theorem historyOf_own (e : Entry Op Res Exn Env) : historyOf e.pid [e] = [e.happening] := by
  simp [historyOf]

theorem historyOf_other {p : Nat} {e : Entry Op Res Exn Env} (hp : e.pid ≠ p) :
    historyOf p [e] = [] := by
  simp [historyOf, hp]

theorem mem_historyOf {p : Nat} {tr : List (Entry Op Res Exn Env)} {x : Happening Op Res Exn} :
    x ∈ historyOf p tr ↔ ∃ e ∈ tr, e.pid = p ∧ e.happening = x := by
  simp [historyOf, and_assoc]

namespace Machine

/-- Programs that may perform anything, with their history for a stage. -/
def recording (exec : Env → (o : Op) → Store → Except Exn (Res o) × Store)
    (program : Job → Prog Op Res Exn Out) :
    Machine Job Op Res Exn Store Env Out (History Op Res Exn) where
  exec := exec
  program := program
  idle := []
  start := fun _ => []
  Emits := fun _ _ => True
  next := fun h o r => h ++ [⟨o, r⟩]

/-- The same machine with a rule on what may be performed. -/
def emitting (M : Machine Job Op Res Exn Store Env Out Stage) (A : Stage → Op → Prop) :
    Machine Job Op Res Exn Store Env Out Stage :=
  { M with Emits := A }

variable {exec : Env → (o : Op) → Store → Except Exn (Res o) × Store}
  {program : Job → Prog Op Res Exn Out} {A : History Op Res Exn → Op → Prop}

/-- A conduct that emits everything says nothing. -/
theorem follows_freely {M : Machine Job Op Res Exn Store Env Out Stage}
    (hM : ∀ s o, M.Emits s o) (s : Stage) (x : Prog Op Res Exn α) :
    M.Follows s x fun _ _ => True := by
  induction x generalizing s with
  | ret a => trivial
  | raise e => trivial
  | op o k ih => exact ⟨hM s o, fun r => ih r _⟩

/-- What has happened stays in the history. -/
theorem Follows.grows {h : History Op Res Exn} {x : Prog Op Res Exn α}
    {Q : History Op Res Exn → Except Exn α → Prop}
    (hx : ((recording exec program).emitting A).Follows h x Q) :
    ((recording exec program).emitting A).Follows h x fun h' r => h <+: h' ∧ Q h' r := by
  induction x generalizing h with
  | ret a => exact ⟨List.prefix_refl h, hx⟩
  | raise e => exact ⟨List.prefix_refl h, hx⟩
  | op o k ih =>
    refine ⟨hx.1, fun r => (ih r (hx.2 r)).mono fun h' r' hgrown => ⟨?_, hgrown.2⟩⟩
    exact (List.prefix_append h [⟨o, r⟩]).trans hgrown.1

/-- What a program adds to the history. -/
theorem Follows.adds {S : Op → Prop} {h : History Op Res Exn} {x : Prog Op Res Exn α}
    {Q : History Op Res Exn → Except Exn α → Prop} (hS : x.Performs S)
    (hx : ((recording exec program).emitting A).Follows h x Q) :
    ((recording exec program).emitting A).Follows h x fun h' r =>
      (∃ added, h' = h ++ added ∧ ∀ y ∈ added, S y.op) ∧ Q h' r := by
  induction x generalizing h with
  | ret a => exact ⟨⟨[], (List.append_nil h).symm, fun y hy => absurd hy List.not_mem_nil⟩, hx⟩
  | raise e => exact ⟨⟨[], (List.append_nil h).symm, fun y hy => absurd hy List.not_mem_nil⟩, hx⟩
  | op o k ih =>
    refine ⟨hx.1, fun r => (ih r (hS.2 r) (hx.2 r)).mono fun h' r' hadded => ?_⟩
    obtain ⟨⟨added, rfl, hall⟩, hQ⟩ := hadded
    refine ⟨⟨⟨o, r⟩ :: added, List.append_assoc _ _ _, fun y hy => ?_⟩, hQ⟩
    rcases List.mem_cons.mp hy with rfl | hy
    · exact hS.1
    · exact hall y hy

/-- A reading of the history that the operations of `S` do not change. -/
theorem Follows.keeps {β : Type} (f : History Op Res Exn → β) {S : Op → Prop}
    (hf : ∀ h o r, S o → f (h ++ [⟨o, r⟩]) = f h) {h : History Op Res Exn} {x : Prog Op Res Exn α}
    {Q : History Op Res Exn → Except Exn α → Prop} (hS : x.Performs S)
    (hx : ((recording exec program).emitting A).Follows h x Q) :
    ((recording exec program).emitting A).Follows h x fun h' r => f h' = f h ∧ Q h' r := by
  induction x generalizing h with
  | ret a => exact ⟨rfl, hx⟩
  | raise e => exact ⟨rfl, hx⟩
  | op o k ih =>
    refine ⟨hx.1, fun r => (ih r (hS.2 r) (hx.2 r)).mono fun h' r' hkept => ⟨?_, hkept.2⟩⟩
    exact hkept.1.trans (hf h o r hS.1)

/-- Operations of a kind that the rule never forbids. -/
theorem follows_unruled {S : Op → Prop} (hA : ∀ h o, S o → A h o) {h : History Op Res Exn}
    {x : Prog Op Res Exn α} (hx : x.Performs S) :
    ((recording exec program).emitting A).Follows h x fun _ _ => True :=
  follows_of_performs (fun h o ho => hA h o ho) hx

/-- **A conduct of the smaller alphabet** tells what a lifted program does, as long as its stages
speak about the stages of the larger machine. -/
theorem Follows.lifted {Job' Op' : Type} {Res' : Op' → Type} {Store' Env' Out' Stage' : Type}
    {M : Machine Job Op Res Exn Store Env Out Stage}
    {M' : Machine Job' (Op ⊕ Op') (EitherRes Res Res') Exn Store' Env' Out' Stage'}
    {Rel : Stage → Stage' → Prop}
    (hRel : ∀ s s' o, Rel s s' → M.Emits s o → M'.Emits s' (.inl o)
      ∧ ∀ r, Rel (M.next s o r) (M'.next s' (.inl o) r))
    {s : Stage} {s' : Stage'} {x : Prog Op Res Exn α} {Q : Stage → Except Exn α → Prop}
    (hs : Rel s s') (hx : M.Follows s x Q) :
    M'.Follows s' x.lift fun t' r => ∃ t, Rel t t' ∧ Q t r := by
  induction x generalizing s s' with
  | ret a => exact ⟨s, hs, hx⟩
  | raise e => exact ⟨s, hs, hx⟩
  | op o k ih =>
    obtain ⟨hemits, hnext⟩ := hRel s s' o hs hx.1
    exact ⟨hemits, fun r => ih r (hnext r) (hx.2 r)⟩

theorem Follows.andThen {M : Machine Job Op Res Exn Store Env Out Stage} {s : Stage}
    {x : Prog Op Res Exn α} {k : Except Exn α → Prog Op Res Exn β}
    (hx : M.Follows s x fun _ _ => True) (hk : ∀ s r, M.Follows s (k r) fun _ _ => True) :
    M.Follows s (x.andThen k) fun _ _ => True := by
  induction x generalizing s with
  | ret a => exact hk s _
  | raise e => exact hk s _
  | op o c ih => exact ⟨hx.1, fun r => ih r (hx.2 r)⟩

theorem Follows.of_bind {M : Machine Job Op Res Exn Store Env Out Stage} {s : Stage}
    {x : Prog Op Res Exn α} {f : α → Prog Op Res Exn β}
    (h : M.Follows s (x.bind f) fun _ _ => True) : M.Follows s x fun _ _ => True := by
  induction x generalizing s with
  | ret a => trivial
  | raise e => trivial
  | op o k ih => exact ⟨h.1, fun r => ih r (h.2 r)⟩

end Machine

/-! ## Rules for the threads of one kind

A machine runs programs of many kinds, and a rule often concerns one of them. The first operation
tells the kinds apart, so such a rule begins with "if the history begins so". -/

/-- The operation that a program begins with. -/
def Prog.first? : Prog Op Res Exn α → Option Op
  | .op o _ => some o
  | _ => none

/-- The history begins with an operation of `L`. -/
def History.Led (L : Op → Prop) (h : History Op Res Exn) : Prop := ∃ x ∈ h.head?, L x.op

theorem History.Led.append {L : Op → Prop} {h : History Op Res Exn} (hled : h.Led L)
    (h' : History Op Res Exn) : (h ++ h').Led L := by
  obtain ⟨x, hx, hL⟩ := hled
  refine ⟨x, ?_, hL⟩
  cases h with
  | nil => cases hx
  | cons y h => exact hx

/-- Who has done something before began as he began. -/
theorem History.Led.of_append {L : Op → Prop} {h h' : History Op Res Exn} (hne : h ≠ [])
    (hled : History.Led L (h ++ h')) : h.Led L := by
  cases h with
  | nil => exact absurd rfl hne
  | cons x h => exact hled

theorem History.led_cons {L : Op → Prop} {x : Happening Op Res Exn} {h : History Op Res Exn} :
    History.Led L (x :: h) ↔ L x.op :=
  ⟨fun ⟨_, hy, hL⟩ => Option.some.inj hy ▸ hL, fun hL => ⟨x, rfl, hL⟩⟩

/-- **A rule for those that begin in some way** says nothing about a program that does not. -/
theorem Machine.follows_unled {exec : Env → (o : Op) → Store → Except Exn (Res o) × Store}
    {program : Job → Prog Op Res Exn Out} {L : Op → Prop} {B : History Op Res Exn → Op → Prop}
    {x : Prog Op Res Exn α} (hfirst : ∀ o ∈ x.first?, ¬ L o) :
    ((recording exec program).emitting fun h o => h.Led L → B h o).Follows [] x
      fun _ _ => True := by
  cases x with
  | ret a => trivial
  | raise e => trivial
  | op o k =>
    refine ⟨fun hled => absurd hled.choose_spec.1 (Option.not_mem_none _), fun r => ?_⟩
    -- from the first operation on, the history has another head
    have hafter : ∀ (x : Happening Op Res Exn), ¬ L x.op → ∀ (y : Prog Op Res Exn α)
        (h : History Op Res Exn),
        ((recording exec program).emitting fun h o => h.Led L → B h o).Follows (x :: h) y
          fun _ _ => True := by
      intro x hx y
      induction y with
      | ret a => exact fun _ => trivial
      | raise e => exact fun _ => trivial
      | op o k ih =>
        refine fun h => ⟨fun hled => absurd (History.led_cons.mp hled) hx, fun r => ?_⟩
        exact ih r (h ++ [⟨o, r⟩])
    exact hafter ⟨o, r⟩ (hfirst o rfl) (k r) []

/-- **A composed program keeps to a rule** that its jobs keep to, whatever they come after, and that
does not forbid the single operations. -/
theorem Composed.follows {Job' Op' : Type} {Res' : Op' → Type} {Store' Env' Out' Stage' : Type}
    {M : Machine Job Op Res Exn Store Env Out Stage}
    {M' : Machine Job' (Op ⊕ Op') (EitherRes Res Res') Exn Store' Env' Out' Stage'}
    {P : Repertoire Job Op} {x : Prog (Op ⊕ Op') (EitherRes Res Res') Exn α}
    (hmore : ∀ s o, M'.Emits s (.inr o)) (halone : ∀ s o, P.reads o ∨ P.deeds o → M'.Emits s (.inl o))
    (hjobs : ∀ job, P.jobs job → ∀ s, M'.Follows s (M.program job).lift fun _ _ => True)
    (hx : Composed M P x) (s : Stage') : M'.Follows s x fun _ _ => True := by
  induction hx generalizing s with
  | ret a => trivial
  | raise e => trivial
  | more o _ ih => exact ⟨hmore s o, fun r => ih r _⟩
  | alone o ho _ ih => exact ⟨halone s o ho, fun r => ih r _⟩
  | run job hjob y f hy _ ih =>
    have hself := hjobs job hjob s
    rw [hy, Prog.lift_bind] at hself
    exact Machine.Follows.andThen (Machine.Follows.of_bind hself) fun s r => ih r s

section Runs

variable {exec : Env → (o : Op) → Store → Except Exn (Res o) × Store}
  {program : Job → Prog Op Res Exn Out} {R : Regime Job Op Store Env (History Op Res Exn)}
  {A : History Op Res Exn → Op → Prop}

/-- A rule changes nothing about the runs. -/
theorem Reachable.emitting {M : Machine Job Op Res Exn Store Env Out Stage}
    {R : Regime Job Op Store Env Stage} {w₀ w : World Job Op Res Exn Store Env Out Stage}
    (h : Reachable M R w₀ w) (A : Stage → Op → Prop) : Reachable (M.emitting A) R w₀ w := by
  induction h with
  | refl => exact .refl
  | step a _ hok ih => exact ih.step a hok

variable {σ₀ : Store} {w : World Job Op Res Exn Store Env Out (History Op Res Exn)}

/-- **The stage of a thread is its history.** Both are defined along the run, the stage by the
conduct and the history by the trace, and they grow by the same operations. -/
theorem Reachable.history (h : Reachable (Machine.recording exec program) R (World.fresh σ₀) w) :
    ∀ p, w.lastStage (Machine.recording exec program) p = historyOf p w.trace := by
  have hconforms : (Machine.recording exec program).Conforms fun _ _ _ => True :=
    fun job => Machine.follows_freely (fun _ _ => trivial) _ _
  refine Reachable.invariant (I := fun _ tr st => ∀ p, st p = historyOf p tr) hconforms ?_
    (World.Obeys.fresh _ _) (fun _ => rfl) h
  constructor
  · -- whoever is started has done nothing
    intro σ tr st p job hI _ hnew q
    by_cases hq : q = p
    · rw [hq, Function.update_self]
      have hnone : tr.filter (fun e => e.pid = p) = [] :=
        List.filter_eq_nil_iff.mpr fun e he => by simpa using hnew e he
      show [] = historyOf p tr
      rw [historyOf, hnone, List.map_nil]
    · rw [Function.update_of_ne hq]
      exact hI q
  -- one more entry: the history of its thread grows by it, and no other does
  · intro σ tr st live p o env hI _ _ _ q
    rw [historyOf_append]
    by_cases hq : q = p
    · rw [hq, Function.update_self]
      show st p ++ [⟨o, _⟩] = _
      rw [hI p]
      exact congrArg _ (historyOf_own (⟨p, o, env, _⟩ : Entry Op Res Exn Env)).symm
    · rw [Function.update_of_ne hq, hI q,
        historyOf_other (e := ⟨p, o, env, _⟩) fun hp => hq hp.symm, List.append_nil]

/-- A thread has its whole program before it, or has begun as its program does. Here the induction
is on the run, since the program of a thread is no part of what `Machine.Preserves` speaks of. -/
theorem Reachable.begun (h : Reachable (Machine.recording exec program) R (World.fresh σ₀) w)
    {p : Nat} {t : Thread Job Op Res Exn Out (History Op Res Exn)} (ht : w.threads p = some t) :
    t.stage = [] ∧ t.prog = program t.job
      ∨ t.stage.Led fun o => (program t.job).first? = some o := by
  induction h generalizing t with
  | refl => cases ht
  | @step w a hreach hok ih =>
    rcases w.act_cases (M := Machine.recording exec program) a with heq | ⟨q, job, -, -, heq⟩
      | ⟨q, u, -, hu, heq⟩ | ⟨q, env, u, o, k, -, hu, -, hprog, heq⟩
    · rw [heq] at ht
      exact ih ht
    -- only the thread that is set may have changed
    all_goals
      rw [heq] at ht
      dsimp only at ht
      rw [Function.update_apply] at ht
      split at ht
      on_goal 2 => exact ih ht
      cases ht
    · exact Or.inl ⟨rfl, rfl⟩
    · rename_i hq
      have hbegun := ih ((congrArg w.threads hq).trans hu)
      exact hbegun
    · rename_i hq
      refine Or.inr ?_
      -- it performs the first operation of its program, or had begun before
      rcases ih ((congrArg w.threads hq).trans hu) with ⟨hstage, hwhole⟩ | hled
      · rw [hstage]
        refine History.led_cons.mpr ?_
        rw [← hwhole, hprog]
        rfl
      · exact hled.append _

/-- A list that has grown by one is split at its last element or before it. -/
theorem split_of_snoc {α : Type} {l before after : List α} {last e : α}
    (h : l ++ [last] = before ++ e :: after) :
    (after = [] ∧ l = before ∧ last = e)
      ∨ ∃ after', after = after' ++ [last] ∧ l = before ++ e :: after' := by
  rcases List.eq_nil_or_concat after with rfl | ⟨after', last', rfl⟩
  · obtain ⟨hbefore, hlast⟩ := List.append_inj' h rfl
    exact Or.inl ⟨rfl, hbefore, List.singleton_inj.mp hlast⟩
  · rw [List.concat_eq_append, ← List.cons_append, ← List.append_assoc] at h
    obtain ⟨hbefore, hlast⟩ := List.append_inj' h rfl
    rw [List.concat_eq_append, List.singleton_inj.mp hlast]
    exact Or.inr ⟨after', rfl, hbefore⟩

/-- **Every operation keeps to the rule**, given the history its thread had when it performed it.
The rule is checked once per program, against every answer; the run then only has to know that the
stage of a thread is its history. -/
theorem Reachable.audited {Q : Job → History Op Res Exn → Except Exn Out → Prop}
    (hA : ((Machine.recording exec program).emitting A).Conforms Q)
    (h : Reachable (Machine.recording exec program) R (World.fresh σ₀) w)
    {before after : List (Entry Op Res Exn Env)} {e : Entry Op Res Exn Env}
    (he : w.trace = before ++ e :: after) : A (historyOf e.pid before) e.op := by
  induction h generalizing before after with
  | refl => simp [World.fresh] at he
  | @step w a hreach hok ih =>
    rcases w.act_cases (M := Machine.recording exec program) a with heq | ⟨p, job, -, -, heq⟩
      | ⟨p, t, -, ht, heq⟩ | ⟨p, env, t, o, k, -, ht, -, hprog, heq⟩
    · rw [heq] at he
      exact ih he
    · rw [heq] at he
      exact ih he
    · rw [heq] at he
      exact ih he
    · rw [heq] at he
      rcases split_of_snoc he with ⟨-, hbefore, rfl⟩ | ⟨after', -, hsplit⟩
      · -- the last operation
        have hobeys := (hreach.emitting A).obeys hA (World.Obeys.fresh _ _)
        have hfollows := hobeys.follows p t ht
        rw [hprog] at hfollows
        have hstage : t.stage = historyOf p w.trace :=
          (World.lastStage_eq ht).symm.trans (hreach.history p)
        rw [← hbefore, ← hstage]
        exact hfollows.1
      -- an earlier operation, which was audited when it was the last
      · exact ih hsplit

/-- **What is known of a thread that has returned.** -/
theorem Reachable.ended {Q : Job → History Op Res Exn → Except Exn Out → Prop}
    (hA : ((Machine.recording exec program).emitting A).Conforms Q)
    (h : Reachable (Machine.recording exec program) R (World.fresh σ₀) w) {p : Nat}
    {t : Thread Job Op Res Exn Out (History Op Res Exn)} (ht : w.threads p = some t) {a : Out}
    (ha : t.prog = .ret a) : Q t.job (historyOf p w.trace) (.ok a) := by
  have hobeys := (h.emitting A).obeys hA (World.Obeys.fresh _ _)
  have hfollows := hobeys.follows p t ht
  rw [ha] at hfollows
  rw [← h.history p, World.lastStage_eq ht]
  exact hfollows

/-- **Every answer was given by a store of the run.** -/
theorem Reachable.answered {M : Machine Job Op Res Exn Store Env Out Stage}
    {R : Regime Job Op Store Env Stage} {w : World Job Op Res Exn Store Env Out Stage}
    (h : Reachable M R (World.fresh σ₀) w) {e : Entry Op Res Exn Env} (he : e ∈ w.trace) :
    ∃ v, Reachable M R (World.fresh σ₀) v ∧ e.resp = (M.exec e.env e.op v.store).1 := by
  induction h with
  | refl => simp [World.fresh] at he
  | @step w a hreach hok ih =>
    rcases w.act_cases (M := M) a with heq | ⟨p, job, -, -, heq⟩ | ⟨p, t, -, -, heq⟩
      | ⟨p, env, t, o, k, -, -, -, -, heq⟩
    · rw [heq] at he
      exact ih he
    · rw [heq] at he
      exact ih he
    · rw [heq] at he
      exact ih he
    · rw [heq] at he
      rcases List.mem_append.mp he with he | he
      · exact ih he
      · cases List.mem_singleton.mp he
        exact ⟨w, hreach, rfl⟩

/-- An answer, and what has become of the store since, along whatever every operation respects. -/
theorem Reachable.answered_since {M : Machine Job Op Res Exn Store Env Out Stage}
    {R : Regime Job Op Store Env Stage} {w : World Job Op Res Exn Store Env Out Stage}
    {T : Store → Store → Prop} (hrefl : ∀ σ, T σ σ)
    (hstep : ∀ {σ σ'} env o, T σ σ' → T σ (M.exec env o σ').2)
    (h : Reachable M R (World.fresh σ₀) w) {e : Entry Op Res Exn Env} (he : e ∈ w.trace) :
    ∃ σ, e.resp = (M.exec e.env e.op σ).1 ∧ T σ w.store := by
  induction h with
  | refl => simp [World.fresh] at he
  | @step w a hreach hok ih =>
    rcases w.act_cases (M := M) a with heq | ⟨p, job, -, -, heq⟩ | ⟨p, t, -, -, heq⟩
      | ⟨p, env, t, o, k, -, -, -, -, heq⟩
    · rw [heq] at he ⊢
      exact ih he
    · rw [heq] at he ⊢
      exact ih he
    · rw [heq] at he ⊢
      exact ih he
    · rw [heq] at he ⊢
      rcases List.mem_append.mp he with he | he
      · obtain ⟨σ, hresp, hT⟩ := ih he
        exact ⟨σ, hresp, hstep env o hT⟩
      · cases List.mem_singleton.mp he
        exact ⟨w.store, rfl, hstep env o (hrefl _)⟩

end Runs

end Concurrent
