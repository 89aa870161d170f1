import SmartDialer.Calls.Budget
import SmartDialer.System.Effects

/-!
# Claim, then compensate

`reserve_pair` takes two documents with two writes. Among other workers, and however the claim of
the borrower ends, it returns with both of them or with neither: the agent it has claimed stays as
the claim left him, and the compensating write finds him so.

The statement is about one execution of `reserve_pair` among the actions of others, given by its
moments: the operation, the store it finds, and what strikes it. The execution is taken apart along
`bind` and `catching`, and between two of its moments the others may do anything but change the
claimed agent.

* `passes_claimAgent`, `passes_claimBorrower`: what the two claims come to.
* `others_untouched`: documents in somebody else's hands, at every moment.
* `passes_withAgent`: a borrower is won, or the agent is released.
* `reservePair_allOrNothing`: both or none.
-/

namespace SmartDialer

open DocStore Concurrent

/-- An agent in somebody else's hands. An `AVAILABLE` agent is in nobody's. -/
def Agent.HeldByAnother (workerId : WorkerId) (g : Agent) : Prop :=
  g.state ≠ .AVAILABLE ∧ ∃ w ∈ g.reservedBy, w ≠ workerId

/-- A borrower in somebody else's hands. -/
def Borrower.HeldByAnother (workerId : WorkerId) (b : Borrower) : Prop :=
  b.status ≠ .PENDING ∧ ∃ w ∈ b.reservedBy, w ≠ workerId

namespace ReservationService

/-! ## What an execution is assumed to meet, and what it comes to

The assumptions are the claim's: a database error means that nothing was written, the claim of a
borrower ends in an answer or in such an error, the compensating release goes through, and nobody
else touches the agent meanwhile. -/

/-- The moment wins agent `a`: a reservation for the worker, answered with the agent. -/
def WinsAgent (workerId : WorkerId) (a : DocId) (m : PyMoment) : Prop :=
  ∃ campaignId ttl agent, m.op = .tryReserveAgent campaignId a workerId ttl
    ∧ (exec m.env (.tryReserveAgent campaignId a workerId ttl) m.found).1 = .ok (some agent)

/-- The queries of the claim of a borrower. -/
def claimsBorrower : Op → Bool
  | .findClaimableBorrowers .. | .tryReserveBorrower .. => true
  | _ => false

/-- The compensating write. -/
def compensates : Op → Bool
  | .releaseAgent .. => true
  | _ => false

/-- Each moment after a claim finds the claimed agent as the moment before it left him. -/
def Undisturbed (workerId : WorkerId) (h : List PyMoment) : Prop :=
  ∀ before m m' after, h = before ++ m :: m' :: after → ∀ a,
    (∃ won ∈ before ++ [m], WinsAgent workerId a won) →
    m'.found.agents.get? a = (m.left exec).agents.get? a

/-- What an execution of `reserve_pair` may count on. `clean`: what raises has written nothing.
`outcome`: while the borrower is claimed only the database fails. `released`: the compensating write
is not struck. `alone`: the claimed agent is left alone. -/
structure Compensable (workerId : WorkerId) (h : List PyMoment) : Prop where
  clean : ∀ m ∈ h, ∀ f, m.env.strikes m.op = some f → f.applied = false
  outcome : ∀ m ∈ h, claimsBorrower m.op = true → ∀ f, m.env.strikes m.op = some f →
    f.exn.isPyMongoError = true
  released : ∀ m ∈ h, compensates m.op = true → m.env.strikes m.op = none
  alone : Undisturbed workerId h

/-- Agent and borrower of the pair are reserved for the worker. -/
def HoldsPair (workerId : WorkerId) (pair : ReservationPair) (σ : Store) : Prop :=
  (∃ g, σ.agents.get? pair.agent.id = some g ∧ g.state = .RESERVED
    ∧ g.reservedBy = some workerId)
  ∧ ∃ b, σ.borrowers.get? pair.borrower.id = some b ∧ b.status = .RESERVED
    ∧ b.reservedBy = some workerId

/-- The agent is free for everybody. -/
def GivenBack (a : DocId) (σ : Store) : Prop :=
  ∃ g, σ.agents.get? a = some g ∧ g.state = .AVAILABLE ∧ g.toLeaseFields = clearedLeaseFields
    ∧ g.currentCallId = none

/-- The error was raised by one of the operations. -/
def Struck (h : List PyMoment) (e : Exn) : Prop :=
  ∃ m ∈ h, ∃ f, m.env.strikes m.op = some f ∧ f.exn = e

/-- Both documents or none: `h` are the moments of the execution and `r` is its result. -/
structure AllOrNothing (workerId : WorkerId) (h : List PyMoment)
    (r : Except Exn (Option ReservationPair)) : Prop where
  both : ∀ pair, r = .ok (some pair) →
    ∃ last, h.getLast? = some last ∧ HoldsPair workerId pair (last.left exec)
  neither : (∀ pair, r ≠ .ok (some pair)) →
    (∀ a, ∀ won ∈ h, WinsAgent workerId a won →
      ∃ last, h.getLast? = some last ∧ GivenBack a (last.left exec))
    ∧ ∀ m ∈ h, (m.left exec).borrowers = m.found.borrowers
  reraised : ∀ e, r = .error e → Struck h e
  others : ∀ m ∈ h,
    (∀ a g, m.found.agents.get? a = some g → g.HeldByAnother workerId →
      (m.left exec).agents.get? a = some g)
    ∧ ∀ b g, m.found.borrowers.get? b = some g → g.HeldByAnother workerId →
      (m.left exec).borrowers.get? b = some g

variable {cfg : Config} {campaignId : DocId} {workerId : WorkerId} {h : List PyMoment}

/-! ## The two claims

Each claim is a loop over candidates and ends with the attempt that wins, or wins nobody. `Idle` and
`BorrowersKept` are what the lost attempts have in common. -/

/-- No moment wins an agent. -/
def Idle (workerId : WorkerId) (h : List PyMoment) : Prop :=
  ∀ m ∈ h, ∀ a, ¬ WinsAgent workerId a m

/-- The operations that can win an agent. -/
def reservesAgent : Op → Bool
  | .tryReserveAgent .. => true
  | _ => false

theorem idle_nil : Idle workerId [] := fun m hm => by cases hm

theorem idle_append {h' : List PyMoment} (hh : Idle workerId h) (hh' : Idle workerId h') :
    Idle workerId (h ++ h') := by
  intro m hm
  rcases List.mem_append.mp hm with hm | hm
  · exact hh m hm
  · exact hh' m hm

theorem idle_single {m : PyMoment} (hm : ∀ a, ¬ WinsAgent workerId a m) : Idle workerId [m] := by
  intro m' hm'
  cases List.mem_singleton.mp hm'
  exact hm

theorem idle_of_op (hops : ∀ m ∈ h, reservesAgent m.op = false) : Idle workerId h := by
  rintro m hm a ⟨c, ttl, g, hop, -⟩
  have hnone := hops m hm
  rw [hop] at hnone
  cases hnone

theorem Struck.mono {h' : List PyMoment} {e : Exn} (he : Struck h e) (hsub : ∀ m ∈ h, m ∈ h') :
    Struck h' e := by
  obtain ⟨m, hm, hf⟩ := he
  exact ⟨m, hsub m hm, hf⟩

/-- The loop over the candidates: it ends with the moment that wins an agent, and has won nobody
before, or it wins nobody. -/
theorem passes_claimAgentFrom {candidates : List Agent} {r : Except Exn (Option Agent)}
    (hpass : (claimAgentFrom cfg campaignId workerId candidates).Passes exec h r) :
    (∃ g h₁ m, r = .ok (some g) ∧ h = h₁ ++ [m] ∧ Idle workerId h₁ ∧ WinsAgent workerId g.id m
      ∧ (∀ a, WinsAgent workerId a m → a = g.id)
      ∧ (m.left exec).agents.get? g.id = some g ∧ g.state = .RESERVED
      ∧ g.reservedBy = some workerId)
    ∨ Idle workerId h ∧ (r = .ok none ∨ ∃ e, r = .error e ∧ Struck h e) := by
  -- over the candidates: all but the last attempt win nobody
  induction candidates generalizing h with
  | nil =>
    obtain ⟨rfl, rfl⟩ := (Prog.passes_ret _ _).mp hpass
    exact Or.inr ⟨idle_nil, Or.inl rfl⟩
  | cons candidate candidates ih =>
    obtain ⟨σ, env, h', rfl, ⟨hs, a, ha, hrest⟩ | ⟨f, hs, rfl, rfl⟩⟩ :=
      CallAllocator.passes_call_bind rfl hpass
    · have hanswer := CallAllocator.exec_of_unstruck hs σ
      rw [← hanswer] at ha
      cases a with
      | some g =>
        obtain ⟨rfl, rfl⟩ := (Prog.passes_ret _ _).mp hrest
        obtain ⟨hid, hstate, hworker, hget, -⟩ := reserveAgent_ok ha
        refine Or.inl ⟨g, [], _, rfl, rfl, idle_nil, ⟨campaignId,
          cfg.settings.RESERVATION_TTL_SECONDS, g, ?_, ?_⟩, ?_, ?_, hstate, hworker⟩
        · rw [hid]
        · rw [hid]
          exact ha
        · rintro a ⟨c, ttl, g', hop, -⟩
          cases hop
          exact hid.symm
        · rw [hid]
          exact hget
      | none =>
        have hlost : Idle workerId [(⟨.tryReserveAgent campaignId candidate.id workerId
            cfg.settings.RESERVATION_TTL_SECONDS, σ, env⟩ : PyMoment)] := by
          refine idle_single ?_
          rintro a ⟨c, ttl, g, hop, hwon⟩
          cases hop
          cases ha.symm.trans hwon
        -- this candidate was lost, and the rest of the loop decides
        rcases ih hrest with ⟨g, h₁, m, hr, rfl, hidle, hwin⟩ | ⟨hidle, hr⟩
        · exact Or.inl ⟨g, _ :: h₁, m, hr, rfl, idle_append hlost hidle, hwin⟩
        · refine Or.inr ⟨idle_append hlost hidle, hr.imp_right fun ⟨e, he, hstruck⟩ =>
            ⟨e, he, hstruck.mono fun m hm => List.mem_cons_of_mem _ hm⟩⟩
    · refine Or.inr ⟨idle_single ?_, Or.inr ⟨_, rfl, _, List.mem_cons_self, f, hs, rfl⟩⟩
      rintro a ⟨c, ttl, g, hop, hwon⟩
      cases hop
      unfold exec at hwon
      rw [hs] at hwon
      cases hwon

/-- **The claim of an agent** ends with the moment that wins one, or wins none. -/
theorem passes_claimAgent {r : Except Exn (Option Agent)}
    (hpass : (claimAgent cfg campaignId workerId).Passes exec h r) :
    (∃ g h₁ m, r = .ok (some g) ∧ h = h₁ ++ [m] ∧ Idle workerId h₁ ∧ WinsAgent workerId g.id m
      ∧ (∀ a, WinsAgent workerId a m → a = g.id)
      ∧ (m.left exec).agents.get? g.id = some g ∧ g.state = .RESERVED
      ∧ g.reservedBy = some workerId)
    ∨ Idle workerId h ∧ (r = .ok none ∨ ∃ e, r = .error e ∧ Struck h e) := by
  unfold claimAgent findClaimableAgents at hpass
  rw [if_neg (by decide)] at hpass
  obtain ⟨σ, env, h', rfl, ⟨-, candidates, -, hrest⟩ | ⟨f, hs, rfl, rfl⟩⟩ :=
    CallAllocator.passes_call_bind rfl hpass
  · have hquery : Idle workerId [(⟨.findClaimableAgents campaignId (candidateWindow 1), σ, env⟩ :
        PyMoment)] := idle_of_op fun m hm => by
      cases List.mem_singleton.mp hm
      rfl
    rcases passes_claimAgentFrom hrest with ⟨g, h₁, m, hr, rfl, hidle, hwin⟩ | ⟨hidle, hr⟩
    · exact Or.inl ⟨g, _ :: h₁, m, hr, rfl, idle_append hquery hidle, hwin⟩
    · exact Or.inr ⟨idle_append hquery hidle, hr.imp_right fun ⟨e, he, hstruck⟩ =>
        ⟨e, he, hstruck.mono fun m hm => List.mem_cons_of_mem _ hm⟩⟩
  · refine Or.inr ⟨idle_of_op fun m hm => ?_, Or.inr ⟨_, rfl, _, List.mem_cons_self, f, hs, rfl⟩⟩
    cases List.mem_singleton.mp hm
    rfl

/-- No borrower is touched. -/
def BorrowersKept (h : List PyMoment) : Prop := ∀ m ∈ h, (m.left exec).borrowers = m.found.borrowers

theorem borrowersKept_of_performs {α : Type} {x : Py α} {r : Except Exn α}
    (hx : x.Performs fun o => o.writesBorrowers = false) (hpass : x.Passes exec h r) :
    BorrowersKept h :=
  fun m hm => exec_borrowers_eq (hx.of_passes hpass m hm) m.env m.found

theorem borrowersKept_append {h' : List PyMoment} (hh : BorrowersKept h) (hh' : BorrowersKept h') :
    BorrowersKept (h ++ h') := by
  intro m hm
  rcases List.mem_append.mp hm with hm | hm
  · exact hh m hm
  · exact hh' m hm

/-- A borrower that is lost to another worker stays as he is. -/
theorem tryReserveBorrower_lost {c b : DocId} {ttl : Int} {env : Env} {σ : Store}
    (hlost : (apply env (.tryReserveBorrower c b workerId ttl) σ).1 = .ok none) :
    (apply env (.tryReserveBorrower c b workerId ttl) σ).2.borrowers = σ.borrowers := by
  rcases Collection.findOneAndUpdate_cases σ.borrowers b
      (fun d => d.campaignId = c ∧ d.status = .PENDING ∧ d.nextEligibleAt ≤ env.now)
      (BorrowerRepo.reserveUpdate env.now workerId ttl) (fun _ => rfl)
    with ⟨g, -, -, hans, -, -⟩ | ⟨-, -, hsame⟩
  · cases (Except.ok.inj hlost).symm.trans hans
  · exact hsame

/-- The loop over the borrowers. An attempt that is struck has written nothing, by `clean`. Won, the
borrower is reserved for the worker at the last moment of the passage; otherwise no borrower is
changed at all. -/
theorem passes_claimBorrowerFrom {candidates : List Borrower} {r : Except Exn (Option Borrower)}
    (hclean : ∀ m ∈ h, ∀ f, m.env.strikes m.op = some f → f.applied = false)
    (hpass : (claimBorrowerFrom cfg campaignId workerId candidates).Passes exec h r) :
    (∃ b h₁ m, r = .ok (some b) ∧ h = h₁ ++ [m]
      ∧ (m.left exec).borrowers.get? b.id = some b ∧ b.status = .RESERVED
      ∧ b.reservedBy = some workerId)
    ∨ BorrowersKept h ∧ (r = .ok none ∨ ∃ e, r = .error e ∧ Struck h e) := by
  induction candidates generalizing h with
  | nil =>
    obtain ⟨rfl, rfl⟩ := (Prog.passes_ret _ _).mp hpass
    exact Or.inr ⟨fun m hm => (by cases hm), Or.inl rfl⟩
  | cons candidate candidates ih =>
    obtain ⟨σ, env, h', rfl, ⟨hs, a, ha, hrest⟩ | ⟨f, hs, rfl, rfl⟩⟩ :=
      CallAllocator.passes_call_bind rfl hpass
    · cases a with
      | some b =>
        obtain ⟨rfl, rfl⟩ := (Prog.passes_ret _ _).mp hrest
        rw [← CallAllocator.exec_of_unstruck hs σ] at ha
        obtain ⟨hid, hstatus, hworker, hget, -⟩ := reserveBorrower_ok ha
        refine Or.inl ⟨b, [], _, rfl, rfl, ?_, hstatus, hworker⟩
        rw [hid]
        exact hget
      | none =>
        have hlost : BorrowersKept [(⟨.tryReserveBorrower campaignId candidate.id workerId
            cfg.settings.RESERVATION_TTL_SECONDS, σ, env⟩ : PyMoment)] := by
          intro m hm
          cases List.mem_singleton.mp hm
          unfold Moment.left
          rw [CallAllocator.exec_of_unstruck hs σ]
          exact tryReserveBorrower_lost ha
        have ih := ih (fun m hm => hclean m (List.mem_cons_of_mem _ hm)) hrest
        rcases ih with ⟨b, h₁, m, hr, rfl, hwin⟩ | ⟨hkept, hr⟩
        · exact Or.inl ⟨b, _ :: h₁, m, hr, rfl, hwin⟩
        · exact Or.inr ⟨borrowersKept_append hlost hkept, hr.imp_right fun ⟨e, he, hstruck⟩ =>
            ⟨e, he, hstruck.mono fun m hm => List.mem_cons_of_mem _ hm⟩⟩
    · refine Or.inr ⟨fun m hm => ?_, Or.inr ⟨_, rfl, _, List.mem_cons_self, f, hs, rfl⟩⟩
      -- a claim that raises has had no effect
      cases List.mem_singleton.mp hm
      have hnot := hclean _ List.mem_cons_self f hs
      refine congrArg Store.borrowers (exec_of_not_lands ?_ σ)
      unfold Env.lands
      rw [hs]
      exact hnot

theorem passes_claimBorrower {r : Except Exn (Option Borrower)}
    (hclean : ∀ m ∈ h, ∀ f, m.env.strikes m.op = some f → f.applied = false)
    (hpass : (claimBorrower cfg campaignId workerId).Passes exec h r) :
    (∃ b h₁ m, r = .ok (some b) ∧ h = h₁ ++ [m]
      ∧ (m.left exec).borrowers.get? b.id = some b ∧ b.status = .RESERVED
      ∧ b.reservedBy = some workerId)
    ∨ BorrowersKept h ∧ (r = .ok none ∨ ∃ e, r = .error e ∧ Struck h e) := by
  unfold claimBorrower findClaimableBorrowers at hpass
  rw [if_neg (by decide)] at hpass
  have hquery : ∀ σ env, BorrowersKept [(⟨.findClaimableBorrowers campaignId (candidateWindow 1), σ,
      env⟩ : PyMoment)] := by
    intro σ env m hm
    cases List.mem_singleton.mp hm
    exact exec_borrowers_eq rfl env σ
  obtain ⟨σ, env, h', rfl, ⟨-, candidates, -, hrest⟩ | ⟨f, hs, rfl, rfl⟩⟩ :=
    CallAllocator.passes_call_bind rfl hpass
  · rcases passes_claimBorrowerFrom (fun m hm => hclean m (List.mem_cons_of_mem _ hm)) hrest
      with ⟨b, h₁, m, hr, rfl, hwin⟩ | ⟨hkept, hr⟩
    · exact Or.inl ⟨b, _ :: h₁, m, hr, rfl, hwin⟩
    · exact Or.inr ⟨borrowersKept_append (hquery σ env) hkept, hr.imp_right
        fun ⟨e, he, hstruck⟩ => ⟨e, he, hstruck.mono fun m hm => List.mem_cons_of_mem _ hm⟩⟩
  · exact Or.inr ⟨hquery σ env, Or.inr ⟨_, rfl, _, List.mem_cons_self, f, hs, rfl⟩⟩

/-! ## The agent while the borrower is claimed -/

/-- **The claimed agent passes unchanged through moments that do not write agents.** -/
theorem Undisturbed.carried (halone : Undisturbed workerId h) {a : DocId} {m' : PyMoment}
    {rest : List PyMoment} {h₂ : List PyMoment} (hkeeps : ∀ x ∈ h₂, x.op.writesAgents = false) :
    ∀ {before : List PyMoment} {m : PyMoment}, h = before ++ m :: (h₂ ++ m' :: rest) →
      (∃ won ∈ before ++ [m], WinsAgent workerId a won) →
      m'.found.agents.get? a = (m.left exec).agents.get? a := by
  induction h₂ with
  | nil => exact fun hh hwon => halone _ _ _ rest hh a hwon
  | cons x h₂ ih =>
    intro before m hh hwon
    have hnext := halone before m x (h₂ ++ m' :: rest) hh a hwon
    have hwon' : ∃ won ∈ (before ++ [m]) ++ [x], WinsAgent workerId a won := by
      obtain ⟨won, hmem, hwins⟩ := hwon
      exact ⟨won, List.mem_append_left _ hmem, hwins⟩
    have hlast := ih (fun y hy => hkeeps y (List.mem_cons_of_mem _ hy))
      (by rw [hh, List.append_assoc]; rfl) hwon'
    rw [hlast, ← hnext]
    unfold Moment.left
    rw [exec_agents_eq (hkeeps x List.mem_cons_self)]

/-- The compensating write frees an agent who is as the claim left him. -/
theorem givenBack_releaseAgent {a : DocId} {σ : Store} {env : Env} {g : Agent}
    (hg : σ.agents.get? a = some g) (hstate : g.state = .RESERVED)
    (hworker : g.reservedBy = some workerId)
    (hs : env.strikes (.releaseAgent a workerId .AVAILABLE .ALLOCATOR) = none) :
    GivenBack a (exec env (.releaseAgent a workerId .AVAILABLE .ALLOCATOR) σ).2 := by
  rw [CallAllocator.exec_of_unstruck hs]
  refine ⟨_, AgentRepo.get?_releaseAgent hg env.now hworker ?_, rfl, rfl, rfl⟩
  rw [hstate]
  decide

/-- The compensation, and what follows it. -/
theorem passes_compensation {α : Type} {a : DocId} {y : Py α} {r : Except Exn α}
    (hreleased : ∀ m ∈ h, compensates m.op = true → m.env.strikes m.op = none)
    (hpass : ((releaseAgent a workerId).bind fun _ => y).Passes exec h r) :
    ∃ σ env h', h = ⟨.releaseAgent a workerId .AVAILABLE .ALLOCATOR, σ, env⟩ :: h'
      ∧ env.strikes (.releaseAgent a workerId .AVAILABLE .ALLOCATOR) = none
      ∧ y.Passes exec h' r := by
  unfold releaseAgent SmartDialer.releaseAgent at hpass
  rw [if_neg (by decide), Prog.bind_def, Prog.bind_assoc] at hpass
  obtain ⟨σ, env, h', rfl, ⟨hs, -, -, hrest⟩ | ⟨f, hs, -⟩⟩ :=
    CallAllocator.passes_call_bind rfl hpass
  · exact ⟨σ, env, h', rfl, hs, hrest⟩
  · cases hs.symm.trans (hreleased _ List.mem_cons_self rfl)

/-! ## The whole execution

`reserve_pair` is the claim of an agent followed by `withAgent`. The moments after the claim write
to no agent but by the release, so the agent is found at the end as the claim has left him. -/

/-- What `reserve_pair` may do to a document in somebody else's hands. Every write of `reserve_pair`
asks for a free document or for one that the worker itself holds. -/
theorem others_untouched {r : Except Exn (Option ReservationPair)}
    (hpass : (reservePair cfg campaignId workerId).Passes exec h r) : ∀ m ∈ h,
    (∀ a g, m.found.agents.get? a = some g → g.HeldByAnother workerId →
      (m.left exec).agents.get? a = some g)
    ∧ ∀ b g, m.found.borrowers.get? b = some g → g.HeldByAnother workerId →
      (m.left exec).borrowers.get? b = some g := by
  intro m hm
  -- the only writes of the claim, each guarded against what another worker holds
  let S : Op → Prop := fun o => (∃ c id ttl, o = .tryReserveAgent c id workerId ttl)
    ∨ (∃ id, o = .releaseAgent id workerId .AVAILABLE .ALLOCATOR)
    ∨ (∃ c id ttl, o = .tryReserveBorrower c id workerId ttl)
    ∨ o.writesAgents = false ∧ o.writesBorrowers = false
  have hop : S m.op := Prog.Performs.of_passes (CallAllocator.performs_claimPair (S := S) campaignId
    (fun _ _ => Or.inr (Or.inr (Or.inr ⟨rfl, rfl⟩))) (fun c id => Or.inl ⟨c, id, _, rfl⟩)
    (fun _ _ => Or.inr (Or.inr (Or.inr ⟨rfl, rfl⟩)))
    (fun c id => Or.inr (Or.inr (Or.inl ⟨c, id, _, rfl⟩)))
    fun id => Or.inr (Or.inl ⟨id, rfl⟩)) hpass m hm
  refine ⟨fun a g hg ⟨hstate, w, hw, hne⟩ => ?_, fun b g hg ⟨hstatus, w, hw, hne⟩ => ?_⟩
  · obtain ⟨g', hg', hwrite⟩ := exec_agent m.env m.op hg
    -- an available agent is in nobody's hands, and the release names the worker
    have hsame : g' = g := by
      rcases hop with ⟨c, id, ttl, heq⟩ | ⟨id, heq⟩ | ⟨c, id, ttl, heq⟩ | ⟨hno, -⟩
      · rw [heq] at hwrite
        cases hwrite with
        | unchanged => rfl
        | reserve _ _ havailable => exact absurd havailable hstate
      · rw [heq] at hwrite
        cases hwrite with
        | unchanged => rfl
        | release hworker =>
          cases (Option.mem_def.mp hw).symm.trans hworker
          exact absurd rfl hne
      · rw [heq] at hwrite
        cases hwrite
        rfl
      · rw [exec_agents_eq hno] at hg'
        exact Option.some.inj (hg'.symm.trans hg)
    rw [← hsame]
    exact hg'
  · obtain ⟨g', hg', hwrite⟩ := exec_borrower m.env m.op hg
    have hsame : g' = g := by
      rcases hop with ⟨c, id, ttl, heq⟩ | ⟨id, heq⟩ | ⟨c, id, ttl, heq⟩ | ⟨-, hno⟩
      · rw [heq] at hwrite
        cases hwrite
        rfl
      · rw [heq] at hwrite
        cases hwrite
        rfl
      · rw [heq] at hwrite
        cases hwrite with
        | unchanged => rfl
        | reserve _ _ hpending => exact absurd hpending hstatus
      · rw [exec_borrowers_eq hno] at hg'
        exact Option.some.inj (hg'.symm.trans hg)
    rw [← hsame]
    exact hg'

variable (cfg campaignId workerId) in
/-- What `reserve_pair` does once it has an agent. -/
def withAgent (agent : Agent) : Py (Option ReservationPair) :=
  ((claimBorrower cfg campaignId workerId).catching fun error =>
    if error.isPyMongoError then (releaseAgent agent.id workerId).bind fun _ => .raise error
    else .raise error).bind fun borrower =>
  match borrower with
  | none => (releaseAgent agent.id workerId).bind fun _ => .ret none
  | some borrower => .ret (some { campaignId, workerId, agent, borrower })

theorem reservePair_eq : reservePair cfg campaignId workerId
    = (claimAgent cfg campaignId workerId).bind fun agent =>
      match agent with
      | none => .ret none
      | some agent => withAgent cfg campaignId workerId agent := by
  unfold reservePair
  rw [Prog.bind_def]
  congr 1

/-- What an execution that has an agent comes to: a borrower too, or the release of the agent. By
the outcome of the search for a borrower: found, not found, or raised by the database. In the last
two cases the release is the last moment. -/
theorem passes_withAgent {agent : Agent} {r : Except Exn (Option ReservationPair)}
    (hclean : ∀ m ∈ h, ∀ f, m.env.strikes m.op = some f → f.applied = false)
    (houtcome : ∀ m ∈ h, claimsBorrower m.op = true → ∀ f, m.env.strikes m.op = some f →
      f.exn.isPyMongoError = true)
    (hreleased : ∀ m ∈ h, compensates m.op = true → m.env.strikes m.op = none)
    (hpass : (withAgent cfg campaignId workerId agent).Passes exec h r) :
    (∃ b h₁ m, r = .ok (some ⟨campaignId, workerId, agent, b⟩) ∧ h = h₁ ++ [m]
      ∧ (∀ x ∈ h, x.op.writesAgents = false) ∧ (m.left exec).borrowers.get? b.id = some b
      ∧ b.status = .RESERVED ∧ b.reservedBy = some workerId)
    ∨ ∃ h₁ σ env, h = h₁ ++ [⟨.releaseAgent agent.id workerId .AVAILABLE .ALLOCATOR, σ, env⟩]
      ∧ env.strikes (.releaseAgent agent.id workerId .AVAILABLE .ALLOCATOR) = none
      ∧ (∀ x ∈ h₁, x.op.writesAgents = false) ∧ BorrowersKept h₁
      ∧ (r = .ok none ∨ ∃ e, r = .error e ∧ Struck h₁ e) := by
  have hagents : ∀ {h' : List PyMoment} {s : Except Exn (Option Borrower)},
      (claimBorrower cfg campaignId workerId).Passes exec h' s →
      ∀ x ∈ h', x.op.writesAgents = false := fun hp =>
    Prog.Performs.of_passes (S := fun o => o.writesAgents = false)
      (CallAllocator.performs_claimBorrower campaignId (fun _ _ => rfl) fun _ _ => rfl) hp
  have hclaims : ∀ {h' : List PyMoment} {s : Except Exn (Option Borrower)},
      (claimBorrower cfg campaignId workerId).Passes exec h' s →
      ∀ x ∈ h', claimsBorrower x.op = true := fun hp =>
    Prog.Performs.of_passes (S := fun o => claimsBorrower o = true)
      (CallAllocator.performs_claimBorrower campaignId (fun _ _ => rfl) fun _ _ => rfl) hp
  unfold withAgent at hpass
  rcases (Prog.passes_bind _ _ _).mp hpass with ⟨h₁, h₂, borrower, rfl, hclaim, hrest⟩ | ⟨e, hclaim, rfl⟩
  · rcases (Prog.passes_catching _ _ _).mp hclaim with ⟨a, hclaim, heq⟩ | ⟨h₃, h₄, e, -, -, hhandler⟩
    · cases heq
      have hclean₁ := fun m hm => hclean m (List.mem_append_left h₂ hm)
      -- a borrower is won, or there is none and the agent goes back
      rcases passes_claimBorrower hclean₁ hclaim with ⟨b, h₃, m, hb, rfl, hwin⟩ | ⟨hkept, hnone⟩
      · cases hb
        obtain ⟨rfl, rfl⟩ := (Prog.passes_ret _ _).mp hrest
        refine Or.inl ⟨b, h₃, m, rfl, List.append_nil _, fun x hx => ?_, hwin⟩
        rw [List.append_nil] at hx
        exact hagents hclaim x hx
      · rcases hnone with hnone | ⟨e, he, -⟩
        · cases hnone
          obtain ⟨σ, env, h', rfl, hs, hret⟩ :=
            passes_compensation (fun m hm => hreleased m (List.mem_append_right _ hm)) hrest
          obtain ⟨rfl, rfl⟩ := (Prog.passes_ret _ _).mp hret
          exact Or.inr ⟨h₁, σ, env, rfl, hs, hagents hclaim, hkept, Or.inl rfl⟩
        · cases he
    · -- the handler ends with an error
      split at hhandler
      · rcases (Prog.passes_bind _ _ _).mp hhandler with ⟨h₅, h₆, _, rfl, -, hraise⟩ | ⟨e', -, he⟩
        · cases ((Prog.passes_raise _ _).mp hraise).2
        · cases he
      · cases ((Prog.passes_raise _ _).mp hhandler).2
  · rcases (Prog.passes_catching _ _ _).mp hclaim with ⟨a, -, heq⟩ | ⟨h₃, h₄, e', rfl, hcaught, hhandler⟩
    · cases heq
    · have hclean₃ := fun m hm => hclean m (List.mem_append_left h₄ hm)
      rcases passes_claimBorrower hclean₃ hcaught with ⟨b, h₅, m, hb, -⟩ | ⟨hkept, hnone⟩
      · cases hb
      · rcases hnone with hnone | ⟨e'', he'', hstruck⟩
        · cases hnone
        · cases he''
          obtain ⟨m, hm, f, hf, rfl⟩ := hstruck
          have hpymongo := houtcome m (List.mem_append_left _ hm) (hclaims hcaught m hm) f hf
          -- the handler: release, and raise again
          rw [if_pos hpymongo] at hhandler
          obtain ⟨σ, env, h', rfl, hs, hraise⟩ :=
            passes_compensation (fun m hm => hreleased m (List.mem_append_right _ hm)) hhandler
          obtain ⟨rfl, he⟩ := (Prog.passes_raise _ _).mp hraise
          cases he
          exact Or.inr ⟨h₃, σ, env, rfl, hs, hagents hcaught, hkept,
            Or.inr ⟨_, rfl, m, hm, f, hf, rfl⟩⟩

/-- **`reserve_pair` returns both documents or keeps neither.** Among other workers, and however
the claim of the borrower ends: if an operation that raises had no effect, the compensating write
goes through and nobody else changes the claimed agent, then the pair that is returned is held by
this worker, an agent that was claimed in vain is free again and no borrower has been touched, and
what is in another worker's hands stays as it is. -/
theorem reservePair_allOrNothing {cfg : Config} {σ₀ : Store} {actions : List (Action Job Env)}
    {p : Nat} {campaignId : DocId} {workerId : WorkerId} {h : List PyMoment}
    {r : Except Exn (Option ReservationPair)}
    (hrun : World.CarriesOut (system cfg) (World.fresh σ₀) actions p
      (reservePair cfg campaignId workerId) h r)
    (hcomp : Compensable workerId h) : AllOrNothing workerId h r := by
  obtain ⟨-, -, -, -, -, -, -, -, hpass⟩ := hrun
  have hothers := others_untouched hpass
  rw [reservePair_eq] at hpass
  have hborrowers : ∀ {h' : List PyMoment} {s : Except Exn (Option Agent)},
      (claimAgent cfg campaignId workerId).Passes exec h' s → BorrowersKept h' := fun hp =>
    borrowersKept_of_performs (CallAllocator.performs_claimAgent campaignId (fun _ _ => rfl)
      fun _ _ => rfl) hp
  -- without an agent there is nothing to undo
  have hnothing : Idle workerId h → BorrowersKept h → (r = .ok none ∨ ∃ e, r = .error e ∧ Struck h e) →
      AllOrNothing workerId h r := by
    intro hidle hkept hr
    refine ⟨fun pair hpair => ?_, fun _ => ⟨fun a won hwon hwins => absurd hwins (hidle won hwon a),
      hkept⟩, fun e he => ?_, hothers⟩
    · rcases hr with rfl | ⟨e, rfl, -⟩
      · cases hpair
      · cases hpair
    · rcases hr with rfl | ⟨e', rfl, hstruck⟩
      · cases he
      · cases he
        exact hstruck
  rcases (Prog.passes_bind _ _ _).mp hpass with ⟨h₁, h₂, agent, rfl, hclaim, hrest⟩ | ⟨e, hclaim, rfl⟩
  · rcases passes_claimAgent hclaim with ⟨g, h₀, won, hg, rfl, hidle, hwins, honly, hget, hstate,
      hworker⟩ | ⟨hidle, hnone⟩
    · cases hg
      have hsub : ∀ m ∈ h₂, m ∈ h₀ ++ [won] ++ h₂ := fun m hm => List.mem_append_right _ hm
      have hsplit : ∀ h₃ m', h₂ = h₃ ++ [m'] → h₀ ++ [won] ++ h₂ = h₀ ++ won :: (h₃ ++ m' :: []) := by
        rintro h₃ m' rfl
        simp
      have hlast : ∀ h₃ m', h₂ = h₃ ++ [m'] → (h₀ ++ [won] ++ h₂).getLast? = some m' := by
        rintro h₃ m' rfl
        rw [← List.append_assoc]
        exact List.getLast?_concat
      have hwon : ∃ m ∈ h₀ ++ [won], WinsAgent workerId g.id m := ⟨won, by simp, hwins⟩
      rcases passes_withAgent (fun m hm => hcomp.clean m (hsub m hm))
          (fun m hm => hcomp.outcome m (hsub m hm)) (fun m hm => hcomp.released m (hsub m hm)) hrest
        with ⟨b, h₃, m, rfl, hh₂, hkeeps, hb, hstatus, hbworker⟩
          | ⟨h₃, σ, env, hh₂, hs, hkeeps, hkept, hr⟩
      · -- both claims have been won
        have hfound := hcomp.alone.carried (fun x hx => hkeeps x (by simp [hh₂, hx]))
          (hsplit h₃ m hh₂) hwon
        refine ⟨fun pair hpair => ⟨m, hlast h₃ m hh₂, ?_⟩, fun hno => absurd rfl (hno _),
          fun e he => (by cases he), hothers⟩
        cases hpair
        refine ⟨⟨g, ?_, hstate, hworker⟩, b, hb, hstatus, hbworker⟩
        show (exec m.env m.op m.found).2.agents.get? g.id = some g
        rw [exec_agents_eq (hkeeps m (by simp [hh₂])), hfound]
        exact hget
      · -- the agent has been given back
        have hfound := (hcomp.alone.carried hkeeps (hsplit h₃ _ hh₂) hwon).trans hget
        have hback := givenBack_releaseAgent hfound hstate hworker hs
        have honly' : ∀ a, ∀ m ∈ h₀ ++ [won] ++ h₂, WinsAgent workerId a m → a = g.id := by
          intro a m hm hwin
          rcases List.mem_append.mp hm with hm | hm
          · rcases List.mem_append.mp hm with hm | hm
            · exact absurd hwin (hidle m hm a)
            · cases List.mem_singleton.mp hm
              exact honly a hwin
          · obtain ⟨c, ttl, agent, hop, -⟩ := hwin
            rw [hh₂] at hm
            rcases List.mem_append.mp hm with hm | hm
            · have hno := hkeeps m hm
              rw [hop] at hno
              cases hno
            · cases List.mem_singleton.mp hm
              cases hop
        refine ⟨fun pair hpair => ?_, fun _ => ⟨fun a m hm hwin => ⟨_, hlast h₃ _ hh₂, ?_⟩, ?_⟩,
          fun e he => ?_, hothers⟩
        · rcases hr with rfl | ⟨e, rfl, -⟩
          · cases hpair
          · cases hpair
        · rw [honly' a m hm hwin]
          exact hback
        · refine borrowersKept_append (hborrowers hclaim) ?_
          rw [hh₂]
          refine borrowersKept_append hkept fun m hm => ?_
          cases List.mem_singleton.mp hm
          exact exec_borrowers_eq rfl env σ
        · rcases hr with rfl | ⟨e', rfl, hstruck⟩
          · cases he
          · cases he
            exact hstruck.mono fun m hm => by simp [hh₂, hm]
    · rcases hnone with hnone | ⟨e, he, -⟩
      · cases hnone
        obtain ⟨rfl, rfl⟩ := (Prog.passes_ret _ _).mp hrest
        rw [List.append_nil] at hothers hcomp hnothing ⊢
        exact hnothing hidle (hborrowers hclaim) (Or.inl rfl)
      · cases he
  · rcases passes_claimAgent hclaim with ⟨g, h₀, won, hg, -⟩ | ⟨hidle, hnone⟩
    · cases hg
    · refine hnothing hidle (hborrowers hclaim) (hnone.imp (fun h => by cases h) ?_)
      rintro ⟨e', he', hstruck⟩
      cases he'
      exact ⟨e, rfl, hstruck⟩

/-! The theorem at an execution that wins its agent and cannot ask for a borrower. -/

/-- The database fails before the operation has any effect. -/
def brokenEnv : Env := { demoEnv with fault := some ⟨.database, false⟩ }

/-- The worker wins the agent; the query for borrowers fails; the release goes through. -/
def brokenActions : List (Action Job Env) :=
  [.spawn 0 (.allocate demoCampaign 1 "w"), .perform 0 demoEnv, .perform 0 demoEnv,
    .perform 0 brokenEnv, .perform 0 demoEnv]

/-- The moments of thread 0. -/
def brokenMoments : List PyMoment := (World.fresh demoStore).moments (system {}) 0 brokenActions

/-- The allocator that makes one call, from its first step. -/
def brokenAllocation : Py Outcome :=
  (((reservePair {} demoCampaign.id "w").catching fun error =>
    if error.isPyMongoError then .ret none else .raise error).bind fun pair =>
      match pair with
      | none => CallAllocator.allocateLoop {} demoCampaign "w" 0 ⟨1, 0, 0, 1⟩ 1
      | some pair => (CallAllocator.dialCompensated {} demoCampaign pair).bind fun dialled =>
        if dialled then CallAllocator.allocateLoop {} demoCampaign "w" 0 ⟨1, 1, 0, 0⟩ 0
        else CallAllocator.allocateLoop {} demoCampaign "w" 0 ⟨1, 0, 1, 0⟩ 0).bind fun counts =>
  .ret (.allocation counts)

theorem broken_undisturbed : Undisturbed "w" brokenMoments := by
  intro before m m' after hsplit a _
  have hchain : brokenMoments.IsChain fun m m' => m'.found.agents.docs = (m.left exec).agents.docs := by
    decide +kernel
  rw [hsplit, List.isChain_append_cons_cons] at hchain
  unfold Collection.get?
  rw [hchain.2.1]

theorem reservePair_starts_brokenAllocation :
    (reservePair {} demoCampaign.id "w").Starts brokenAllocation :=
  .bind _ (.bind _ (.catching _ .here))

theorem broken_compensable : Compensable "w" brokenMoments where
  clean := fun m hm f hf =>
    (show ∀ m ∈ brokenMoments, ∀ f ∈ m.env.strikes m.op, f.applied = false by decide +kernel) m hm f hf
  outcome := fun m hm _ f hf =>
    (show ∀ m ∈ brokenMoments, ∀ f ∈ m.env.strikes m.op, f.exn.isPyMongoError = true by
      decide +kernel) m hm f hf
  released := by decide +kernel
  alone := broken_undisturbed

theorem reservePair_allOrNothing_demo : ∃ last, brokenMoments.getLast? = some last
    ∧ GivenBack demoAgent.id (last.left exec) := by
  have hsplit : brokenMoments = [] ++ brokenMoments ++ [] := (List.append_nil _).symm
  have hrun : World.CarriesOut (system {}) (World.fresh demoStore) brokenActions 0
      (reservePair {} demoCampaign.id "w") brokenMoments (.error .database) :=
    .of_spawn hsplit (Prog.leads_nil.mpr rfl) reservePair_starts_brokenAllocation
      (Prog.passes_of_after (by decide +kernel))
  have hundone := (reservePair_allOrNothing hrun broken_compensable).neither fun _ h => by cases h
  -- the second moment wins the agent
  have hwins : ∃ won ∈ brokenMoments, WinsAgent "w" demoAgent.id won := by
    refine ⟨⟨.tryReserveAgent demoCampaign.id demoAgent.id "w" 30, demoStore, demoEnv⟩, ?_, ?_⟩
    · exact List.mem_cons_of_mem _ List.mem_cons_self
    · exact ⟨_, _, AgentRepo.reserveUpdate 0 "w" 30 demoAgent, rfl, rfl⟩
  obtain ⟨won, hwon, hwin⟩ := hwins
  exact hundone.1 _ won hwon hwin

end ReservationService

end SmartDialer
