import SmartDialer.Calls.Lifecycle
import SmartDialer.Lib.Passage

/-!
# An originate in flight

Between the request and the provider's answer a dial holds nothing that keeps others from ending
its call. What `_dial` does with an accepted originate is read off its moments after the answer:
it records the provider's id on the call, or hangs up and gives the pair back.

The statement is about one dial of a run, split at the moment in which the provider accepts.
`Settled` is what has to become of the rest of it. Since the rest is a program of its own,
`dialAccepted`, the proof has two halves: what `dialAccepted` does with its moments, and that it is
what is left of the dial.

* `dialAccepted_settles`: the rest of a dial, as an equivalence.
* `originate_accepted`, `dial_accepted`: from the start of the dial to the answer.
* `accepted_originate_settled`: every dial of every run.
-/

namespace SmartDialer

open Concurrent

/-- A moment of an execution: the operation, the store it finds, what strikes it. -/
abbrev PyMoment := Moment Op Store Env

namespace CallAllocator

/-- The provider accepts the originate. -/
def Accepts (m : PyMoment) (providerName : String) (request : OriginateRequest)
    (result : OriginateResult) : Prop :=
  m.op = .awaitOriginate providerName request
    ∧ (exec m.env (.awaitOriginate providerName request) m.found).1 = .ok result
    ∧ result.accepted = true

/-- `attach_provider_call_id` records the id on a call that has not ended. -/
def RecordsOpen (callId : DocId) (providerCallId : Option String) (m : PyMoment) : Prop :=
  m.op = .attachProviderCallId callId providerCallId
    ∧ ∃ d d', m.found.calls.get? callId = some d ∧ CallSm.isTerminal d.state = false
      ∧ (exec m.env (.attachProviderCallId callId providerCallId) m.found).1 = .ok (some d')
      ∧ d'.providerCallId = providerCallId

/-- The agent and the borrower have been given back. -/
def Released (pair : ReservationPair) (outcome : BorrowerReleaseOutcome) (h : List PyMoment) :
    Prop :=
  (∃ m ∈ h, m.op = .releaseAgent pair.agent.id pair.workerId .AVAILABLE .ALLOCATOR
    ∧ m.env.strikes m.op = none)
  ∧ ∃ m ∈ h, ∃ attempts backoff,
    m.op = .releaseBorrower pair.borrower.id pair.workerId outcome attempts backoff
    ∧ m.env.strikes m.op = none

theorem Released.mono {pair : ReservationPair} {outcome : BorrowerReleaseOutcome}
    {h h' : List PyMoment} (hreleased : Released pair outcome h) (hsub : ∀ m ∈ h, m ∈ h') :
    Released pair outcome h' := by
  obtain ⟨⟨m₁, hm₁, hagent⟩, m₂, hm₂, hborrower⟩ := hreleased
  exact ⟨⟨m₁, hsub m₁ hm₁, hagent⟩, m₂, hsub m₂ hm₂, hborrower⟩

/-- What becomes of an accepted originate: `h` are the moments of the dial after the answer and
`r` is its result. -/
def Settled (pair : ReservationPair) (providerName : String) (callId : DocId)
    (providerCallId : Option String) (h : List PyMoment) (r : Except Exn Bool) : Prop :=
  (∃ m ∈ h, RecordsOpen callId providerCallId m) ∧ r = .ok true
  ∨ (∃ m ∈ h, m.op = .hangupCall providerName providerCallId) ∧ Released pair .RETRY h ∧ r = .ok false

/-- The call can take the provider's id: it has none, and no other call has this one. -/
def Attachable (callId : DocId) (providerCallId : Option String) (σ : Store) (d : Call) : Prop :=
  σ.calls.get? callId = some d ∧ d.providerCallId = none
    ∧ ¬ CallRepo.providerKeyTaken callId providerCallId σ.calls

/-- Nothing raises after the answer, except that the hang-up may end in a provider error. -/
def Unstruck (h : List PyMoment) : Prop :=
  ∀ m ∈ h, ∀ f, m.env.strikes m.op = some f →
    (∃ name id, m.op = .hangupCall name id) ∧ f.exn.isProviderError = true

/-- The call that takes the provider's id has not ended. -/
def AttachedOpen (callId : DocId) (h : List PyMoment) : Prop :=
  ∀ m ∈ h, ∀ id, m.op = .attachProviderCallId callId id →
    ∀ d, Attachable callId id m.found d → CallSm.isTerminal d.state = false

/-! ## One operation, one moment

An execution of one operation is one moment. It is answered or struck; only an insertion can also
fail by itself. -/

/-- What strikes an operation is an exception it can raise. -/
theorem strikes_raises {env : Env} {o : Op} {f : Fault} (hs : env.strikes o = some f) :
    o.raises f.exn = true :=
  (Option.filter_eq_some_iff.mp hs).2

/-- The one operation that can fail by itself. -/
def inserts : Op → Bool
  | .insertCall _ => true
  | _ => false

/-- The one operation whose provider errors are caught. -/
def hangsUp : Op → Bool
  | .hangupCall _ _ => true
  | _ => false

theorem apply_ok {o : Op} (ho : inserts o = false) (env : Env) (σ : Store) :
    ∃ a, (apply env o σ).1 = .ok a := by
  cases o with
  | insertCall draft => cases ho
  | _ => exact ⟨_, rfl⟩

theorem passes_call {o : Op} {h : List PyMoment} {r : Except Exn (Res o)}
    (hpass : (call o).Passes exec h r) :
    ∃ σ env, h = [⟨o, σ, env⟩] ∧
      (env.strikes o = none ∧ r = (apply env o σ).1
        ∨ ∃ f, env.strikes o = some f ∧ r = .error f.exn) := by
  obtain ⟨σ, env, hh, hr⟩ := (Prog.passes_perform o r).mp hpass
  refine ⟨σ, env, hh, ?_⟩
  unfold exec at hr
  cases hs : env.strikes o with
  | none =>
    rw [hs] at hr
    exact Or.inl ⟨rfl, hr⟩
  | some f =>
    rw [hs] at hr
    exact Or.inr ⟨f, rfl, hr⟩

/-- An operation whose exception is an outcome like any other. -/
theorem passes_outcome {o : Op} {h : List PyMoment} {s : Except Exn (Res o ⊕ Exn)}
    (hpass : (((call o).bind fun a => .ret (Sum.inl a)).catching
      fun e => .ret (Sum.inr e)).Passes exec h s) :
    ∃ σ env, h = [⟨o, σ, env⟩] ∧ ((∃ a, (exec env o σ).1 = .ok a ∧ s = .ok (.inl a))
      ∨ ∃ e, (exec env o σ).1 = .error e ∧ s = .ok (.inr e)) := by
  rcases (Prog.passes_catching _ _ s).mp hpass with ⟨a, hx, rfl⟩ | ⟨h₁, h₂, e, rfl, hx, hh⟩
  · rcases (Prog.passes_bind _ _ _).mp hx with ⟨h₃, h₄, b, rfl, hcall, hret⟩ | ⟨e, _, he⟩
    · obtain ⟨σ, env, rfl, hb⟩ := (Prog.passes_perform o _).mp hcall
      obtain ⟨rfl, hr⟩ := (Prog.passes_ret _ _).mp hret
      exact ⟨σ, env, rfl, Or.inl ⟨b, hb.symm, hr⟩⟩
    · cases he
  · obtain ⟨rfl, rfl⟩ := (Prog.passes_ret _ _).mp hh
    rcases (Prog.passes_bind _ _ _).mp hx with ⟨h₃, h₄, b, rfl, -, hret⟩ | ⟨e', hcall, he⟩
    · cases ((Prog.passes_ret _ _).mp hret).2
    · cases he
      obtain ⟨σ, env, rfl, he'⟩ := (Prog.passes_perform o _).mp hcall
      exact ⟨σ, env, rfl, Or.inr ⟨e, he'.symm, rfl⟩⟩

/-- **An operation and what follows it**: it is answered and the program goes on, or it is struck
and the program ends there. -/
theorem passes_call_bind {o : Op} (ho : inserts o = false) {f : Res o → Py α}
    {h : List PyMoment} {r : Except Exn α} (hpass : ((call o).bind f).Passes exec h r) :
    ∃ σ env h', h = ⟨o, σ, env⟩ :: h' ∧
      ((env.strikes o = none ∧ ∃ a, (apply env o σ).1 = .ok a ∧ (f a).Passes exec h' r)
        ∨ ∃ fault, env.strikes o = some fault ∧ h' = [] ∧ r = .error fault.exn) := by
  rcases (Prog.passes_bind _ f r).mp hpass with ⟨h₁, h₂, a, rfl, hcall, hf⟩ | ⟨e, hcall, rfl⟩
  · obtain ⟨σ, env, rfl, ⟨hs, ha⟩ | ⟨fault, -, ha⟩⟩ := passes_call hcall
    · exact ⟨σ, env, h₂, rfl, Or.inl ⟨hs, a, ha.symm, hf⟩⟩
    · cases ha
  · obtain ⟨σ, env, rfl, ⟨-, he⟩ | ⟨fault, hs, he⟩⟩ := passes_call hcall
    · obtain ⟨a, ha⟩ := apply_ok ho env σ
      cases he.trans ha
    · cases he
      exact ⟨σ, env, [], rfl, Or.inr ⟨fault, hs, rfl, rfl⟩⟩

theorem exec_of_unstruck {env : Env} {o : Op} (hs : env.strikes o = none) (σ : Store) :
    exec env o σ = apply env o σ := by
  unfold exec
  rw [hs]

theorem unstruck_append {x y : List PyMoment} :
    Unstruck (x ++ y) ↔ Unstruck x ∧ Unstruck y :=
  List.forall_mem_append

theorem unstruck_single {o : Op} (ho : hangsUp o = false) {σ : Store} {env : Env} :
    Unstruck [⟨o, σ, env⟩] ↔ env.strikes o = none := by
  constructor
  · intro h
    cases hs : env.strikes o with
    | none => rfl
    | some f =>
      obtain ⟨⟨name, id, heq⟩, -⟩ := h _ List.mem_cons_self f hs
      rw [show o = .hangupCall name id from heq] at ho
      cases ho
  · intro hs m hm f hf
    cases List.mem_singleton.mp hm
    rw [hs] at hf
    cases hf

/-- The program ends with a result exactly when nothing strikes it. -/
def Straight (x : Py α) : Prop :=
  ∀ h r, x.Passes exec h r → (Unstruck h ↔ ∃ a, r = .ok a)

theorem Straight.pure (a : α) : Straight (.ret a) := by
  intro h r hpass
  obtain ⟨rfl, rfl⟩ := (Prog.passes_ret a r).mp hpass
  exact iff_of_true (fun m hm => by cases hm) ⟨a, rfl⟩

theorem Straight.call {o : Op} (hins : inserts o = false) (ho : hangsUp o = false) :
    Straight (call o) := by
  intro h r hpass
  obtain ⟨σ, env, rfl, ⟨hs, rfl⟩ | ⟨f, hs, rfl⟩⟩ := passes_call hpass
  · exact iff_of_true ((unstruck_single ho).mpr hs) (apply_ok hins env σ)
  · refine iff_of_false (fun h => ?_) (fun ⟨_, h⟩ => by cases h)
    rw [(unstruck_single ho).mp h] at hs
    cases hs

theorem Straight.bind {x : Py α} {f : α → Py β} (hx : Straight x) (hf : ∀ a, Straight (f a)) :
    Straight (x.bind f) := by
  intro h r hpass
  rcases (Prog.passes_bind x f r).mp hpass with ⟨h₁, h₂, a, rfl, hleft, hright⟩ | ⟨e, hleft, rfl⟩
  · rw [unstruck_append, hx h₁ _ hleft, ← hf a h₂ r hright]
    exact and_iff_right ⟨a, rfl⟩
  · rw [hx h _ hleft]
    exact iff_of_false (fun ⟨_, h⟩ => by cases h) (fun ⟨_, h⟩ => by cases h)

/-! ## The end of a dial

Where the provider's id is recorded, the dial answers `True`; where it is refused, three writes
follow and the dial answers `False`. The hang-up in between is the one operation whose errors do not
matter. -/

section Tail

variable {cfg : Config} {campaign : Campaign} {pair : ReservationPair} {callId : DocId}
  {h : List PyMoment}

theorem straight_release (outcome : BorrowerReleaseOutcome) : Straight (release cfg pair outcome) := by
  unfold release ReservationService.releasePair ReservationService.releaseAgent releaseAgent
  rw [if_neg (by decide)]
  exact .bind (.bind (.call rfl rfl) fun _ => .pure _) fun _ =>
    .bind (.call rfl rfl) fun _ => .pure _

theorem passes_release {outcome : BorrowerReleaseOutcome}
    (hpass : (release cfg pair outcome).Passes exec h (.ok ())) : Released pair outcome h := by
  unfold release ReservationService.releasePair ReservationService.releaseAgent releaseAgent at hpass
  rw [if_neg (by decide)] at hpass
  rw [Prog.bind_def, Prog.bind_def, Prog.bind_assoc] at hpass
  obtain ⟨σ, env, h', rfl, ⟨hs, -, -, hrest⟩ | ⟨f, -, -, hr⟩⟩ := passes_call_bind rfl hpass
  · obtain ⟨σ', env', h'', rfl, ⟨hs', -⟩ | ⟨f, -, -, hr⟩⟩ := passes_call_bind rfl hrest
    · exact ⟨⟨_, List.mem_cons_self, rfl, hs⟩,
        ⟨_, List.mem_cons_of_mem _ List.mem_cons_self, _, _, rfl, hs'⟩⟩
    · cases hr
  · cases hr

/-- `_hangup` asks the provider to hang up; only what is not a provider error escapes. -/
theorem passes_hangup_cases {r : Except Exn Unit} {id : Option String}
    (hprov : campaign.providerName ∈ cfg.providers)
    (hpass : (hangup cfg campaign.providerName id).Passes exec h r) :
    ∃ σ env, h = [⟨.hangupCall campaign.providerName id, σ, env⟩] ∧
      ((∀ f, env.strikes (.hangupCall campaign.providerName id) = some f →
          f.exn.isProviderError = true) ∧ r = .ok ()
        ∨ ∃ f, env.strikes (.hangupCall campaign.providerName id) = some f
          ∧ f.exn.isProviderError = false ∧ r = .error f.exn) := by
  unfold hangup providerRegistryGet at hpass
  rw [if_pos hprov, Prog.passes_catching] at hpass
  rcases hpass with ⟨_, hcall, rfl⟩ | ⟨h₁, h₂, e, rfl, hcall, hhandler⟩
  · obtain ⟨σ, env, rfl, ⟨hs, -⟩ | ⟨f, -, hr⟩⟩ := passes_call hcall
    · refine ⟨σ, env, rfl, Or.inl ⟨fun f hf => ?_, rfl⟩⟩
      cases hs.symm.trans hf
    · cases hr
  · obtain ⟨σ, env, rfl, ⟨-, he⟩ | ⟨f, hs, he⟩⟩ := passes_call hcall
    · cases he
    · cases he
      split at hhandler
      · next hcaught =>
        obtain ⟨rfl, rfl⟩ := (Prog.passes_ret _ _).mp hhandler
        refine ⟨σ, env, rfl, Or.inl ⟨fun f' hf' => ?_, rfl⟩⟩
        cases hs.symm.trans hf'
        exact hcaught
      · next hescapes =>
        obtain ⟨rfl, rfl⟩ := (Prog.passes_raise _ _).mp hhandler
        exact ⟨σ, env, rfl, Or.inr ⟨f, hs, by simpa using hescapes, rfl⟩⟩

/-- It ends with a result exactly when nothing else strikes. -/
theorem passes_hangup {r : Except Exn Unit} {id : Option String}
    (hprov : campaign.providerName ∈ cfg.providers)
    (hpass : (hangup cfg campaign.providerName id).Passes exec h r) :
    (Unstruck h ↔ ∃ a, r = .ok a) ∧ ∃ m, h = [m] ∧ m.op = .hangupCall campaign.providerName id := by
  obtain ⟨σ, env, rfl, ⟨hcaught, rfl⟩ | ⟨f, hs, hescapes, rfl⟩⟩ := passes_hangup_cases hprov hpass
  · refine ⟨iff_of_true (fun m hm f hf => ?_) ⟨_, rfl⟩, _, rfl, rfl⟩
    cases List.mem_singleton.mp hm
    exact ⟨⟨_, _, rfl⟩, hcaught f hf⟩
  · refine ⟨iff_of_false (fun hall => ?_) (fun ⟨_, hr⟩ => by cases hr), _, rfl, rfl⟩
    have hprovider := (hall _ List.mem_cons_self f hs).2
    rw [hescapes] at hprovider
    cases hprovider

/-- The call takes the provider's id exactly where it can. -/
theorem attach_answer (now : Time) (id : Option String) (σ : Store) :
    (∃ d, Attachable callId id σ d
        ∧ (CallRepo.attachProviderCallId now callId id σ.calls).1
          = some { d with providerCallId := id, updatedAt := now }.fromMongo)
    ∨ (∀ d, ¬ Attachable callId id σ d)
        ∧ (CallRepo.attachProviderCallId now callId id σ.calls).1 = none := by
  unfold Attachable CallRepo.attachProviderCallId
  split
  · next htaken => exact Or.inr ⟨fun d hd => hd.2.2 htaken, rfl⟩
  · next htaken =>
    rcases σ.calls.findOneAndUpdate_cases callId (fun d => d.providerCallId = none)
      (fun d => { d with providerCallId := id, updatedAt := now })
      (fun _ => rfl) (fun _ => rfl) _ with ⟨d, hd, hp, hans, -, -⟩ | ⟨hno, hans, -⟩
    · exact Or.inl ⟨d, ⟨hd, hp, htaken⟩, congrArg (Option.map Call.fromMongo) hans⟩
    · exact Or.inr ⟨fun d hd => hno d hd.1 hd.2.1, congrArg (Option.map Call.fromMongo) hans⟩

theorem Attachable.eq {id : Option String} {σ : Store} {d e : Call}
    (hd : Attachable callId id σ d) (he : Attachable callId id σ e) : d = e :=
  Option.some.inj (hd.1.symm.trans he.1)

/-- The operation that records the id. -/
def attaches : Op → Bool
  | .attachProviderCallId _ _ => true
  | _ => false

theorem performs_release {S : Op → Prop} {outcome : BorrowerReleaseOutcome}
    (hagent : S (.releaseAgent pair.agent.id pair.workerId .AVAILABLE .ALLOCATOR))
    (hborrower : ∀ attempts backoff,
      S (.releaseBorrower pair.borrower.id pair.workerId outcome attempts backoff)) :
    (release cfg pair outcome).Performs S := by
  unfold release ReservationService.releasePair ReservationService.releaseAgent releaseAgent
  rw [if_neg (by decide)]
  exact .bind (.bind (Prog.performs_perform.mpr hagent) fun _ => Prog.performs_ret _) fun _ =>
    .bind (Prog.performs_perform.mpr (hborrower _ _)) fun _ => Prog.performs_ret _

theorem performs_hangup {S : Op → Prop} {name : String} {id : Option String}
    (hhangup : S (.hangupCall name id)) : (hangup cfg name id).Performs S := by
  unfold hangup providerRegistryGet
  refine .catching ?_ fun e => ?_
  · split
    · exact Prog.performs_perform.mpr hhangup
    · exact trivial
  · split <;> trivial

/-- **The way out of a dial whose call cannot take the provider's id**: hang up, fail the call, give
the pair back. -/
theorem passes_hangUp {r : Except Exn Bool} {id reason : Option String}
    (hprov : campaign.providerName ∈ cfg.providers)
    (hpass : ((hangup cfg campaign.providerName id).bind fun _ =>
      (call (.transitionCall callId .FAILED reason)).bind fun _ =>
        (release cfg pair .RETRY).bind fun _ => .ret false).Passes exec h r) :
    (Unstruck h ↔ ∃ a, r = .ok a) ∧ (∀ m ∈ h, attaches m.op = false)
      ∧ ∀ a, r = .ok a → a = false ∧ Released pair .RETRY h
        ∧ ∃ m ∈ h, m.op = .hangupCall campaign.providerName id := by
  refine ⟨?_, ?_, ?_⟩
  · exact (Straight.bind (fun h r hp => (passes_hangup hprov hp).1) fun _ =>
      .bind (.call rfl rfl) fun _ => .bind (straight_release .RETRY) fun _ => .pure false) h r hpass
  · exact Prog.Performs.of_passes (S := fun o => attaches o = false) (.bind (performs_hangup rfl)
      fun _ => .bind (Prog.performs_perform.mpr rfl) fun _ => .bind (performs_release rfl fun _ _ => rfl)
        fun _ => Prog.performs_ret false) hpass
  · rintro a rfl
    rcases (Prog.passes_bind _ _ _).mp hpass with ⟨h₁, h₂, _, rfl, hleft, hright⟩ | ⟨e, _, hr⟩
    · obtain ⟨-, m, rfl, hm⟩ := passes_hangup hprov hleft
      obtain ⟨σ, env, rest, rfl, ⟨-, -, -, hrest⟩ | ⟨f, -, -, hr⟩⟩ := passes_call_bind rfl hright
      · rcases (Prog.passes_bind _ _ _).mp hrest with ⟨h₃, h₄, _, rfl, hrel, hret⟩ | ⟨e, _, hr⟩
        · obtain ⟨rfl, hr⟩ := (Prog.passes_ret _ _).mp hret
          refine ⟨Except.ok.inj hr, (passes_release hrel).mono fun m' hm' => ?_, m, by simp, hm⟩
          simp [hm']
        · cases hr
      · cases hr
    · cases hr

/-- **What `_dial` makes of an accepted originate**: it settles it exactly when nothing strikes and
the call that takes the provider's id has not ended. -/
theorem dialAccepted_settles {result : OriginateResult} {r : Except Exn Bool}
    (hprov : campaign.providerName ∈ cfg.providers)
    (hpass : (dialAccepted cfg campaign pair callId result).Passes exec h r) :
    Settled pair campaign.providerName callId result.providerCallId h r
      ↔ Unstruck h ∧ AttachedOpen callId h := by
  unfold dialAccepted at hpass
  obtain ⟨σ, env, rest, rfl, ⟨hs, attached, hans, hpass⟩ | ⟨f, hs, rfl, rfl⟩⟩ :=
    passes_call_bind rfl hpass
  · have hexec : (exec env (.attachProviderCallId callId result.providerCallId) σ).1
        = .ok attached := by rw [exec_of_unstruck hs, hans]
    have hnow : attached
        = (CallRepo.attachProviderCallId env.now callId result.providerCallId σ.calls).1 :=
      (Except.ok.inj hans).symm
    rcases attach_answer env.now result.providerCallId σ with
      ⟨d, hd, hsome⟩ | ⟨hno, hnone⟩
    · -- the id is recorded and the dial is over
      rw [hsome] at hnow
      subst hnow
      obtain ⟨rfl, rfl⟩ := (Prog.passes_ret _ _).mp hpass
      constructor
      · rintro (⟨⟨m, hm, -, e, e', he, hopen, -⟩, -⟩ | ⟨-, -, hr⟩)
        · cases List.mem_singleton.mp hm
          refine ⟨(unstruck_single rfl).mpr hs, fun m hm id hid d' hd' => ?_⟩
          cases List.mem_singleton.mp hm
          cases he.symm.trans hd'.1
          exact hopen
        · cases hr
      · rintro ⟨-, hopen⟩
        exact Or.inl ⟨⟨_, List.mem_cons_self, rfl, d, _, hd.1,
          hopen _ List.mem_cons_self _ rfl d hd, hexec, rfl⟩, rfl⟩
    · -- the call cannot take the id
      rw [hnone] at hnow
      subst hnow
      obtain ⟨hunstruck, hothers, hend⟩ := passes_hangUp hprov hpass
      constructor
      · rintro (⟨-, hr⟩ | ⟨-, -, hr⟩)
        · cases (hend _ hr).1
        · refine ⟨?_, fun m hm id hid d hd => ?_⟩
          · exact (unstruck_append (x := [_])).mpr
              ⟨(unstruck_single rfl).mpr hs, hunstruck.mpr ⟨_, hr⟩⟩
          · rcases List.mem_cons.mp hm with rfl | hm
            · cases hid
              exact absurd hd (hno d)
            · have hattach := hothers m hm
              rw [hid] at hattach
              cases hattach
      · rintro ⟨hall, -⟩
        obtain ⟨a, rfl⟩ := hunstruck.mp fun m hm => hall m (List.mem_cons_of_mem _ hm)
        obtain ⟨rfl, hreleased, m, hm, hop⟩ := hend a rfl
        exact Or.inr ⟨⟨m, List.mem_cons_of_mem _ hm, hop⟩,
          hreleased.mono fun _ => List.mem_cons_of_mem _, rfl⟩
  · -- the attach raises
    refine iff_of_false ?_ fun ⟨hall, _⟩ => ?_
    · rintro (⟨-, hr⟩ | ⟨-, -, hr⟩) <;> cases hr
    · rw [(unstruck_single rfl).mp hall] at hs
      cases hs

end Tail

/-! ## From the start of a dial to the answer

The answer is the only one of its kind in a dial, so the moment at which it comes determines the
place in the program. -/

/-- The operation that waits for the provider. -/
def awaits : Op → Bool
  | .awaitOriginate _ _ => true
  | _ => false

section Dial

variable {cfg : Config} {campaign : Campaign} {pair : ReservationPair}

theorem performs_createCall {S : Op → Prop} {draft : CallRepo.CallDraft} (hinsert : S (.insertCall draft))
    (hfind : S (.findCallByIdempotencyKey draft.idempotencyKey)) :
    (CallRepo.createCall draft).Performs S := by
  unfold CallRepo.createCall
  refine .catching (Prog.performs_perform.mpr hinsert) fun e => ?_
  split
  · refine .bind (Prog.performs_perform.mpr hfind) fun existing => ?_
    cases existing with
    | some existing => exact trivial
    | none => exact trivial
  · exact trivial

theorem performs_shouldRetry {S : Op → Prop} {borrower : Borrower} {name : String} (hnow : S .utcNow)
    (hgate : S (.shouldAllowRetry name)) : (RetryService.shouldRetry cfg borrower name).Performs S := by
  unfold RetryService.shouldRetry
  split
  · exact trivial
  · refine .bind (Prog.performs_perform.mpr hnow) fun now => ?_
    split
    · exact trivial
    · exact Prog.performs_perform.mpr hgate

theorem performs_transitionAgent {S : Op → Prop} {agentId : DocId} {s t : AgentState}
    {actor : TransitionActor} {version : Nat} (h : S (.transitionAgent agentId s t actor version)) :
    (transitionAgent agentId s t actor version).Performs S := by
  unfold transitionAgent validateTransition
  refine .bind ?_ fun _ => Prog.performs_perform.mpr h
  split
  · exact trivial
  · split <;> trivial

theorem performs_fail {S : Op → Prop} {callId : DocId} {reason : Option String}
    (hfail : S (.transitionCall callId .FAILED reason))
    (hagent : S (.releaseAgent pair.agent.id pair.workerId .AVAILABLE .ALLOCATOR))
    (hborrower : ∀ attempts backoff,
      S (.releaseBorrower pair.borrower.id pair.workerId .RETRY attempts backoff)) :
    ((call (.transitionCall callId .FAILED reason)).bind fun _ =>
      (release cfg pair .RETRY).bind fun _ => .ret false).Performs S :=
  .bind (Prog.performs_perform.mpr hfail) fun _ => .bind (performs_release hagent hborrower)
    fun _ => Prog.performs_ret false

theorem performs_dialAccepted {S : Op → Prop} {callId : DocId} {result : OriginateResult}
    (hattach : S (.attachProviderCallId callId result.providerCallId))
    (hhangup : S (.hangupCall campaign.providerName result.providerCallId))
    (hfail : ∀ reason, S (.transitionCall callId .FAILED reason))
    (hagent : S (.releaseAgent pair.agent.id pair.workerId .AVAILABLE .ALLOCATOR))
    (hborrower : ∀ attempts backoff,
      S (.releaseBorrower pair.borrower.id pair.workerId .RETRY attempts backoff)) :
    (dialAccepted cfg campaign pair callId result).Performs S := by
  unfold dialAccepted
  refine .bind (Prog.performs_perform.mpr hattach) fun attached => ?_
  cases attached with
  | some _ => exact trivial
  | none => exact .bind (performs_hangup hhangup) fun _ => performs_fail (hfail _) hagent hborrower

/-- **The accepted answer inside `_originate`**: a health sample, and the answer is returned. The
passage is cut at the moment of the answer. It cannot lie behind the wait, as what follows does not
wait for the provider again. -/
theorem originate_accepted {callId : DocId} {k : Option OriginateResult → Py Bool}
    (hk : ∀ result, (k result).Performs fun o => awaits o = false) {before after : List PyMoment}
    {m : PyMoment} {name : String} {request : OriginateRequest} {result : OriginateResult}
    {r : Except Exn Bool}
    (hpass : ((originate cfg campaign pair callId).bind k).Passes exec (before ++ m :: after) r)
    (hm : Accepts m name request result) :
    campaign.providerName ∈ cfg.providers ∧ name = campaign.providerName ∧ request.callId = callId
      ∧ ∃ m₁ after', after = m₁ :: after'
        ∧ m₁.op = .recordOriginate campaign.providerName result.accepted false result.latencyMs
        ∧ (k (some result)).Passes exec after' r := by
  have hawaits : ¬ awaits m.op = false := by
    rw [hm.1]
    exact Bool.true_eq_false_eq_False
  unfold originate providerRegistryGet at hpass
  by_cases hprov : campaign.providerName ∈ cfg.providers
  · rw [if_pos hprov] at hpass
    refine ⟨hprov, ?_⟩
    simp only [Prog.bind_def, Prog.pure_def, Prog.bind_assoc, Prog.ret_bind] at hpass
    obtain ⟨-, before', -, -, -, hpass⟩ :=
      hpass.past (S := fun o => awaits o = false) (Prog.performs_perform.mpr rfl) hawaits
    rcases (Prog.passes_bind _ _ r).mp hpass with ⟨h₁, h₂, outcome, hsplit, hawait, hrest⟩ | ⟨e, hawait, -⟩
    · obtain ⟨σ, env, rfl, houtcome⟩ := passes_outcome hawait
      -- the one await of the dial is the moment of the answer
      have hrestNone : ∀ m' ∈ h₂, awaits m'.op = false := by
        refine Prog.Performs.of_passes (S := fun o => awaits o = false) (.bind ?_ hk) hrest
        split
        all_goals first
          | exact .bind (Prog.performs_perform.mpr rfl) fun _ => Prog.performs_ret _
          | exact trivial
      cases before' with
      | cons m' before' =>
        cases hsplit
        exact absurd (hrestNone m (by simp)) hawaits
      | nil =>
        cases hsplit
        obtain ⟨hop, hans, -⟩ := hm
        cases hop
        rcases houtcome with ⟨a, ha, ho⟩ | ⟨e, he, -⟩
        · cases hans.symm.trans ha
          cases ho
          simp only [Prog.bind_assoc, Prog.ret_bind] at hrest
          obtain ⟨σ', env', after', rfl, ⟨-, -, -, hk'⟩ | ⟨f, hs, -⟩⟩ := passes_call_bind rfl hrest
          · exact ⟨rfl, rfl, _, after', rfl, rfl, hk'⟩
          · -- taking a health sample cannot fail
            exact absurd (strikes_raises hs) Bool.false_ne_true
        · cases hans.symm.trans he
    · obtain ⟨σ, env, -, ⟨a, -, ha⟩ | ⟨e', -, he'⟩⟩ := passes_outcome hawait
      · cases ha
      · cases he'
  · rw [if_neg hprov] at hpass
    exact absurd ((Prog.passes_raise _ _).mp hpass).1 (by simp)

/-- **The accepted answer inside `_dial`**: what is left is `dialAccepted`, after a health sample.
What comes before the originate does not wait for the provider, so the moment lies inside
`_originate`, and the registry has found the provider. -/
theorem dial_accepted {before after : List PyMoment} {m : PyMoment} {name : String}
    {request : OriginateRequest} {result : OriginateResult} {r : Except Exn Bool}
    (hpass : (dial cfg campaign pair).Passes exec (before ++ m :: after) r)
    (hm : Accepts m name request result) :
    campaign.providerName ∈ cfg.providers ∧ name = campaign.providerName
      ∧ ∃ m₁ after', after = m₁ :: after'
        ∧ m₁.op = .recordOriginate campaign.providerName result.accepted false result.latencyMs
        ∧ (dialAccepted cfg campaign pair request.callId result).Passes exec after' r := by
  have hawaits : ¬ awaits m.op = false := by
    rw [hm.1]
    exact Bool.true_eq_false_eq_False
  -- a dial that only gives the pair back awaits no answer
  have hrelease : ∀ (h : List PyMoment), ((release cfg pair .RELEASED).bind fun _ =>
      .ret false).Passes exec (h ++ m :: after) r → False := by
    intro h hp
    exact hawaits (Prog.Performs.of_passes (S := fun o => awaits o = false)
      (.bind (performs_release rfl fun _ _ => rfl) fun _ => Prog.performs_ret false) hp m (by simp))
  have hopen : ∀ (h : List PyMoment), (dialOpen cfg campaign pair).Passes exec (h ++ m :: after) r →
      campaign.providerName ∈ cfg.providers ∧ name = campaign.providerName
      ∧ ∃ m₁ after', after = m₁ :: after'
        ∧ m₁.op = .recordOriginate campaign.providerName result.accepted false result.latencyMs
        ∧ (dialAccepted cfg campaign pair request.callId result).Passes exec after' r := by
    intro h hp
    unfold dialOpen at hp
    obtain ⟨-, h, created, -, -, hp⟩ :=
      hp.past (S := fun o => awaits o = false) (performs_createCall rfl rfl) hawaits
    split at hp
    · exact (hrelease h hp).elim
    · obtain ⟨-, h, -, -, -, hp⟩ :=
        hp.past (S := fun o => awaits o = false) (Prog.performs_perform.mpr rfl) hawaits
      obtain ⟨-, h, initiated, -, -, hp⟩ :=
        hp.past (S := fun o => awaits o = false) (Prog.performs_perform.mpr rfl) hawaits
      cases initiated with
      | none => exact (hrelease h hp).elim
      | some _ =>
        unfold dialInitiated at hp
        obtain ⟨-, h, -, -, -, hp⟩ := hp.past (S := fun o => awaits o = false)
          (performs_transitionAgent rfl) hawaits
        obtain ⟨-, h, -, -, -, hp⟩ :=
          hp.past (S := fun o => awaits o = false) (Prog.performs_perform.mpr rfl) hawaits
        have hanswer := fun hk => originate_accepted hk hp hm
        obtain ⟨hprov, hname, hid, m₁, after', rfl, hop, hk⟩ := hanswer fun answer => by
          cases answer with
          | none => exact performs_fail rfl rfl fun _ _ => rfl
          | some answer =>
            dsimp only
            split
            · exact performs_dialAccepted rfl rfl (fun _ => rfl) rfl fun _ _ => rfl
            · exact performs_fail rfl rfl fun _ _ => rfl
        refine ⟨hprov, hname, m₁, after', rfl, hop, ?_⟩
        simp only [hm.2.2, if_true] at hk
        rw [hid]
        exact hk
  unfold dial at hpass
  split at hpass
  · obtain ⟨-, h, retry, -, -, hpass⟩ :=
      hpass.past (S := fun o => awaits o = false) (performs_shouldRetry rfl rfl) hawaits
    split at hpass
    · exact (hrelease h hpass).elim
    · exact hopen h hpass
  · exact hopen before hpass

theorem Settled.cons_iff {m : PyMoment} {name : String} {callId : DocId} {id : Option String}
    {h : List PyMoment} {r : Except Exn Bool} {success timedOut : Bool} {latency : Int} {provider : String}
    (hop : m.op = .recordOriginate provider success timedOut latency) :
    Settled pair name callId id (m :: h) r ↔ Settled pair name callId id h r := by
  unfold Settled Released RecordsOpen
  simp [hop]

theorem unstruck_cons {m : PyMoment} {h : List PyMoment} {success timedOut : Bool} {latency : Int}
    {provider : String} (hop : m.op = .recordOriginate provider success timedOut latency) :
    Unstruck (m :: h) ↔ Unstruck h := by
  refine (unstruck_append (x := [m])).trans (and_iff_right fun m' hm' f hf => ?_)
  cases List.mem_singleton.mp hm'
  have hraises := strikes_raises hf
  rw [hop] at hraises
  cases hraises

theorem attachedOpen_cons {m : PyMoment} {h : List PyMoment} {callId : DocId} {success timedOut : Bool}
    {latency : Int} {provider : String}
    (hop : m.op = .recordOriginate provider success timedOut latency) :
    AttachedOpen callId (m :: h) ↔ AttachedOpen callId h := by
  unfold AttachedOpen
  simp [hop]

/-- **An accepted originate is settled exactly when nothing strikes the dial after the answer and
the call has not been ended by then.** -/
theorem dial_settles_iff {before after : List PyMoment} {m : PyMoment} {name : String}
    {request : OriginateRequest} {result : OriginateResult} {r : Except Exn Bool}
    (hpass : (dial cfg campaign pair).Passes exec (before ++ m :: after) r)
    (hm : Accepts m name request result) :
    Settled pair campaign.providerName request.callId result.providerCallId after r
      ↔ Unstruck after ∧ AttachedOpen request.callId after := by
  obtain ⟨hprov, -, m₁, after', rfl, hop, hrest⟩ := dial_accepted hpass hm
  rw [Settled.cons_iff hop, unstruck_cons hop, attachedOpen_cons hop]
  exact dialAccepted_settles hprov hrest

end Dial

/-! ## Every dial of every run

A dial that is carried out in a run is an execution among the actions of others. -/

/-- **An accepted originate is settled.** In every run, whoever else runs and whatever fails or
dies: a dial whose originate the provider accepts records the provider's id on an open call and
answers `True`, or hangs up, gives the pair back and answers `False`, exactly when nothing strikes
the dial after the answer and the call has not been ended by the instant at which it takes the
id. -/
theorem accepted_originate_settled {cfg : Config} {σ₀ : Store} {actions : List (Action Job Env)}
    {p : Nat} {campaign : Campaign} {pair : ReservationPair} {h : List PyMoment} {r : Except Exn Bool}
    (hdial : World.CarriesOut (system cfg) (World.fresh σ₀) actions p (dial cfg campaign pair) h r)
    {before after : List PyMoment} {m : PyMoment} {name : String} {request : OriginateRequest}
    {result : OriginateResult} (hsplit : h = before ++ m :: after)
    (haccepts : Accepts m name request result) :
    Settled pair campaign.providerName request.callId result.providerCallId after r
      ↔ Unstruck after ∧ AttachedOpen request.callId after := by
  obtain ⟨-, -, -, -, -, -, -, -, hpass⟩ := hdial
  subst hsplit
  exact dial_settles_iff hpass haccepts

/-! The theorem at the dial of a run in which nobody interferes, and a run in which recovery ends
the call while the provider has not answered. -/

/-- The pair that the worker has reserved. -/
def demoPair : ReservationPair where
  campaignId := demoCampaign.id
  workerId := "w"
  agent := AgentRepo.reserveUpdate 0 "w" 30 demoAgent
  borrower := BorrowerRepo.reserveUpdate 0 "w" 30 demoBorrower

/-- The moments of the worker. -/
def demoMoments : List PyMoment := (World.fresh demoStore).moments (system {}) 0 attachedActions

/-- What an allocator that may make one call does with its pair. -/
def demoDial : Py Outcome :=
  ((dialCompensated {} demoCampaign demoPair).bind fun dialled =>
    if dialled then allocateLoop {} demoCampaign "w" 0 ⟨1, 1, 0, 0⟩ 0
    else allocateLoop {} demoCampaign "w" 0 ⟨1, 0, 1, 0⟩ 0).bind fun counts =>
  .ret (.allocation counts)

theorem dial_starts_demoDial : (dial {} demoCampaign demoPair).Starts demoDial :=
  .bind _ (.bind _ (.catching _ .here))

theorem demo_carriesOut : World.CarriesOut (system {}) (World.fresh demoStore) attachedActions 0
    (dial {} demoCampaign demoPair) (demoMoments.drop 4) (.ok true) := by
  have hsplit : demoMoments = demoMoments.take 4 ++ demoMoments.drop 4 ++ [] := by
    rw [List.append_nil, List.take_append_drop]
  exact .of_spawn hsplit (Prog.leads_of_after rfl) dial_starts_demoDial
    (Prog.passes_of_after (by decide +kernel))

/-- What the provider is asked. -/
def demoRequest : OriginateRequest where
  callId := demoEnv.newId
  campaignId := demoCampaign.id
  phoneNumber := "1"
  timeoutSeconds := 5

/-- The world when the provider is about to answer. -/
def ringing : SystemWorld := (World.fresh demoStore).acts (system {}) (attachedActions.take 11)

/-- The moment at which he accepts. -/
def accepted (σ : Store) : PyMoment := ⟨.awaitOriginate "mock_a" demoRequest, σ, demoEnv⟩

/-- Nothing strikes a list of moments whose environments bring no fault. -/
theorem unstruck_of_none {h : List PyMoment} (hnone : ∀ m ∈ h, (m.env.strikes m.op).isNone = true) :
    Unstruck h := by
  intro m hm f hf
  have := hnone m hm
  rw [hf] at this
  cases this

theorem accepted_originate_settled_demo :
    Settled demoPair "mock_a" demoEnv.newId (some "p") (demoMoments.drop 11) (.ok true) := by
  have hsplit : demoMoments.drop 4
      = (demoMoments.drop 4).take 6 ++ accepted ringing.store :: demoMoments.drop 11 := rfl
  refine (accepted_originate_settled demo_carriesOut hsplit ⟨rfl, rfl, rfl⟩).mpr
    ⟨unstruck_of_none (by decide +kernel), fun m hm id _ d hd => ?_⟩
  have hopen : ∀ m ∈ demoMoments.drop 11, ∀ d ∈ m.found.calls.get? demoEnv.newId,
      CallSm.isTerminal d.state = false := by decide +kernel
  exact hopen m hm d hd.1

/-- An agent who was last heard of at 0 s. -/
def silentStore : Store :=
  { demoStore with agents := ⟨[{ demoAgent with lastHeartbeatAt := some 0 }], List.nodup_singleton _⟩ }

/-- At 29 s. -/
def dialEnv : Env := { demoEnv with now := 29000 }

/-- At 31 s. -/
def sweepEnv : Env := { demoEnv with now := 31000 }

/-- He is dialled at 29 s; at 31 s recovery logs him out and cancels his call, and only then the
provider answers. -/
def cancelledActions : List (Action Job Env) :=
  .spawn 0 (.allocate demoCampaign 1 "w") :: List.replicate 10 (.perform 0 dialEnv)
    ++ .spawn 1 .runSweeps :: List.replicate 10 (.perform 1 sweepEnv)
    ++ List.replicate 4 (.perform 0 sweepEnv)

/-- The moments of the worker. -/
def cancelledMoments : List PyMoment :=
  (World.fresh silentStore).moments (system {}) 0 cancelledActions

/-- The world after recovery. -/
def cancelled : SystemWorld :=
  (World.fresh silentStore).acts (system {}) (cancelledActions.take 22)

/-- The pair that he has reserved at 29 s. -/
def cancelledPair : ReservationPair where
  campaignId := demoCampaign.id
  workerId := "w"
  agent := AgentRepo.reserveUpdate 29000 "w" 30 { demoAgent with lastHeartbeatAt := some 0 }
  borrower := BorrowerRepo.reserveUpdate 29000 "w" 30 demoBorrower

/-- The allocation from the dial on. -/
def cancelledDial : Py Outcome :=
  ((dialCompensated {} demoCampaign cancelledPair).bind fun dialled =>
    if dialled then allocateLoop {} demoCampaign "w" 0 ⟨1, 1, 0, 0⟩ 0
    else allocateLoop {} demoCampaign "w" 0 ⟨1, 0, 1, 0⟩ 0).bind fun counts =>
  .ret (.allocation counts)

theorem dial_starts_cancelledDial : (dial {} demoCampaign cancelledPair).Starts cancelledDial :=
  .bind _ (.bind _ (.catching _ .here))

/-- The id is recorded on a call that has ended, and the dial answers `True`. -/
theorem ended_call_counted : ¬ ∀ (cfg : Config) (σ₀ : Store) (actions : List (Action Job Env)) (p : Nat)
    (campaign : Campaign) (pair : ReservationPair) (h : List PyMoment) (r : Except Exn Bool)
    (before after : List PyMoment) (m : PyMoment) (name : String) (request : OriginateRequest)
    (result : OriginateResult),
    World.CarriesOut (system cfg) (World.fresh σ₀) actions p (dial cfg campaign pair) h r →
    h = before ++ m :: after → Accepts m name request result →
    Settled pair campaign.providerName request.callId result.providerCallId after r := by
  intro hclaim
  have hmoments : cancelledMoments = cancelledMoments.take 4 ++ cancelledMoments.drop 4 ++ [] := by
    rw [List.append_nil, List.take_append_drop]
  have hsplit : cancelledMoments.drop 4 = (cancelledMoments.drop 4).take 6
      ++ ⟨.awaitOriginate "mock_a" demoRequest, cancelled.store, sweepEnv⟩
        :: cancelledMoments.drop 11 := rfl
  have hsettled := hclaim {} silentStore cancelledActions 0 demoCampaign cancelledPair _ (.ok true)
    _ _ _ "mock_a" demoRequest _ (.of_spawn hmoments (Prog.leads_of_after rfl)
      dial_starts_cancelledDial (Prog.passes_of_after (by decide +kernel))) hsplit ⟨rfl, rfl, rfl⟩
  -- the call the id is recorded on has been cancelled
  have hended : ∀ m ∈ cancelledMoments.drop 11, ∀ d ∈ m.found.calls.get? demoEnv.newId,
      CallSm.isTerminal d.state = true := by decide +kernel
  rcases hsettled with ⟨⟨m, hm, -, d, d', hd, hopen, -⟩, -⟩ | ⟨-, -, hr⟩
  · rw [hended m hm d hd] at hopen
    cases hopen
  · cases hr

end CallAllocator

end SmartDialer
