import SmartDialer.Calls.Lifecycle
import SmartDialer.System.Effects

/-!
# Reservations are leases

`Leased` is an invariant of every run, whatever fails and whoever interferes: a busy agent and a
held borrower carry a worker and a lease.

The sweeps find expired reservations by their lease only. A busy agent without a lease would be
stuck for good, so that there is none is what every later result on recovery starts from.
-/

namespace SmartDialer

open DocStore Concurrent

/-- Every reservation is visible to the sweeps. -/
structure Leased (σ : Store) : Prop where
  agents : ∀ a g, σ.agents.get? a = some g → g.state.busy = true →
    g.reservedBy ≠ none ∧ g.leaseExpiresAt ≠ none
  borrowers : ∀ b g, σ.borrowers.get? b = some g → g.status.held = true →
    g.reservedBy ≠ none ∧ g.leaseExpiresAt ≠ none

/-! ## No operation makes a busy agent or a held borrower without a lease

Reservations write the lease with the state. Everything else leaves lease and state as they are,
clears both, or moves an agent between states; the last is where the tables come in, since
`transition_agent` could make an idle agent busy if they let it. -/

theorem AgentSm.Valid.busy_of_busy {s t : AgentState} {actor : TransitionActor}
    (h : AgentSm.Valid s t actor) (hactor : actor ≠ .ALLOCATOR) (ht : t.busy = true) :
    s.busy = true := by
  obtain ⟨hcan, hallowed⟩ := h
  revert hcan hallowed hactor ht
  cases s <;> cases t <;> cases actor <;> decide

/-- Only `try_reserve_agent` makes an idle agent busy: the one transition of the allocator starts
from `RESERVED`. -/
theorem Emits.busy_of_busy_target {stage : Stage} {a : DocId} {s t : AgentState}
    {actor : TransitionActor} {v : Nat} (h : Emits stage (.transitionAgent a s t actor v))
    (ht : t.busy = true) : s.busy = true := by
  cases h with
  | agentDials => rfl
  | advanceAgent _ hvalid _ => exact hvalid.busy_of_busy nofun ht
  | moveAgent _ hvalid _ => exact hvalid.busy_of_busy nofun ht
  | act _ hvalid => exact hvalid.busy_of_busy nofun ht
  | finishWrapUp => cases ht

/-- No release leaves an agent busy: each is to `AVAILABLE` or to the state that a finished call
implies. -/
theorem Emits.release_not_busy {stage : Stage} {a : DocId} {w : WorkerId} {t : AgentState}
    {actor : TransitionActor} (h : Emits stage (.releaseAgent a w t actor)) : t.busy = false := by
  cases h with
  | settleAgent hterm hstate =>
    rename_i target _
    revert hterm hstate
    cases target <;> intro hterm hstate <;> cases hstate <;> first | rfl | cases hterm
  | _ => rfl

/-- **Reservations stay leases** under every operation that a stage emits, failed or not. -/
theorem Leased.op {σ : Store} (h : Leased σ) {stage : Stage} {o : Op} (env : Env)
    (hemits : Emits stage o) : Leased (exec env o σ).2 where
  agents := fun a g' hg' hbusy => by
    obtain ⟨g, hg, hwrite⟩ := exec_agent_before hg'
    have hleased := h.agents a g hg
    cases hwrite with
    | unchanged => exact hleased hbusy
    | reserve => exact ⟨nofun, nofun⟩
    | release => exact Bool.noConfusion (hemits.release_not_busy.symm.trans hbusy)
    -- a transition between busy states keeps the lease
    | transition => exact hleased (hemits.busy_of_busy_target hbusy)
    | bind => exact hleased hbusy
    | reclaim => cases hbusy
    | beat => exact hleased hbusy
  borrowers := fun b g' hg' hheld => by
    obtain ⟨g, hg, hwrite⟩ := exec_borrower_before hg'
    cases hwrite with
    | unchanged => exact h.borrowers b _ hg hheld
    | reserve => exact ⟨nofun, nofun⟩
    | release =>
      rw [BorrowerRepo.not_held_releaseUpdate] at hheld
      cases hheld
    | reclaim => cases hheld

/-- No reservation and no call: the store before the first job. -/
structure Store.Unreserved (σ : Store) : Prop where
  agents : ∀ a g, σ.agents.get? a = some g → g.state.busy = false
  borrowers : ∀ b g, σ.borrowers.get? b = some g → g.status.held = false
  calls : ∀ c, σ.calls.get? c = none

theorem Store.Unreserved.of_docs {σ : Store} (hagents : ∀ g ∈ σ.agents.docs, g.state.busy = false)
    (hborrowers : ∀ g ∈ σ.borrowers.docs, g.status.held = false)
    (hcalls : ∀ c, σ.calls.get? c = none) : σ.Unreserved where
  agents := fun _ g hg => hagents g (Collection.mem_of_get? hg)
  borrowers := fun _ g hg => hborrowers g (Collection.mem_of_get? hg)
  calls := hcalls

theorem demoStore_unreserved : demoStore.Unreserved := .of_docs (by decide) (by decide) fun _ => rfl

theorem Store.Unreserved.leased {σ : Store} (h : σ.Unreserved) : Leased σ where
  agents := fun a g hg hbusy => by
    rw [h.agents a g hg] at hbusy
    cases hbusy
  borrowers := fun b g hg hheld => by
    rw [h.borrowers b g hg] at hheld
    cases hheld

theorem Store.Unreserved.sound {σ : Store} (h : σ.Unreserved) : CallsSound σ.calls := by
  intro c d hd
  rw [h.calls c] at hd
  cases hd

theorem leased_of_reachable {cfg : Config} {R : SystemRegime} {σ₀ : Store} {w : SystemWorld}
    (h₀ : Leased σ₀) (h : Reachable (system cfg) R (World.fresh σ₀) w) : Leased w.store :=
  h.invariant (I := fun σ _ _ => Leased σ) system_conforms
    { spawn := fun _ _ h _ _ => h
      op := fun _ _ env h hemits _ _ => h.op env hemits } (World.Obeys.fresh _ σ₀) h₀

end SmartDialer
