import SmartDialer.Recovery.Coverage
import SmartDialer.Ownership.Exclusive
import SmartDialer.Ownership.Leases

/-!
# Nothing stays stuck

Every reservation is leased, so the sweeps can see it. Once every time in the store is over, one
failure-free run of the sweeps leaves nothing behind.

The hypotheses are about the clocks alone. A row that the pass has not touched has been covered by
it, and a row that it has touched is as a sweep leaves it.
-/

namespace SmartDialer

open DocStore Concurrent RecoveryWorker

/-! ## The last word of recovery

`Overdue` asks of every row what the settings allow it at most: leases are over, open calls stale,
wrap-ups stuck. -/

/-- Every time in the store is over at `now`. -/
structure Overdue (cfg : Config) (now : Time) (σ : Store) : Prop where
  agents : ∀ a g, σ.agents.get? a = some g → ∀ t ∈ g.leaseExpiresAt, t < now
  borrowers : ∀ b g, σ.borrowers.get? b = some g → ∀ t ∈ g.leaseExpiresAt, t < now
  calls : ∀ c d, σ.calls.get? c = some d → d.terminal = false →
    d.updatedAt + seconds cfg.settings.CALL_STALE_TIMEOUT_SECONDS < now
  wrapUps : ∀ a g, σ.agents.get? a = some g → g.state = .WRAP_UP →
    g.stateChangedAt + seconds (cfg.settings.WRAP_UP_SECONDS + cfg.settings.WRAP_UP_SECONDS * 2)
      ≤ now

/-- Nobody is held and no call is open. -/
structure Drained (σ : Store) : Prop where
  agents : ∀ a g, σ.agents.get? a = some g → g.state.busy = false ∧ g.state ≠ .WRAP_UP
  borrowers : ∀ b g, σ.borrowers.get? b = some g → g.status.held = false
  calls : ∀ c d, σ.calls.get? c = some d → d.terminal = true

theorem Leased.expired {σ : Store} (h : Leased σ) {cfg : Config} {now : Time}
    (hover : Overdue cfg now σ) {a : DocId} {g : Agent} (hg : σ.agents.get? a = some g)
    (hbusy : g.state.busy = true) : AgentRepo.leaseExpired now g := by
  obtain ⟨hworker, hlease⟩ := h.agents a g hg hbusy
  obtain ⟨t, ht⟩ := Option.ne_none_iff_exists'.mp hlease
  refine ⟨?_, hworker, t, ht, hover.agents a g hg t ht⟩
  revert hbusy
  cases g.state <;> decide

theorem Leased.borrower_expired {σ : Store} (h : Leased σ) {cfg : Config} {now : Time}
    (hover : Overdue cfg now σ) {b : DocId} {g : Borrower} (hg : σ.borrowers.get? b = some g)
    (hheld : g.status.held = true) : BorrowerRepo.leaseExpired now g := by
  obtain ⟨hworker, hlease⟩ := h.borrowers b g hg hheld
  obtain ⟨t, ht⟩ := Option.ne_none_iff_exists'.mp hlease
  exact ⟨of_decide_eq_true hheld, hworker, t, ht, hover.borrowers b g hg t ht⟩

/-- **One pass clears everything away**, if nothing fails and the limit suffices. What is not
drained has a lease, an unfinished call or a wrap-up that is overdue, so one of the sweeps selects
it and deals with it. -/
theorem drained_afterSweeps {cfg : Config} {σ : Store} {envs : Nat → Env} (hleased : Leased σ)
    (hsound : CallsSound σ.calls) (hover : Overdue cfg (envs 0).now σ)
    (hlimit : LimitSuffices cfg σ)
    (henvs : ∀ n, ∀ f ∈ (envs n).fault, f.exn.isProviderError = true) :
    Drained (afterSweeps cfg envs σ) := by
  have hswept := swept_afterSweeps cfg envs σ
  have hcovered := covered_afterSweeps hsound hlimit henvs
  refine ⟨fun a g hg => ?_, fun b g hg => ?_, fun c d hd => ?_⟩
  · have hidle : g.state = .AVAILABLE ∨ g.state = .OFFLINE → g.state.busy = false
        ∧ g.state ≠ .WRAP_UP := by
      rintro (h | h) <;> rw [h] <;> decide
    obtain ⟨g₀, hg₀, hfate⟩ := rel_right (hswept.agents a) hg
    have hid : g₀.id = a := Collection.key_of_get? hg₀
    subst hid
    -- an agent the pass has not touched was not overdue, so he was idle before it
    rcases hfate.fate with rfl | ⟨hoff, -⟩ | ⟨havailable, -⟩
    · cases hbusy : g.state.busy with
      | true =>
        have hdone := hcovered.expiredAgent g hg₀ (hleased.expired hover hg₀ hbusy) g hg
        exact Bool.noConfusion ((hidle hdone).1.symm.trans hbusy)
      | false =>
        refine ⟨rfl, fun hwrap => ?_⟩
        have hstart := hover.wrapUps _ g hg₀ hwrap
        have hdone := hcovered.stuckAgent g hg₀ ⟨hwrap, ?_, nofun⟩ g hg
        · exact (hidle hdone).2 hwrap
        · exact Int.le_sub_right_of_add_le hstart
    · exact hidle (Or.inr hoff)
    · exact hidle (Or.inl havailable)
  · obtain ⟨g₀, hg₀, hfate⟩ := rel_right (hswept.borrowers b) hg
    -- and so with a borrower
    rcases hfate.freed with rfl | ⟨hfree, -⟩
    · have hid : g.id = b := Collection.key_of_get? hg₀
      subst hid
      cases hheld : g.status.held with
      | true =>
        have hexpired := hleased.borrower_expired hover hg₀ hheld
        exact hheld.symm.trans (hcovered.expiredBorrower g hg₀ hexpired g hg)
      | false => rfl
    · exact hfree
  -- an open call would be stale
  · obtain ⟨d₀, hd₀, rfl | ⟨hterm, -⟩⟩ := rel_right (hswept.calls c) hd
    · obtain rfl := Calls.id_of_get? hd₀
      cases hopen : d.terminal with
      | true => rfl
      | false =>
        have hupdated := hover.calls _ d hd₀ hopen
        have hended := hcovered.staleCall d hd₀ ⟨hopen, ?_⟩ d hd
        · exact hopen.symm.trans hended
        · exact Int.lt_sub_right_of_add_lt hupdated
    · exact hterm

/-- **Nothing can stay stuck.** In every world that is reached from a store with no reservation
and no call, every busy agent and every held borrower has a worker and a lease; and once all
times are over, one failure-free run of the sweeps leaves no agent busy or in wrap-up, no
borrower held and no call unfinished. -/
theorem nothing_stuck {cfg : Config} {σ₀ : Store} {w : SystemWorld} (h₀ : σ₀.Unreserved)
    (h : Reachable (system cfg) SystemRegime.anything (World.fresh σ₀) w) :
    Leased w.store ∧ ∀ envs : Nat → Env, Overdue cfg (envs 0).now w.store →
      LimitSuffices cfg w.store →
      (∀ n, ∀ f ∈ (envs n).fault, f.exn.isProviderError = true) →
      Drained (afterSweeps cfg envs w.store) := by
  have hleased := leased_of_reachable h₀.leased h
  exact ⟨hleased, fun envs hover hlimit henvs => drained_afterSweeps hleased
    (callFacts_of_reachable h₀.sound h).sound hover hlimit henvs⟩

/-! The theorem in the middle of a dial that goes no further: half an hour later, recovery has
cleared everything away. -/

def dialingActions : List (Action Job Env) :=
  .spawn 0 (.allocate demoCampaign 1 "w") :: List.replicate 10 (.perform 0 demoEnv)

def dialing : SystemWorld := (World.fresh demoStore).acts (system {}) dialingActions

def muchLater (_ : Nat) : Env := { now := 1800000 }

theorem dialing_overdue : Overdue {} 1800000 dialing.store where
  agents := fun _ g hg =>
    (show ∀ g ∈ dialing.store.agents.docs, ∀ t ∈ g.leaseExpiresAt, t < 1800000 by decide +kernel)
      g (Collection.mem_of_get? hg)
  borrowers := fun _ g hg =>
    (show ∀ g ∈ dialing.store.borrowers.docs, ∀ t ∈ g.leaseExpiresAt, t < 1800000 by
      decide +kernel) g (Collection.mem_of_get? hg)
  calls := fun _ d hd =>
    (show ∀ d ∈ dialing.store.calls.coll.docs, d.terminal = false →
      d.updatedAt + seconds ({} : Config).settings.CALL_STALE_TIMEOUT_SECONDS < 1800000 by
      decide +kernel) d (Collection.mem_of_get? hd)
  wrapUps := fun _ g hg =>
    (show ∀ g ∈ dialing.store.agents.docs, g.state = .WRAP_UP →
      g.stateChangedAt + seconds (({} : Config).settings.WRAP_UP_SECONDS
        + ({} : Config).settings.WRAP_UP_SECONDS * 2) ≤ 1800000 by decide +kernel) g
      (Collection.mem_of_get? hg)

theorem nothing_stuck_demo : Drained (afterSweeps {} muchLater dialing.store) :=
  (nothing_stuck demoStore_unreserved (Reachable.of_acts _ dialingActions (fun _ _ _ => trivial)
    fun _ _ _ _ => trivial)).2 muchLater dialing_overdue (by constructor <;> decide +kernel)
    fun _ _ hf => nomatch hf

end SmartDialer
