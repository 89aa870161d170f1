import SmartDialer.Model.Operations

/-!
# What an operation does to an agent and to a borrower

`AgentWrite now o g g'` lists the writes of the agent repository with the condition under which
each takes effect; an operation whose filter does not match, or that is struck before its write,
leaves the agent unchanged. The same for borrowers. Every later fact about agents and borrowers
is derived from these two lists.

* `apply_agent`, `apply_borrower`: one case for each operation that writes to the collection.
* `exec_agent`, `exec_borrower`: the same under failures, which strike before the write or after it.
* `exec_agents`, `exec_borrowers`: whole collections, with nobody added and nobody removed.
* `reserveAgent_ok`, `reserveBorrower_ok`: what a reservation that went through has found.
-/

namespace SmartDialer

open DocStore Concurrent

/-- What an operation can make of an agent, with the filter of the source as hypotheses. Each
constructor is one `find_one_and_update` of the repository. -/
inductive AgentWrite (now : Time) : Op → Agent → Agent → Prop where
  | unchanged (o : Op) (g : Agent) : AgentWrite now o g g
  | reserve {g : Agent} (workerId : WorkerId) (ttl : Int) (hstate : g.state = .AVAILABLE) :
      AgentWrite now (.tryReserveAgent g.campaignId g.id workerId ttl) g
        (AgentRepo.reserveUpdate now workerId ttl g)
  | release {g : Agent} {workerId : WorkerId} {t : AgentState} {actor : TransitionActor}
      (hworker : g.reservedBy = some workerId)
      (hstate : g.state ∈ AgentSm.allowedSources t actor) :
      AgentWrite now (.releaseAgent g.id workerId t actor) g
        (AgentRepo.releaseUpdate now t actor g)
  | transition {g : Agent} (t : AgentState) (actor : TransitionActor) :
      AgentWrite now (.transitionAgent g.id g.state t actor g.stateVersion) g
        (AgentRepo.transitionUpdate now g.state t g)
  | bind {g : Agent} {workerId : WorkerId} (callId : DocId)
      (hworker : g.reservedBy = some workerId) :
      AgentWrite now (.bindCall g.id workerId callId) g { g with currentCallId := some callId }
  | reclaim {g candidate : Agent} {sweep t : Time} (hid : candidate.id = g.id)
      (hstate : g.state = candidate.state) (hversion : g.stateVersion = candidate.stateVersion)
      (hlease : g.leaseExpiresAt = some t) (hexpired : t < sweep) :
      AgentWrite now (.releaseExpiredAgentLease candidate sweep) g
        (AgentRepo.leaseReclaimUpdate sweep g)
  | beat (g : Agent) :
      AgentWrite now (.heartbeat g.id) g { g with lastHeartbeatAt := some now }

/-- What an operation can make of a borrower. -/
inductive BorrowerWrite (now : Time) : Op → Borrower → Borrower → Prop where
  | unchanged (o : Op) (g : Borrower) : BorrowerWrite now o g g
  | reserve {g : Borrower} (workerId : WorkerId) (ttl : Int) (hstatus : g.status = .PENDING)
      (heligible : g.nextEligibleAt ≤ now) :
      BorrowerWrite now (.tryReserveBorrower g.campaignId g.id workerId ttl) g
        (BorrowerRepo.reserveUpdate now workerId ttl g)
  | release {g : Borrower} {workerId : WorkerId} (outcome : BorrowerReleaseOutcome) (m b : Int)
      (hworker : g.reservedBy = some workerId)
      (hstatus : g.status ∈ BorrowerRepo.releasableStatuses) :
      BorrowerWrite now (.releaseBorrower g.id workerId outcome m b) g
        (BorrowerRepo.releaseUpdate now outcome m b g)
  | reclaim {g candidate : Borrower} {sweep t : Time} (hid : candidate.id = g.id)
      (hstatus : g.status = candidate.status) (hversion : g.stateVersion = candidate.stateVersion)
      (hlease : g.leaseExpiresAt = some t) (hexpired : t < sweep) :
      BorrowerWrite now (.reclaimBorrowerLease candidate sweep) g
        (BorrowerRepo.reclaimUpdate sweep g)

/-! ## Agents

One update by id and filter leaves an agent as he is or rewrites him; `findOneAndUpdate_of_get?`
gives the two cases and, in the second, the filter. -/

/-- **What one operation makes of an agent.** The writes in `AgentWrite` are those of the
repository, each with its filter; no other operation touches an agent. -/
theorem apply_agent (env : Env) (o : Op) {σ : Store} {a : DocId} {g : Agent}
    (hg : σ.agents.get? a = some g) :
    ∃ g', (apply env o σ).2.agents.get? a = some g' ∧ AgentWrite env.now o g g' := by
  cases o with
  | tryReserveAgent c k w ttl =>
    rcases Collection.findOneAndUpdate_of_get? (k := k)
        (p := fun d => d.campaignId = c ∧ d.state = .AVAILABLE)
        (f := AgentRepo.reserveUpdate env.now w ttl) (fun _ => rfl) hg
      with h | ⟨rfl, ⟨rfl, hstate⟩, h⟩
    · exact ⟨_, h, .unchanged _ _⟩
    · exact ⟨_, h, .reserve w ttl hstate⟩
  | releaseAgent k w t actor =>
    rcases Collection.findOneAndUpdate_of_get? (k := k)
        (p := fun d => d.reservedBy = some w ∧ d.state ∈ AgentSm.allowedSources t actor)
        (f := AgentRepo.releaseUpdate env.now t actor)
        (fun d => AgentRepo.conditionalAccounting_id _ env.now d) hg
      with h | ⟨rfl, ⟨hworker, hstate⟩, h⟩
    · exact ⟨_, h, .unchanged _ _⟩
    · exact ⟨_, h, .release hworker hstate⟩
  | transitionAgent k s t actor v =>
    rcases Collection.findOneAndUpdate_of_get? (k := k)
        (p := fun d => d.state = s ∧ d.stateVersion = v)
        (f := AgentRepo.transitionUpdate env.now s t) (fun _ => rfl) hg
      with h | ⟨rfl, ⟨rfl, rfl⟩, h⟩
    · exact ⟨_, h, .unchanged _ _⟩
    · exact ⟨_, h, .transition t actor⟩
  | bindCall k w c =>
    rcases Collection.findOneAndUpdate_of_get? (k := k) (p := fun d => d.reservedBy = some w)
        (f := fun d : Agent => { d with currentCallId := some c }) (fun _ => rfl) hg
      with h | ⟨rfl, hworker, h⟩
    · exact ⟨_, h, .unchanged _ _⟩
    · exact ⟨_, h, .bind c hworker⟩
  | releaseExpiredAgentLease candidate sweep =>
    rcases Collection.findOneAndUpdate_of_get? (k := candidate.id)
        (p := fun d => d.state = candidate.state ∧ d.stateVersion = candidate.stateVersion
          ∧ ∃ t ∈ d.leaseExpiresAt, t < sweep)
        (f := AgentRepo.leaseReclaimUpdate sweep) (fun _ => rfl) hg
      with h | ⟨hk, ⟨hstate, hversion, t, ht, hexpired⟩, h⟩
    · exact ⟨_, h, .unchanged _ _⟩
    · exact ⟨_, h, .reclaim hk.symm hstate hversion ht hexpired⟩
  | heartbeat k =>
    rcases Collection.findOneAndUpdate_of_get? (k := k) (p := fun _ => True)
        (f := fun d : Agent => { d with lastHeartbeatAt := some env.now }) (fun _ => rfl) hg
      with h | ⟨rfl, -, h⟩
    · exact ⟨_, h, .unchanged _ _⟩
    · exact ⟨_, h, .beat g⟩
  -- the insertion of a call is the one operation elsewhere that has two outcomes
  | insertCall draft =>
    refine ⟨g, ?_, .unchanged _ _⟩
    simp only [apply]
    cases CallRepo.insertCall draft env.newId env.now σ.calls <;> exact hg
  | _ => exact ⟨g, hg, .unchanged _ _⟩

/-- No operation adds an agent. -/
theorem apply_agent_none (env : Env) (o : Op) {σ : Store} {a : DocId}
    (hg : σ.agents.get? a = none) : (apply env o σ).2.agents.get? a = none := by
  cases o with
  | tryReserveAgent | releaseAgent | transitionAgent | bindCall | releaseExpiredAgentLease
  | heartbeat =>
    simp only [apply, AgentRepo.tryReserveAgent, AgentRepo.releaseAgent,
      AgentRepo.transitionAgent, AgentRepo.bindCall, AgentRepo.releaseExpiredAgentLease,
      AgentRepo.heartbeat]
    exact Collection.findOneAndUpdate_eq_none _ hg
  | insertCall draft =>
    simp only [apply]
    cases CallRepo.insertCall draft env.newId env.now σ.calls <;> exact hg
  | _ => exact hg

/-- A failure before the operation leaves every agent unchanged; one after it changes the answer
only. -/
theorem exec_agent (env : Env) (o : Op) {σ : Store} {a : DocId} {g : Agent}
    (hg : σ.agents.get? a = some g) :
    ∃ g', (exec env o σ).2.agents.get? a = some g' ∧ AgentWrite env.now o g g' := by
  rcases exec_store env o σ with h | h
  · rw [h]
    exact ⟨g, hg, .unchanged _ _⟩
  · rw [h]
    exact apply_agent env o hg

/-- Every agent after an operation is one from before, rewritten. -/
theorem exec_agent_before {env : Env} {o : Op} {σ : Store} {a : DocId} {g' : Agent}
    (hg' : (exec env o σ).2.agents.get? a = some g') :
    ∃ g, σ.agents.get? a = some g ∧ AgentWrite env.now o g g' := by
  cases hg : σ.agents.get? a with
  | some g =>
    obtain ⟨g'', hg'', hwrite⟩ := exec_agent env o hg
    cases hg''.symm.trans hg'
    exact ⟨g, rfl, hwrite⟩
  | none =>
    rcases exec_store env o σ with h | h
    · rw [h, hg] at hg'
      cases hg'
    · rw [h, apply_agent_none env o hg] at hg'
      cases hg'

/-! ## Borrowers

The same for the three updates of the borrower repository. -/

/-- **What one operation makes of a borrower.** Likewise with `BorrowerWrite`. -/
theorem apply_borrower (env : Env) (o : Op) {σ : Store} {b : DocId} {g : Borrower}
    (hg : σ.borrowers.get? b = some g) :
    ∃ g', (apply env o σ).2.borrowers.get? b = some g' ∧ BorrowerWrite env.now o g g' := by
  cases o with
  | tryReserveBorrower c k w ttl =>
    rcases Collection.findOneAndUpdate_of_get? (k := k)
        (p := fun d => d.campaignId = c ∧ d.status = .PENDING ∧ d.nextEligibleAt ≤ env.now)
        (f := BorrowerRepo.reserveUpdate env.now w ttl) (fun _ => rfl) hg
      with h | ⟨rfl, ⟨rfl, hstatus, heligible⟩, h⟩
    · exact ⟨_, h, .unchanged _ _⟩
    · exact ⟨_, h, .reserve w ttl hstatus heligible⟩
  | releaseBorrower k w outcome m backoff =>
    rcases Collection.findOneAndUpdate_of_get? (k := k)
        (p := fun d => d.reservedBy = some w ∧ d.status ∈ BorrowerRepo.releasableStatuses)
        (f := BorrowerRepo.releaseUpdate env.now outcome m backoff)
        (fun _ => by cases outcome <;> rfl) hg
      with h | ⟨rfl, ⟨hworker, hstatus⟩, h⟩
    · exact ⟨_, h, .unchanged _ _⟩
    · exact ⟨_, h, .release outcome m backoff hworker hstatus⟩
  | reclaimBorrowerLease candidate sweep =>
    rcases Collection.findOneAndUpdate_of_get? (k := candidate.id)
        (p := fun d => d.status = candidate.status ∧ d.stateVersion = candidate.stateVersion
          ∧ ∃ t ∈ d.leaseExpiresAt, t < sweep)
        (f := BorrowerRepo.reclaimUpdate sweep) (fun _ => rfl) hg
      with h | ⟨hk, ⟨hstatus, hversion, t, ht, hexpired⟩, h⟩
    · exact ⟨_, h, .unchanged _ _⟩
    · exact ⟨_, h, .reclaim hk.symm hstatus hversion ht hexpired⟩
  | insertCall draft =>
    refine ⟨g, ?_, .unchanged _ _⟩
    simp only [apply]
    cases CallRepo.insertCall draft env.newId env.now σ.calls <;> exact hg
  | _ => exact ⟨g, hg, .unchanged _ _⟩

/-- No operation adds a borrower. -/
theorem apply_borrower_none (env : Env) (o : Op) {σ : Store} {b : DocId}
    (hg : σ.borrowers.get? b = none) : (apply env o σ).2.borrowers.get? b = none := by
  cases o with
  | tryReserveBorrower | releaseBorrower | reclaimBorrowerLease =>
    simp only [apply, BorrowerRepo.tryReserveBorrower, BorrowerRepo.releaseBorrower,
      BorrowerRepo.reclaimBorrowerLease]
    exact Collection.findOneAndUpdate_eq_none _ hg
  | insertCall draft =>
    simp only [apply]
    cases CallRepo.insertCall draft env.newId env.now σ.calls <;> exact hg
  | _ => exact hg

theorem exec_borrower (env : Env) (o : Op) {σ : Store} {b : DocId} {g : Borrower}
    (hg : σ.borrowers.get? b = some g) :
    ∃ g', (exec env o σ).2.borrowers.get? b = some g' ∧ BorrowerWrite env.now o g g' := by
  rcases exec_store env o σ with h | h
  · rw [h]
    exact ⟨g, hg, .unchanged _ _⟩
  · rw [h]
    exact apply_borrower env o hg

/-- Every borrower after an operation is one from before, rewritten. -/
theorem exec_borrower_before {env : Env} {o : Op} {σ : Store} {b : DocId} {g' : Borrower}
    (hg' : (exec env o σ).2.borrowers.get? b = some g') :
    ∃ g, σ.borrowers.get? b = some g ∧ BorrowerWrite env.now o g g' := by
  cases hg : σ.borrowers.get? b with
  | some g =>
    obtain ⟨g'', hg'', hwrite⟩ := exec_borrower env o hg
    cases hg''.symm.trans hg'
    exact ⟨g, rfl, hwrite⟩
  | none =>
    rcases exec_store env o σ with h | h
    · rw [h, hg] at hg'
      cases hg'
    · rw [h, apply_borrower_none env o hg] at hg'
      cases hg'

/-! ## Collections before and after

For statements about all agents at once, such as a count, the two collections are compared id by id. -/

/-- No operation adds or removes an agent, and each is rewritten as the list says. -/
theorem exec_agents (env : Env) (o : Op) (σ : Store) (a : DocId) :
    Option.Rel (AgentWrite env.now o) (σ.agents.get? a) ((exec env o σ).2.agents.get? a) := by
  cases hg' : (exec env o σ).2.agents.get? a with
  | some g' =>
    obtain ⟨g, hg, hwrite⟩ := exec_agent_before hg'
    rw [hg]
    exact .some hwrite
  | none =>
    cases hg : σ.agents.get? a with
    | none => exact .none
    | some g =>
      obtain ⟨g', hsome, -⟩ := exec_agent env o hg
      rw [hsome] at hg'
      cases hg'

theorem exec_borrowers (env : Env) (o : Op) (σ : Store) (b : DocId) :
    Option.Rel (BorrowerWrite env.now o) (σ.borrowers.get? b)
      ((exec env o σ).2.borrowers.get? b) := by
  cases hg' : (exec env o σ).2.borrowers.get? b with
  | some g' =>
    obtain ⟨g, hg, hwrite⟩ := exec_borrower_before hg'
    rw [hg]
    exact .some hwrite
  | none =>
    cases hg : σ.borrowers.get? b with
    | none => exact .none
    | some g =>
      obtain ⟨g', hsome, -⟩ := exec_borrower env o hg
      rw [hsome] at hg'
      cases hg'

/-! ## Which operations write to agents and borrowers

For the many operations that write to neither, the frame is an equation between collections. -/

/-- The operations of the agent repository that write. -/
def Op.writesAgents : Op → Bool
  | .tryReserveAgent .. | .releaseAgent .. | .transitionAgent .. | .bindCall ..
  | .releaseExpiredAgentLease .. | .heartbeat .. => true
  | _ => false

/-- The operations of the borrower repository that write. -/
def Op.writesBorrowers : Op → Bool
  | .tryReserveBorrower .. | .releaseBorrower .. | .reclaimBorrowerLease .. => true
  | _ => false

theorem exec_agents_eq {o : Op} (ho : o.writesAgents = false) (env : Env) (σ : Store) :
    (exec env o σ).2.agents = σ.agents := by
  rcases exec_store env o σ with h | h
  · rw [h]
  · rw [h]
    cases o with
    | tryReserveAgent | releaseAgent | transitionAgent | bindCall | releaseExpiredAgentLease
    | heartbeat => cases ho
    | insertCall draft =>
      simp only [apply]
      cases CallRepo.insertCall draft env.newId env.now σ.calls <;> rfl
    | _ => rfl

theorem exec_borrowers_eq {o : Op} (ho : o.writesBorrowers = false) (env : Env) (σ : Store) :
    (exec env o σ).2.borrowers = σ.borrowers := by
  rcases exec_store env o σ with h | h
  · rw [h]
  · rw [h]
    cases o with
    | tryReserveBorrower | releaseBorrower | reclaimBorrowerLease => cases ho
    | insertCall draft =>
      simp only [apply]
      cases CallRepo.insertCall draft env.newId env.now σ.calls <;> rfl
    | _ => rfl

/-! ## Reservations that go through

The answer of a reservation is the document after the update, so it tells what the filter has found
before. -/

/-- A reservation that went through found the agent available, and he is the worker's now. -/
theorem reserveAgent_ok {σ : Store} {env : Env} {campaignId a : DocId} {w : WorkerId} {ttl : Int}
    {agent : Agent} (hr : (exec env (.tryReserveAgent campaignId a w ttl) σ).1 = .ok (some agent)) :
    agent.id = a ∧ agent.state = .RESERVED ∧ agent.reservedBy = some w
      ∧ (exec env (.tryReserveAgent campaignId a w ttl) σ).2.agents.get? a = some agent
      ∧ ∃ g, σ.agents.get? a = some g ∧ g.state = .AVAILABLE := by
  have hexec := exec_of_ok hr
  rw [hexec] at hr ⊢
  rcases Collection.findOneAndUpdate_cases σ.agents a
      (fun d => d.campaignId = campaignId ∧ d.state = .AVAILABLE)
      (AgentRepo.reserveUpdate env.now w ttl) (fun _ => rfl)
    with ⟨g, hg, ⟨-, hstate⟩, hans, hget, -⟩ | ⟨-, hnone, -⟩
  · cases (Except.ok.inj hr).symm.trans hans
    exact ⟨Collection.key_of_get? hg, rfl, rfl, hget, g, hg, hstate⟩
  · cases (Except.ok.inj hr).symm.trans hnone

theorem reserveBorrower_ok {σ : Store} {env : Env} {campaignId b : DocId} {w : WorkerId} {ttl : Int}
    {borrower : Borrower}
    (hr : (exec env (.tryReserveBorrower campaignId b w ttl) σ).1 = .ok (some borrower)) :
    borrower.id = b ∧ borrower.status = .RESERVED ∧ borrower.reservedBy = some w
      ∧ (exec env (.tryReserveBorrower campaignId b w ttl) σ).2.borrowers.get? b = some borrower
      ∧ ∃ g, σ.borrowers.get? b = some g ∧ g.status = .PENDING := by
  have hexec := exec_of_ok hr
  rw [hexec] at hr ⊢
  rcases Collection.findOneAndUpdate_cases σ.borrowers b
      (fun d => d.campaignId = campaignId ∧ d.status = .PENDING ∧ d.nextEligibleAt ≤ env.now)
      (BorrowerRepo.reserveUpdate env.now w ttl) (fun _ => rfl)
    with ⟨g, hg, ⟨-, hstatus, -⟩, hans, hget, -⟩ | ⟨-, hnone, -⟩
  · cases (Except.ok.inj hr).symm.trans hans
    exact ⟨Collection.key_of_get? hg, rfl, rfl, hget, g, hg, hstatus⟩
  · cases (Except.ok.inj hr).symm.trans hnone

end SmartDialer
