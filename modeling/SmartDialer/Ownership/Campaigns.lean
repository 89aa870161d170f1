import SmartDialer.Calls.Evolution
import SmartDialer.System.Effects

/-!
# Calls stay within their campaign

The allocator reserves for a campaign, and nothing it does afterwards looks at the campaign again:
that a call never joins an agent of one campaign with a borrower of another is a fact about the
filters of the two reservations and about what a dial carries from stage to stage.

The invariant is `CampaignsApart`, over the calls and the stages: what a thread has claimed is of
the campaign it dials for, and so is the call that it creates from it. Documents are only ever
rewritten, never moved to another campaign, so what holds once holds for good.
-/

namespace SmartDialer

open DocStore Concurrent

/-- Agent and borrower are there and belong to the campaign. -/
structure PartiesOf (σ : Store) (campaignId agentId borrowerId : DocId) : Prop where
  agent : ∃ g, σ.agents.get? agentId = some g ∧ g.campaignId = campaignId
  borrower : ∃ b, σ.borrowers.get? borrowerId = some b ∧ b.campaignId = campaignId

/-- The call joins parties of its own campaign. -/
def Call.Within (σ : Store) (d : Call) : Prop := PartiesOf σ d.campaignId d.agentId d.borrowerId

/-- What a thread has claimed is of the campaign it dials for. -/
def Stage.Within (σ : Store) : Stage → Prop
  | .agentClaimed campaign _ agent =>
    ∃ g, σ.agents.get? agent.id = some g ∧ g.campaignId = campaign.id
  | .pairClaimed campaign pair | .callQueued campaign pair _ | .callInitiated campaign pair _
  | .callOriginated campaign pair _ | .agentReturned campaign pair =>
    PartiesOf σ campaign.id pair.agent.id pair.borrower.id
  | _ => True

/-! ## Documents keep their campaign

No write of the repositories touches `campaign_id`, which the two lists of writes show case by case. -/

theorem AgentWrite.campaignId {now : Time} {o : Op} {g g' : Agent} (h : AgentWrite now o g g') :
    g'.campaignId = g.campaignId := by
  cases h with
  | release =>
    show (AgentRepo.conditionalAccounting _ now g).campaignId = g.campaignId
    unfold AgentRepo.conditionalAccounting
    split <;> rfl
  | _ => rfl

theorem BorrowerWrite.campaignId {now : Time} {o : Op} {b b' : Borrower}
    (h : BorrowerWrite now o b b') : b'.campaignId = b.campaignId := by
  cases h with
  | release outcome => cases outcome <;> rfl
  | _ => rfl

theorem PartiesOf.exec {σ : Store} {k a b : DocId} (h : PartiesOf σ k a b) (env : Env) (o : Op) :
    PartiesOf (exec env o σ).2 k a b := by
  obtain ⟨⟨g, hg, hgk⟩, ⟨d, hd, hdk⟩⟩ := h
  obtain ⟨g', hg', hgw⟩ := exec_agent env o hg
  obtain ⟨d', hd', hdw⟩ := exec_borrower env o hd
  exact ⟨⟨g', hg', hgw.campaignId.trans hgk⟩, ⟨d', hd', hdw.campaignId.trans hdk⟩⟩

theorem Stage.Within.exec {σ : Store} {s : Stage} (h : s.Within σ) (env : Env) (o : Op) :
    s.Within (exec env o σ).2 := by
  cases s with
  | agentClaimed campaign w agent =>
    obtain ⟨g, hg, hk⟩ := h
    obtain ⟨g', hg', hwrite⟩ := exec_agent env o hg
    exact ⟨g', hg', hwrite.campaignId.trans hk⟩
  | pairClaimed campaign pair | agentReturned campaign pair => exact PartiesOf.exec h env o
  | callQueued campaign pair | callInitiated campaign pair | callOriginated campaign pair =>
    exact PartiesOf.exec h env o
  | _ => trivial

/-! ## Reservations are made for a campaign

The filters of both reservations name the campaign, so the document that is answered is one of it. -/

theorem reserveAgent_campaign {σ : Store} {env : Env} {k a : DocId} {w : WorkerId} {ttl : Int}
    {agent : Agent} (hr : (exec env (.tryReserveAgent k a w ttl) σ).1 = .ok (some agent)) :
    ∃ g, (exec env (.tryReserveAgent k a w ttl) σ).2.agents.get? agent.id = some g
      ∧ g.campaignId = k := by
  obtain ⟨hid, -, -, hget, -⟩ := reserveAgent_ok hr
  refine ⟨agent, hid ▸ hget, ?_⟩
  rw [exec_of_ok hr] at hr
  rcases Collection.findOneAndUpdate_cases σ.agents a
      (fun d => d.campaignId = k ∧ d.state = .AVAILABLE)
      (AgentRepo.reserveUpdate env.now w ttl) (fun _ => rfl)
    with ⟨g, -, ⟨hk, -⟩, hans, -, -⟩ | ⟨-, hnone, -⟩
  · cases (Except.ok.inj hr).symm.trans hans
    exact hk
  · cases (Except.ok.inj hr).symm.trans hnone

theorem reserveBorrower_campaign {σ : Store} {env : Env} {k b : DocId} {w : WorkerId} {ttl : Int}
    {borrower : Borrower}
    (hr : (exec env (.tryReserveBorrower k b w ttl) σ).1 = .ok (some borrower)) :
    ∃ d, (exec env (.tryReserveBorrower k b w ttl) σ).2.borrowers.get? borrower.id = some d
      ∧ d.campaignId = k := by
  obtain ⟨hid, -, -, hget, -⟩ := reserveBorrower_ok hr
  refine ⟨borrower, hid ▸ hget, ?_⟩
  rw [exec_of_ok hr] at hr
  rcases Collection.findOneAndUpdate_cases σ.borrowers b
      (fun d => d.campaignId = k ∧ d.status = .PENDING ∧ d.nextEligibleAt ≤ env.now)
      (BorrowerRepo.reserveUpdate env.now w ttl) (fun _ => rfl)
    with ⟨d, -, ⟨hk, -⟩, hans, -, -⟩ | ⟨-, hnone, -⟩
  · cases (Except.ok.inj hr).symm.trans hans
    exact hk
  · cases (Except.ok.inj hr).symm.trans hnone

/-! ## Step

Two steps bring somebody new into a thread's hands, and only these depend on the answer. For all
others it is enough to know which stage can follow which. -/

theorem Stage.within_struck (σ : Store) (pair : ReservationPair) (e : Exn) :
    (pair.struck e).Within σ := by
  cases e <;> trivial

/-- **What the next stage carries** is of the campaign. Agents and borrowers come from queries of
the campaign, calls from drafts that name it, and an event or a sweep takes the parties from the
call. -/
theorem Stage.Within.next {σ : Store} {s : Stage} {env : Env} {o : Op} (h : s.Within σ)
    (hemits : Emits s o) : (s.next o (SmartDialer.exec env o σ).1).Within
      (SmartDialer.exec env o σ).2 := by
  have hmono := h.exec env o
  -- only the two reservations bring in somebody new
  by_cases hagent : ∃ k a w ttl, o = .tryReserveAgent k a w ttl
  · obtain ⟨k, a, w, ttl, rfl⟩ := hagent
    cases hemits with
    | reserveAgent =>
      rcases hr : (SmartDialer.exec env (.tryReserveAgent _ a w ttl) σ).1 with e | (_ | agent)
      · trivial
      · trivial
      · exact reserveAgent_campaign hr
  by_cases hborrower : ∃ k b w ttl, o = .tryReserveBorrower k b w ttl
  · obtain ⟨k, b, w, ttl, rfl⟩ := hborrower
    cases hemits with
    | reserveBorrower =>
      rcases hr : (SmartDialer.exec env (.tryReserveBorrower _ b w ttl) σ).1 with e | (_ | borrower)
      · exact hmono
      · exact hmono
      · exact ⟨hmono, reserveBorrower_campaign hr⟩
  generalize (SmartDialer.exec env o σ).1 = r
  generalize (SmartDialer.exec env o σ).2 = σ' at hmono
  have hprecedes := precedes_next s o r
  generalize hs' : s.next o r = s' at hprecedes
  cases hprecedes with
  | stays => exact hmono
  -- a claim that is no reservation cannot be
  | @claims campaign w agent =>
    exfalso
    revert hs'
    show Stage.nextAllocating campaign w o r = _ → _
    unfold Stage.nextAllocating
    split
    · exact fun _ => hagent ⟨_, _, _, _, rfl⟩
    · nofun
  | @pairs campaign w agent borrower =>
    exfalso
    revert hs'
    show Stage.nextAgentClaimed campaign w agent o r = _ → _
    unfold Stage.nextAgentClaimed
    split
    · exact fun _ => hborrower ⟨_, _, _, _, rfl⟩
    · nofun
    · nofun
  | queues | returnsAgent | initiates | isOvertaken | originates | failsCall => exact hmono
  | isStruck e => exact Stage.within_struck σ' _ e
  | _ => trivial

/-- Every call and every stage is within its campaign. -/
structure CampaignsApart (σ : Store) (st : Nat → Stage) : Prop where
  calls : ∀ c d, σ.calls.get? c = some d → d.Within σ
  stages : ∀ p, (st p).Within σ

/-- An operation inserts a call only at the stage that has the pair, with the pair's parties and for
its campaign. -/
theorem CampaignsApart.op {σ : Store} {st : Nat → Stage} (h : CampaignsApart σ st) (p : Nat)
    {o : Op} (env : Env) (hemits : Emits (st p) o) :
    CampaignsApart (exec env o σ).2 (Function.update st p ((st p).next o (exec env o σ).1)) where
  calls := fun c d' hd' => by
    cases hd : σ.calls.get? c with
    | some d =>
      obtain ⟨d'', hd'', hev⟩ := exec_evolves env o σ c d hd
      cases hd''.symm.trans hd'
      show PartiesOf _ _ _ _
      rw [hev.campaignId, hev.agentId, hev.borrowerId]
      exact (h.calls c d hd).exec env o
    | none =>
      -- a new call is for the pair of the thread that inserts it
      rcases exec_store env o σ with hstore | hstore
      · rw [hstore, hd] at hd'
        cases hd'
      · rw [hstore] at hd'
        obtain ⟨draft, rfl, -, rfl, -⟩ := apply_call_new env o hd hd'
        have hstage := h.stages p
        generalize st p = s at hemits hstage
        cases hemits with
        | createCall => exact PartiesOf.exec hstage env _
  stages := fun q => by
    by_cases hq : q = p
    · rw [hq, Function.update_self]
      exact (h.stages p).next hemits
    · rw [Function.update_of_ne hq]
      exact (h.stages q).exec env o

theorem campaignsApart_of_reachable {cfg : Config} {R : SystemRegime} {σ₀ : Store} {w : SystemWorld}
    (h₀ : ∀ c d, σ₀.calls.get? c = some d → d.Within σ₀)
    (h : Reachable (system cfg) R (World.fresh σ₀) w) :
    CampaignsApart w.store (w.lastStage (system cfg)) := by
  refine h.invariant (I := fun σ _ st => CampaignsApart σ st) system_conforms
    ⟨fun p job hI _ _ => ⟨hI.calls, fun q => ?_⟩, fun p _ env hI hemits _ _ => hI.op p env hemits⟩
    (World.Obeys.fresh _ σ₀) ⟨h₀, fun _ => trivial⟩
  by_cases hq : q = p
  · rw [hq, Function.update_self]
    cases job <;> trivial
  · rw [Function.update_of_ne hq]
    exact hI.stages q

end SmartDialer
