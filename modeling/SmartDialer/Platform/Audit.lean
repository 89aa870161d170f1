import SmartDialer.Dialers.Creations
import SmartDialer.Platform.Refinement

/-!
# The calls of a worker are on its books

A worker lists the running campaigns, takes a snapshot of each, logs a pacing decision and dials. Its
own history is the account of what it may create: a listing opens it, a logged decision grants calls
for one campaign, and every call created spends one of them.

The argument has three parts:

* the books (`Books`) are a fold over the history of the thread, and `exists_account` says what
  credit means: what is left of the decision it comes from;
* a worker creates calls within its credit (`auditing_conforms`), since one tick creates no more
  than was requested and its decision has just been logged;
* what the history holds was answered by stores of the run, so the campaign was running and the
  decision is in the log (`calls_on_the_books`).
-/

namespace SmartDialer

open Concurrent HostFloat Machine CallAllocator

variable {F : Type}

/-! ## The books

`Listing` and `Account` point into a history: at the last listing, and at the last decision about a
campaign since. Both are found by going through the history from its end, an entry at a time, by
what kind of entry it is. -/

/-- What a worker may go by: the campaigns it has listed last, and how many calls it may still
create for each. -/
structure Books (F : Type) where
  listed : List (CampaignDocument F) := []
  credit : DocId → Nat := fun _ => 0

/-- A platform operation and its answer. -/
abbrev PlatformHappening (F : Type) :=
  Happening (Op ⊕ PlatformOp F) (EitherRes Res (PlatformRes F)) Exn

/-- One entry. A listing replaces the campaigns and ends all credit, a snapshot ends the credit of
its campaign, a logged decision grants what it requests, and a call spends one. -/
def Books.enter (books : Books F) : PlatformHappening F → Books F
  | ⟨.inr (.findRunning _), .ok campaigns⟩ => { listed := campaigns }
  | ⟨.inr (.findRunning _), .error _⟩ => {}
  | ⟨.inr (.exchangeAvailable _ campaignId _), _⟩ =>
    { books with credit := Function.update books.credit campaignId 0 }
  | ⟨.inr (.recordPacingRequest campaignId request), .ok _⟩ =>
    { books with credit := Function.update books.credit campaignId request.requested.toNat }
  | ⟨.inl (.insertCall draft), _⟩ =>
    { books with
      credit := Function.update books.credit draft.campaignId (books.credit draft.campaignId - 1) }
  | _ => books

/-- The books after a history, from empty ones. -/
def booksOf (h : PlatformHistory F) : Books F := h.foldl Books.enter {}

theorem booksOf_append (h : PlatformHistory F) (x : PlatformHappening F) :
    booksOf (h ++ [x]) = (booksOf h).enter x := by
  unfold booksOf
  rw [List.foldl_append]
  rfl

/-- A call is created on the credit of a campaign that is listed. -/
def OnTheBooks (h : PlatformHistory F) (o : Op ⊕ PlatformOp F) : Prop :=
  ∀ draft, o = .inl (.insertCall draft) → 0 < (booksOf h).credit draft.campaignId
    ∧ ∃ campaign ∈ (booksOf h).listed, campaign.id = draft.campaignId

namespace PlatformHappening

/-- A listing of the running campaigns. -/
def lists (x : PlatformHappening F) : Bool :=
  match x.op with
  | .inr (.findRunning _) => true
  | _ => false

/-- A new snapshot of the campaign, or a new decision. -/
def renews (campaignId : DocId) (x : PlatformHappening F) : Bool :=
  match x with
  | ⟨.inr (.exchangeAvailable _ c _), _⟩ | ⟨.inr (.recordPacingRequest c _), .ok _⟩ =>
    c = campaignId
  | _ => false

/-- The creation of a call for the campaign, whatever comes of it. -/
def createsFor (campaignId : DocId) (x : PlatformHappening F) : Bool :=
  match x.op with
  | .inl (.insertCall draft) => draft.campaignId = campaignId
  | _ => false

/-- What an entry is to the books. -/
inductive Kind : PlatformHappening F → Prop where
  | listing (limit : Int) (campaigns : List (CampaignDocument F)) :
      Kind ⟨.inr (.findRunning limit), .ok campaigns⟩
  | noListing (limit : Int) (e : Exn) : Kind ⟨.inr (.findRunning limit), .error e⟩
  | snapshot (workerId : WorkerId) (campaignId : DocId) (available : Int) (r : Except Exn Int) :
      Kind ⟨.inr (.exchangeAvailable workerId campaignId available), r⟩
  | decision (campaignId : DocId) (request : PacingRequest F) (decisionId : DocId) :
      Kind ⟨.inr (.recordPacingRequest campaignId request), .ok decisionId⟩
  | creation (draft : CallRepo.CallDraft) (r : Except Exn Call) : Kind ⟨.inl (.insertCall draft), r⟩
  | other {x : PlatformHappening F} (hlists : x.lists = false) (hrenews : ∀ c, x.renews c = false)
      (hcreates : ∀ c, x.createsFor c = false) (henter : ∀ books : Books F, books.enter x = books) :
      Kind x

/-- Every entry is of one of these kinds. -/
theorem kind (x : PlatformHappening F) : x.Kind := by
  obtain ⟨o, r⟩ := x
  cases o with
  | inl o =>
    cases o with
    | insertCall draft => exact .creation draft r
    | _ => exact .other rfl (fun _ => rfl) (fun _ => rfl) fun _ => rfl
  | inr o =>
    cases o with
    | findRunning limit =>
      cases r with
      | ok campaigns => exact .listing limit campaigns
      | error e => exact .noListing limit e
    | exchangeAvailable workerId c available => exact .snapshot workerId c available r
    | recordPacingRequest c request =>
      cases r with
      | ok decisionId => exact .decision c request decisionId
      | error e => exact .other rfl (fun _ => rfl) (fun _ => rfl) fun _ => rfl
    | _ => exact .other rfl (fun _ => rfl) (fun _ => rfl) fun _ => rfl

end PlatformHappening

/-- The last listing of a history, and what has happened since. -/
structure Listing (h : PlatformHistory F) where
  earlier : PlatformHistory F
  limit : Int
  campaigns : List (CampaignDocument F)
  later : PlatformHistory F
  history : h = earlier ++ ⟨.inr (.findRunning limit), .ok campaigns⟩ :: later
  latest : ∀ x : PlatformHappening F, x ∈ later → x.lists = false

theorem Listing.mem {h : PlatformHistory F} (l : Listing h) :
    (⟨.inr (.findRunning l.limit), .ok l.campaigns⟩ : PlatformHappening F) ∈ h :=
  (congrArg (_ ∈ ·) l.history).mpr (List.mem_append_right _ List.mem_cons_self)

/-- The same listing, after something else. -/
def Listing.push {h : PlatformHistory F} (l : Listing h) {x : PlatformHappening F}
    (hx : x.lists = false) : Listing (h ++ [x]) where
  earlier := l.earlier
  limit := l.limit
  campaigns := l.campaigns
  later := l.later ++ [x]
  history := (congrArg (· ++ [x]) l.history).trans (by simp)
  latest := fun y hy => by
    rcases List.mem_append.mp hy with hy | hy
    · exact l.latest y hy
    · exact List.mem_singleton.mp hy ▸ hx

/-- What is listed was answered by the last listing. -/
theorem exists_listing (h : PlatformHistory F) (hlisted : (booksOf h).listed ≠ []) :
    ∃ l : Listing h, l.campaigns = (booksOf h).listed := by
  -- on the history, from its last entry
  induction h using List.reverseRecOn with
  | nil => exact absurd rfl hlisted
  | append_singleton h x ih =>
    rw [booksOf_append] at hlisted ⊢
    cases PlatformHappening.kind x with
    | listing limit campaigns =>
      exact ⟨⟨h, limit, campaigns, [], rfl, fun _ hy => absurd hy List.not_mem_nil⟩, rfl⟩
    | noListing limit e => exact absurd rfl hlisted
    -- what lists nothing leaves the listing where it was
    | snapshot | decision | creation =>
      obtain ⟨l, hl⟩ := ih hlisted
      exact ⟨l.push rfl, hl⟩
    | other hx _ _ henter =>
      rw [henter] at hlisted ⊢
      obtain ⟨l, hl⟩ := ih hlisted
      exact ⟨l.push hx, hl⟩

/-- A decision about a campaign after the last listing, and what has been done on it. -/
structure Account (h : PlatformHistory F) (campaignId : DocId) extends Listing h where
  round : PlatformHistory F
  request : PacingRequest F
  decisionId : DocId
  dials : PlatformHistory F
  since : later = round ++ ⟨.inr (.recordPacingRequest campaignId request), .ok decisionId⟩ :: dials
  newest : ∀ x : PlatformHappening F, x ∈ dials → x.renews campaignId = false

namespace Account

variable {h : PlatformHistory F} {campaignId : DocId}

/-- How many calls have been created on the decision. -/
def created (a : Account h campaignId) : Nat :=
  a.dials.countP (PlatformHappening.createsFor campaignId)

theorem mem (a : Account h campaignId) :
    (⟨.inr (.recordPacingRequest campaignId a.request), .ok a.decisionId⟩ : PlatformHappening F)
      ∈ h := by
  have hlater : (⟨.inr (.recordPacingRequest campaignId a.request), .ok a.decisionId⟩ :
      PlatformHappening F) ∈ a.later :=
    (congrArg (_ ∈ ·) a.since).mpr (List.mem_append_right _ List.mem_cons_self)
  exact (congrArg (_ ∈ ·) a.history).mpr (List.mem_append_right _ (List.mem_cons_of_mem _ hlater))

/-- The decision that has just been logged. -/
def opening (l : Listing h) (campaignId : DocId) (request : PacingRequest F) (decisionId : DocId) :
    Account (h ++ [⟨.inr (.recordPacingRequest campaignId request), .ok decisionId⟩]) campaignId where
  toListing := l.push rfl
  round := l.later
  request := request
  decisionId := decisionId
  dials := []
  since := rfl
  newest := fun _ hx => absurd hx List.not_mem_nil

/-- The same decision, after something else. -/
def push (a : Account h campaignId) {x : PlatformHappening F} (hx : x.lists = false)
    (hnew : x.renews campaignId = false) : Account (h ++ [x]) campaignId where
  toListing := a.toListing.push hx
  round := a.round
  request := a.request
  decisionId := a.decisionId
  dials := a.dials ++ [x]
  since := (congrArg (· ++ [x]) a.since).trans (by simp)
  newest := fun y hy => by
    rcases List.mem_append.mp hy with hy | hy
    · exact a.newest y hy
    · exact List.mem_singleton.mp hy ▸ hnew

/-- What creates nothing leaves what is left. -/
theorem carry (a : Account h campaignId) {x : PlatformHappening F} (hx : x.lists = false)
    (hnew : x.renews campaignId = false) (hcreates : x.createsFor campaignId = false) {n : Nat}
    (hleft : a.created + n = a.request.requested.toNat) :
    ∃ a' : Account (h ++ [x]) campaignId, a'.campaigns = a.campaigns
      ∧ a'.created + n = a'.request.requested.toNat := by
  have hsame : (a.push hx hnew).created = a.created := by
    show (a.dials ++ [x]).countP _ = a.dials.countP _
    rw [List.countP_append, List.countP_singleton, hcreates]
    rfl
  exact ⟨a.push hx hnew, rfl, hsame ▸ hleft⟩

/-- A call takes one. -/
theorem spend (a : Account h campaignId) {x : PlatformHappening F} (hx : x.lists = false)
    (hnew : x.renews campaignId = false) (hcreates : x.createsFor campaignId = true) {n : Nat}
    (hleft : a.created + (n + 1) = a.request.requested.toNat) :
    ∃ a' : Account (h ++ [x]) campaignId, a'.campaigns = a.campaigns
      ∧ a'.created + n = a'.request.requested.toNat := by
  have hmore : (a.push hx hnew).created = a.created + 1 := by
    show (a.dials ++ [x]).countP _ = a.dials.countP _ + 1
    rw [List.countP_append, List.countP_singleton, if_pos hcreates]
  refine ⟨a.push hx hnew, rfl, ?_⟩
  show (a.push hx hnew).created + n = a.request.requested.toNat
  omega

end Account

/-- **Credit is what is left of a decision.** By induction on the history, from the back: the last
pacing request opens the account, and each insertion after it has taken one off. -/
theorem exists_account (h : PlatformHistory F) (campaignId : DocId)
    (hcredit : 0 < (booksOf h).credit campaignId) (hlisted : (booksOf h).listed ≠ []) :
    ∃ a : Account h campaignId, a.campaigns = (booksOf h).listed
      ∧ a.created + (booksOf h).credit campaignId = a.request.requested.toNat := by
  -- on the history, from its last entry
  induction h using List.reverseRecOn with
  | nil => exact absurd rfl hlisted
  | append_singleton h x ih =>
    rw [booksOf_append] at hcredit hlisted ⊢
    -- an entry that is not about the campaign
    have hcarry : ∀ {x : PlatformHappening F} (hx : x.lists = false)
        (hnew : x.renews campaignId = false) (hcreates : x.createsFor campaignId = false),
        0 < (booksOf h).credit campaignId → (booksOf h).listed ≠ [] →
        ∃ a : Account (h ++ [x]) campaignId, a.campaigns = (booksOf h).listed
          ∧ a.created + (booksOf h).credit campaignId = a.request.requested.toNat := by
      intro x hx hnew hcreates hcredit hlisted
      obtain ⟨a, ha, hleft⟩ := ih hcredit hlisted
      obtain ⟨a', ha', hleft'⟩ := a.carry hx hnew hcreates hleft
      exact ⟨a', ha'.trans ha, hleft'⟩
    cases PlatformHappening.kind x with
    -- a listing leaves no credit
    | listing | noListing => exact absurd hcredit (lt_irrefl 0)
    -- a snapshot ends the credit of its own campaign, and is not about another
    | snapshot workerId c available r =>
      have hlater : ((booksOf h).enter ⟨.inr (.exchangeAvailable workerId c available), r⟩).credit
          = Function.update (booksOf h).credit c 0 := rfl
      by_cases hc : c = campaignId
      · rw [hlater, hc, Function.update_self] at hcredit
        exact absurd hcredit (lt_irrefl 0)
      · have hne : campaignId ≠ c := fun heq => hc heq.symm
        rw [hlater, Function.update_of_ne hne] at hcredit ⊢
        exact hcarry rfl (decide_eq_false hc) rfl hcredit hlisted
    | decision c request decisionId =>
      have hlater : ((booksOf h).enter ⟨.inr (.recordPacingRequest c request), .ok decisionId⟩).credit
          = Function.update (booksOf h).credit c request.requested.toNat := rfl
      by_cases hc : c = campaignId
      -- the decision itself opens the account
      · subst hc
        obtain ⟨l, hl⟩ := exists_listing h hlisted
        refine ⟨.opening l c request decisionId, hl, ?_⟩
        rw [hlater, Function.update_self]
        exact Nat.zero_add _
      · have hne : campaignId ≠ c := fun heq => hc heq.symm
        rw [hlater, Function.update_of_ne hne] at hcredit ⊢
        exact hcarry rfl (decide_eq_false hc) rfl hcredit hlisted
    | creation draft r =>
      have hlater : ((booksOf h).enter ⟨.inl (.insertCall draft), r⟩).credit
          = Function.update (booksOf h).credit draft.campaignId
            ((booksOf h).credit draft.campaignId - 1) := rfl
      by_cases hc : draft.campaignId = campaignId
      · rw [hlater, hc, Function.update_self] at hcredit ⊢
        obtain ⟨a, ha, hleft⟩ := ih (by omega) hlisted
        -- one of what was left is spent
        obtain ⟨n, hn⟩ : ∃ n, (booksOf h).credit campaignId = n + 1 :=
          ⟨_, (Nat.sub_add_cancel (by omega)).symm⟩
        rw [hn] at hleft ⊢
        obtain ⟨a', ha', hleft'⟩ := a.spend (x := ⟨.inl (.insertCall draft), r⟩) rfl rfl
          (decide_eq_true hc) hleft
        exact ⟨a', ha'.trans ha, hleft'⟩
      · have hne : campaignId ≠ draft.campaignId := fun heq => hc heq.symm
        rw [hlater, Function.update_of_ne hne] at hcredit ⊢
        exact hcarry rfl rfl (decide_eq_false hc) hcredit hlisted
    | other hlists hrenews hcreates henter =>
      rw [henter] at hcredit hlisted ⊢
      exact hcarry hlists (hrenews campaignId) (hcreates campaignId) hcredit hlisted

/-! ## Workers keep books

`auditing` is the platform in which a call is created on credit only. That workers keep to it is
proved outside in: the rounds, the campaigns of a listing, one tick; and inside the tick the account
of `creating` takes over, whose number is covered by the credit (`Warranted.step`). -/

/-- What no book is kept of. -/
def unbooked : Op ⊕ PlatformOp F → Bool
  | .inl o => !inserts o
  | .inr (.findRunning _) => false
  | .inr _ => true

/-- Whatever is not a listing. -/
def unlisting : Op ⊕ PlatformOp F → Bool
  | .inr (.findRunning _) => false
  | _ => true

theorem unbooked_steady {o : Op} (ho : inserts o = false) :
    unbooked (.inl o : Op ⊕ PlatformOp F) = true :=
  congrArg not ho

theorem enter_steady {o : Op} (ho : inserts o = false) (books : Books F) (r : Except Exn (Res o)) :
    books.enter ⟨.inl o, r⟩ = books := by
  cases o with
  | insertCall draft => cases ho
  | _ => rfl

/-- What lists nothing leaves the listing. -/
theorem listed_unlisting (h : PlatformHistory F) {o : Op ⊕ PlatformOp F}
    (r : Except Exn (EitherRes Res (PlatformRes F) o)) (ho : unlisting o = true) :
    (booksOf (h ++ [⟨o, r⟩])).listed = (booksOf h).listed := by
  rw [booksOf_append]
  cases o with
  | inl o =>
    by_cases hins : inserts o = false
    · rw [enter_steady hins]
    · cases o with
      | insertCall draft => rfl
      | _ => exact absurd rfl hins
  | inr o =>
    cases o with
    | findRunning limit => cases ho
    | recordPacingRequest c request => cases r <;> rfl
    | _ => rfl

theorem onTheBooks_unbooked (h : PlatformHistory F) {o : Op ⊕ PlatformOp F}
    (ho : unbooked o = true) : OnTheBooks h o := by
  rintro draft rfl
  cases ho

/-- Only a dial creates calls. -/
theorem inserts_of_emits {s : Stage} (hs : s.allocates = false) {o : Op} (h : Emits s o) :
    inserts o = false := by
  cases h with
  | createCall => cases hs
  | _ => rfl

theorem performs_notDialing {cfg : Config} (job : Job) (hjob : job.start.allocates = false) :
    ((system cfg).program job).Performs fun o => inserts o = false := by
  have hfollows : (system cfg).Follows job.start (job.program cfg) (Finished job) :=
    system_conforms job
  exact hfollows.performs (J := fun s => s.allocates = false)
    (fun s o hs hemits => ⟨inserts_of_emits hs hemits, Stage.allocates_next hs o⟩) hjob

theorem unlisting_dialer {α : Type} (x : Py α) :
    (dialer F x).Performs fun o => unlisting o = true :=
  Prog.Performs.lift (S := fun _ => True) (fun _ _ => rfl) (Prog.Performs.all (fun _ => trivial) x)

theorem unlisting_of_unbooked {o : Op ⊕ PlatformOp F} (ho : unbooked o = true) :
    unlisting o = true := by
  cases o with
  | inl o => rfl
  | inr o => cases o <;> first | rfl | cases ho

section Workers

variable [FloatArith F] {pc : PlatformConfig F} {h : PlatformHistory F}

abbrev auditing (pc : PlatformConfig F) := (platform pc).emitting OnTheBooks

/-- The books let so many calls of the campaign be created. -/
def Warranted (campaignId : DocId) (n : Nat) (h : PlatformHistory F) : Prop :=
  n ≤ (booksOf h).credit campaignId ∧ ∃ campaign ∈ (booksOf h).listed, campaign.id = campaignId

theorem Warranted.step {campaignId : DocId} (n : Nat) (h : PlatformHistory F) (o : Op)
    (hn : Warranted campaignId n h) (hemits : (creating campaignId).Emits n o) :
    (auditing pc).Emits h (.inl o) ∧ ∀ r, Warranted campaignId
      ((creating campaignId).next n o r) ((auditing pc).next h (.inl o) r) := by
  by_cases ho : inserts o = false
  · refine ⟨onTheBooks_unbooked h (unbooked_steady ho), fun r => ?_⟩
    rw [(creations_steady ho n).2 r]
    show Warranted campaignId n (h ++ [⟨.inl o, r⟩])
    unfold Warranted
    rw [booksOf_append, enter_steady ho]
    exact hn
  · cases o with
    | insertCall draft =>
      obtain ⟨rfl, hpos⟩ := hemits draft rfl
      refine ⟨fun draft' heq => ?_, fun r => ⟨?_, ?_⟩⟩
      · cases heq
        exact ⟨Nat.lt_of_lt_of_le hpos hn.1, hn.2⟩
      · show n - 1 ≤ (booksOf (h ++ [⟨.inl (.insertCall draft), r⟩])).credit draft.campaignId
        rw [booksOf_append]
        show n - 1 ≤ Function.update (booksOf h).credit draft.campaignId _ draft.campaignId
        rw [Function.update_self]
        exact Nat.sub_le_sub_right hn.1 1
      · show ∃ campaign ∈ (booksOf (h ++ [⟨.inl (.insertCall draft), r⟩])).listed, _
        rw [booksOf_append]
        exact hn.2
    | _ => exact absurd rfl ho

/-- A snapshot creates no call. -/
theorem unbooked_querySnapshot (settings : SafetySettings F) (workerId : WorkerId)
    (campaign : PacedCampaign F) :
    (MetricsSnapshotBuilder.querySnapshot settings workerId campaign).Performs
      fun o => unbooked o = true := by
  have hraising : ∀ x : Except String Time, (raising (F := F) x).Performs
      fun o => unbooked o = true := by
    intro x
    cases x <;> trivial
  have hasks : ∀ {o : PlatformOp F}, unbooked (.inr o) = true → (ask o).Performs
      fun o => unbooked o = true := fun ho => Prog.performs_perform.mpr ho
  have hcalls : ∀ {o : Op}, inserts o = false → (dialer F (call o)).Performs
      fun o => unbooked o = true := fun ho =>
    Prog.Performs.lift (S := fun o => inserts o = false) (fun _ ho => unbooked_steady ho)
      (Prog.performs_perform.mpr ho)
  unfold MetricsSnapshotBuilder.querySnapshot
  refine .bind (hcalls rfl) fun _ => .bind (hcalls rfl) fun _ => .bind (hcalls rfl) fun _ =>
    .bind (hasks rfl) fun _ => .bind (hasks rfl) fun _ => .bind (hraising _) fun _ =>
    .bind (hcalls rfl) fun _ => .bind (hcalls rfl) fun _ => .bind ?_ fun _ =>
    .bind (hasks rfl) fun _ => .bind (hcalls rfl) fun _ => .bind (hasks rfl) fun _ =>
    Prog.performs_ret _
  unfold MetricsSnapshotBuilder.queryLongConnected
  split
  · exact .bind (hraising _) fun _ => hasks rfl
  · trivial

/-- A step of a worker outside its dials, and what follows it. -/
theorem auditing_aside {α β : Type} {x : PlatformPy F α} {f : α → PlatformPy F β}
    (hx : x.Performs fun o => unbooked o = true)
    (hf : ∀ h' a, (booksOf h').listed = (booksOf h).listed →
      (auditing pc).Follows h' (f a) fun _ _ => True) :
    (auditing pc).Follows h (x.bind f) fun _ _ => True := by
  rw [follows_bind]
  refine (Follows.keeps (fun h => (booksOf h).listed)
    (fun h o r ho => listed_unlisting h r ho) (hx.mono fun o ho => ?_)
    (follows_unruled (S := fun o => unbooked o = true)
      (fun h o ho => onTheBooks_unbooked h ho) hx)).mono fun h' r hkept => ?_
  · cases o with
    | inl o => rfl
    | inr o => cases o <;> first | rfl | cases ho
  · cases r with
    | error e => trivial
    | ok a => exact hf h' a hkept.1

/-- **A worker ticks a campaign it has listed** on the credit of the decision it has logged. The
request is logged before anything is approved, and the approved count, which is what may be created,
does not exceed it. -/
theorem auditing_tickCampaign (engine : PacingEngineConfig F) (campaign : PacedCampaign F)
    (workerId : WorkerId)
    (hlisted : ∃ document ∈ (booksOf h).listed, document.id = campaign.id) :
    (auditing pc).Follows h (DialerBase.tickCampaign pc engine campaign workerId)
      fun _ _ => True := by
  -- the tick, once its decision is on the books
  have htick : ∀ (h' : PlatformHistory F) (request : PacingRequest F)
      (pacingDecisionId : Option DocId), Warranted campaign.id request.requested.toNat h' →
      (auditing pc).Follows h' ((ask (.availabilityTracker workerId)).bind fun tracker =>
        dialer F (DialerBase.tick pc.safety pc.cfg tracker campaign.toCampaign request
          pacingDecisionId workerId)) fun _ _ => True := by
    intro h' request pacingDecisionId hwarranted
    rw [follows_bind]
    refine (follows_perform ..).mpr ⟨onTheBooks_unbooked h' rfl, fun tracker => ?_⟩
    cases tracker with
    | error e => trivial
    | ok tracker =>
      have hstill : Warranted campaign.id request.requested.toNat
          (h' ++ [⟨.inr (.availabilityTracker workerId), .ok tracker⟩]) := by
        unfold Warranted
        rw [booksOf_append]
        exact hwarranted
      exact (Follows.lifted Warranted.step hstill
        (creating_tick tracker request pacingDecisionId (le_refl _))).mono fun _ _ _ => trivial
  unfold DialerBase.tickCampaign
  -- the snapshot comes first, and the campaign is still the one that was listed
  refine auditing_aside (unbooked_querySnapshot _ _ _) fun h' snapshot hsame => ?_
  rw [← hsame] at hlisted
  generalize computeRequest snapshot engine = request
  dsimp only
  unfold DialerBase.recordRequest
  split
  · -- nothing is requested, and nothing logged
    rename_i hidle
    refine htick h' request none ⟨?_, hlisted⟩
    rw [hidle]
    exact Nat.zero_le _
  · rw [Prog.bind_def, Prog.bind_def, Prog.bind_assoc, follows_bind]
    refine (follows_perform ..).mpr ⟨onTheBooks_unbooked h' rfl, fun r => ?_⟩
    cases r with
    | error e => trivial
    | ok decisionId =>
      refine htick (h' ++ [⟨.inr (.recordPacingRequest campaign.id request), .ok decisionId⟩])
        request (some decisionId) ?_
      unfold Warranted
      rw [booksOf_append]
      refine ⟨?_, hlisted⟩
      show _ ≤ Function.update (booksOf h').credit campaign.id request.requested.toNat campaign.id
      rw [Function.update_self]

/-- A worker that catches what fails in a campaign. -/
theorem auditing_guarded {α : Type} {x : PlatformPy F α} {handled : α}
    {Q : PlatformHistory F → Prop} (hx : (auditing pc).Follows h x fun h' _ => Q h') :
    (auditing pc).Follows h (exceptException x handled) fun h' _ => Q h' := by
  unfold exceptException
  rw [follows_catching]
  refine hx.mono fun h' r hQ => ?_
  cases r with
  | ok a => exact hQ
  | error e =>
    dsimp only
    split <;> exact hQ

theorem unlisting_tickAndWrapUp (workerId : WorkerId) (campaign : PacedCampaign F) :
    (DialerWorker.tickAndWrapUp pc workerId campaign).Performs fun o => unlisting o = true := by
  unfold DialerWorker.tickAndWrapUp DialerBase.tickCampaign
  refine .bind (.bind ((unbooked_querySnapshot _ _ _).mono fun _ => unlisting_of_unbooked)
    fun snapshot => .bind ?_ fun _ => .bind (Prog.performs_perform.mpr rfl) fun _ =>
    unlisting_dialer _) fun _ => unlisting_dialer _
  unfold DialerBase.recordRequest
  split
  · trivial
  · exact .bind (Prog.performs_perform.mpr rfl) fun _ => Prog.performs_ret _

/-- Ending wrap-ups after the tick creates nothing, and lists nothing. -/
theorem auditing_tickAndWrapUp (workerId : WorkerId) (campaign : PacedCampaign F)
    (hlisted : ∃ document ∈ (booksOf h).listed, document.id = campaign.id) :
    (auditing pc).Follows h (DialerWorker.tickAndWrapUp pc workerId campaign)
      fun h' _ => (booksOf h').listed = (booksOf h).listed := by
  have hwrap : (WrapUpService.releaseFinishedWrapUps pc.cfg campaign.toCampaign).Performs
      fun o => inserts o = false :=
    Prog.Performs.of_bind (performs_notDialing (.releaseFinishedWrapUps campaign.toCampaign) rfl)
  refine (Follows.keeps (Q := fun _ _ => True) (fun h => (booksOf h).listed)
    (fun h o r ho => listed_unlisting h r ho) (unlisting_tickAndWrapUp workerId campaign)
    ?_).mono fun _ _ hkept => hkept.1
  unfold DialerWorker.tickAndWrapUp
  rw [Prog.bind_def, follows_bind]
  refine (auditing_tickCampaign _ campaign workerId hlisted).mono fun h' r _ => ?_
  cases r with
  | error e => trivial
  | ok _ =>
    exact follows_unruled (S := fun o => unbooked o = true)
      (fun h o ho => onTheBooks_unbooked h ho) (hwrap.lift fun _ ho => unbooked_steady ho)

/-- The campaigns of a listing, whatever fails in one of them. -/
theorem auditing_tickLoop (workerId : WorkerId) (campaigns : List (CampaignDocument F))
    (hlisted : ∀ campaign ∈ campaigns, ∃ document ∈ (booksOf h).listed, document.id = campaign.id) :
    (auditing pc).Follows h (DialerWorker.tickLoop pc workerId campaigns) fun _ _ => True := by
  -- on the campaigns: no tick lists anew, so the rest is still listed
  induction campaigns generalizing h with
  | nil => trivial
  | cons campaign campaigns ih =>
    unfold DialerWorker.tickLoop DialerWorker.tickCampaign
    rw [Prog.bind_def, follows_bind]
    refine (auditing_guarded (auditing_tickAndWrapUp workerId campaign.toPacedCampaign
      (hlisted campaign List.mem_cons_self))).mono fun h' r hsame => ?_
    cases r with
    | error e => trivial
    | ok _ =>
      refine ih fun c hc => ?_
      rw [hsame]
      exact hlisted c (List.mem_cons_of_mem campaign hc)

/-- The rounds of a worker, each with a listing of its own. -/
theorem auditing_run (workerId : WorkerId) (rounds : Nat) :
    (auditing pc).Follows h (DialerWorker.run pc workerId rounds) fun _ _ => True := by
  -- on the rounds: whatever the books were, a listing replaces them
  induction rounds generalizing h with
  | zero => trivial
  | succ n ih =>
    have honce : (auditing pc).Follows h (DialerWorker.runOnce pc workerId) fun _ _ => True := by
      unfold DialerWorker.runOnce
      rw [Prog.bind_def, follows_bind]
      refine (follows_perform ..).mpr ⟨fun draft hdraft => (by cases hdraft), fun r => ?_⟩
      cases r with
      | error e => trivial
      | ok campaigns =>
        refine auditing_tickLoop workerId campaigns fun campaign hcampaign => ?_
        show ∃ document ∈ (booksOf (h ++ [⟨.inr (.findRunning 100), .ok campaigns⟩])).listed, _
        rw [booksOf_append]
        exact ⟨campaign, hcampaign, rfl⟩
    unfold DialerWorker.run
    rw [Prog.bind_def, follows_bind]
    refine (auditing_guarded (Q := fun _ => True) honce).mono fun h' r _ => ?_
    cases r with
    | error e => trivial
    | ok _ => exact ih

end Workers

/-! ## The whole platform

Other processes create no calls, so the conduct holds of every job, and a run of the platform is a
run of `auditing`. -/

section Platform

variable [FloatArith F] {pc : PlatformConfig F}

/-- The dialer's jobs that do not dial. -/
def notDialing : SystemRegime where
  admits := fun job => job.start.allocates = false
  guard := fun _ _ _ _ _ => True

/-- Every job of the platform creates calls on its books only. -/
theorem auditing_conforms : (auditing pc).Conforms fun _ _ _ => True := by
  intro job
  by_cases hworker : ∃ workerId rounds, job = .dialerWorker workerId rounds
  · obtain ⟨workerId, rounds, rfl⟩ := hworker
    show (auditing pc).Follows [] ((DialerWorker.run pc workerId rounds).bind fun _ =>
      Prog.ret PlatformOutcome.ended) _
    rw [follows_bind]
    refine (auditing_run workerId rounds).mono fun h r _ => ?_
    cases r <;> trivial
  · -- every other job is composed of jobs and operations that create nothing
    have hcomposed : Assembled pc.cfg notDialing (PlatformJob.program pc job) :=
      Assembled.other (fun _ _ hjob => hjob) job
        (fun workerId rounds heq => hworker ⟨workerId, rounds, heq⟩) fun _ => rfl
    refine follows_unruled (S := fun o => ∀ draft, o ≠ .inl (.insertCall draft))
      (fun h o ho draft heq => absurd heq (ho draft)) (hcomposed.performs (fun _ _ => nofun) ?_ ?_)
    · rintro o (ho | ho) draft heq
      · cases heq
        rcases ho with ho | ⟨_, _, ho⟩ <;> cases ho
      · cases heq
        rcases ho with ⟨_, _, _, _, ho, -⟩ | ⟨_, ho⟩ <;> cases ho
    · intro job hjob
      refine (performs_notDialing job hjob).mono fun o ho draft heq => ?_
      cases heq
      cases ho

/-! ### The log

The log is only ever appended to, so a decision that was logged is found in the store at the end. -/

theorem apply_pacingDecisions (ε : PlatformEnv F) (o : PlatformOp F) (σ : PlatformStore F) :
    σ.pacingDecisions <+: (o.apply ε σ).2.pacingDecisions := by
  cases o with
  | insertCampaign campaign =>
    unfold PlatformOp.apply
    dsimp only
    split <;> exact List.prefix_refl _
  | recordPacingRequest c request =>
    unfold PlatformOp.apply
    dsimp only
    split
    · exact List.prefix_refl _
    · exact List.prefix_append _ _
  | _ => exact List.prefix_refl _

theorem platformExec_pacingDecisions (ε : PlatformEnv F) (o : Op ⊕ PlatformOp F)
    (σ : PlatformStore F) : σ.pacingDecisions <+: (platformExec ε o σ).2.pacingDecisions := by
  cases o with
  | inl o => exact List.prefix_refl _
  | inr o =>
    unfold platformExec
    dsimp only
    split
    · exact apply_pacingDecisions ε o σ
    · split
      · exact apply_pacingDecisions ε o σ
      · exact List.prefix_refl _

/-- The row of a decision in the log. -/
def PacingDecision.Records (row : PacingDecision F) (decisionId campaignId : DocId)
    (request : PacingRequest F) : Prop :=
  row.id = decisionId ∧ row.campaignId = campaignId ∧ row.requested = request.requested

theorem recordPacingRequest_ok {ε : PlatformEnv F} {c decisionId : DocId}
    {request : PacingRequest F} {σ : PlatformStore F}
    (h : (platformExec ε (.inr (.recordPacingRequest c request)) σ).1 = .ok decisionId) :
    ∃ row ∈ (platformExec ε (.inr (.recordPacingRequest c request)) σ).2.pacingDecisions,
      row.Records decisionId c request := by
  have happly := platformExec_of_ok h
  rw [happly] at h ⊢
  unfold PlatformOp.apply at h ⊢
  dsimp only at h ⊢
  split at h
  · cases h
  · cases h
    rename_i hsign
    rw [if_neg hsign]
    exact ⟨_, List.mem_append_right _ (List.mem_singleton_self _), rfl, rfl, rfl⟩

/-- What has been logged stays in the log. The row is inserted by the operation that has answered
its id, and no operation removes or changes a row. -/
theorem logged_of_reachable {R : PlatformRegime F} {σ₀ : PlatformStore F} {w : PlatformWorld F}
    (h : Reachable (platform pc) R (World.fresh σ₀) w) {p : Nat} {env : PlatformEnv F}
    {c decisionId : DocId} {request : PacingRequest F}
    (he : (⟨p, .inr (.recordPacingRequest c request), env, .ok decisionId⟩ : Entry
      (Op ⊕ PlatformOp F) (EitherRes Res (PlatformRes F)) Exn (PlatformEnv F)) ∈ w.trace) :
    ∃ row ∈ w.store.pacingDecisions, row.Records decisionId c request := by
  -- on the run: the entry is an old one, or the last
  induction h with
  | refl => exact absurd he List.not_mem_nil
  | @step w a _ _ ih =>
    rcases w.act_cases (M := platform pc) a with heq | ⟨q, job, -, -, heq⟩ | ⟨q, t, -, -, heq⟩
      | ⟨q, env', t, o, k, -, -, -, -, heq⟩
    · rw [heq] at he ⊢
      exact ih he
    · rw [heq] at he ⊢
      exact ih he
    · rw [heq] at he ⊢
      exact ih he
    · rw [heq] at he ⊢
      rcases List.mem_append.mp he with he | he
      · obtain ⟨row, hrow, hrecords⟩ := ih he
        exact ⟨row, (platformExec_pacingDecisions env' o w.store).subset hrow, hrecords⟩
      · obtain ⟨-, ho, -, hr⟩ := Entry.mk.inj (List.mem_singleton.mp he)
        subst ho
        exact recordPacingRequest_ok (eq_of_heq hr).symm

/-- **Every call a worker creates is on its books.** Whatever else goes on, fails or is cancelled: a
thread that creates a call has listed the campaign as running, has then logged a pacing decision for
it, has taken no snapshot of it since, and has created fewer calls on that decision than it
requested. The decision is in the log. -/
theorem calls_on_the_books {R : PlatformRegime F} {σ₀ : PlatformStore F} {w : PlatformWorld F}
    (h : Reachable (platform pc) R (World.fresh σ₀) w)
    {before after : List (Entry (Op ⊕ PlatformOp F) (EitherRes Res (PlatformRes F)) Exn
      (PlatformEnv F))}
    {e : Entry (Op ⊕ PlatformOp F) (EitherRes Res (PlatformRes F)) Exn (PlatformEnv F)}
    (he : w.trace = before ++ e :: after) {draft : CallRepo.CallDraft}
    (hop : e.op = .inl (.insertCall draft)) :
    ∃ a : Account (historyOf e.pid before) draft.campaignId,
      (∃ campaign ∈ a.campaigns, campaign.id = draft.campaignId ∧ campaign.status = .RUNNING)
      ∧ (a.created : Int) < a.request.requested
      ∧ ∃ row ∈ w.store.pacingDecisions, row.Records a.decisionId draft.campaignId a.request := by
  obtain ⟨hcredit, campaign, hcampaign, hid⟩ := h.audited auditing_conforms he draft hop
  obtain ⟨a, hlisted, hleft⟩ := exists_account _ draft.campaignId hcredit
    fun hnone => absurd (hnone ▸ hcampaign) List.not_mem_nil
  have hin : ∀ x : PlatformHappening F, x ∈ historyOf e.pid before →
      ∃ e' ∈ w.trace, e'.happening = x := by
    intro x hx
    obtain ⟨e', he', -, hx'⟩ := mem_historyOf.mp hx
    exact ⟨e', he ▸ List.mem_append_left _ he', hx'⟩
  refine ⟨a, ⟨campaign, hlisted ▸ hcampaign, hid, ?_⟩, by omega, ?_⟩
  · -- the listing was answered by a store of the run
    obtain ⟨⟨q, o, env, r⟩, hmem, hx⟩ := hin ⟨.inr (.findRunning a.limit), .ok a.campaigns⟩
      a.toListing.mem
    cases hx
    obtain ⟨v, -, hresp⟩ := h.answered hmem
    have hok : (platformExec env (.inr (.findRunning a.limit)) v.store).1 = .ok a.campaigns :=
      hresp.symm
    rw [platformExec_of_ok hok] at hok
    have hanswer : campaign ∈ CampaignRepo.findRunning a.limit v.store.campaigns := by
      rw [Except.ok.inj hok, hlisted]
      exact hcampaign
    exact (DocStore.Collection.mem_find.mp (limited_subset hanswer)).2
  · obtain ⟨⟨q, o, env, r⟩, hmem, hx⟩ := hin
      ⟨.inr (.recordPacingRequest draft.campaignId a.request), .ok a.decisionId⟩
      a.mem
    cases hx
    exact logged_of_reachable h hmem

end Platform

/-! The books at the one call of that first round. -/

/-- The entry creates a call. -/
def createsCall (e : Entry (Op ⊕ PlatformOp ℚ) (EitherRes Res (PlatformRes ℚ)) Exn (PlatformEnv ℚ)) :
    Bool :=
  match e.op with
  | .inl (.insertCall _) => true
  | _ => false

theorem createsCall_iff
    {e : Entry (Op ⊕ PlatformOp ℚ) (EitherRes Res (PlatformRes ℚ)) Exn (PlatformEnv ℚ)}
    (h : createsCall e = true) : ∃ draft, e.op = .inl (.insertCall draft) := by
  unfold createsCall at h
  split at h
  · exact ⟨_, by assumption⟩
  · cases h

theorem calls_on_the_books_working : ∃ before e after draft,
    working.trace = before ++ e :: after ∧ e.op = .inl (.insertCall draft)
    ∧ ∃ a : Account (historyOf e.pid before) draft.campaignId,
      (∃ campaign ∈ a.campaigns, campaign.id = draft.campaignId ∧ campaign.status = .RUNNING)
      ∧ (a.created : Int) < a.request.requested
      ∧ ∃ row ∈ working.store.pacingDecisions,
        row.Records a.decisionId draft.campaignId a.request := by
  have hcreates : working.trace.any createsCall = true := by decide +kernel
  obtain ⟨e, he, hcreate⟩ := List.any_eq_true.mp hcreates
  obtain ⟨draft, hop⟩ := createsCall_iff hcreate
  obtain ⟨before, after, hsplit⟩ := List.append_of_mem he
  exact ⟨before, e, after, draft, hsplit, hop, calls_on_the_books working_reachable hsplit hop⟩

end SmartDialer
