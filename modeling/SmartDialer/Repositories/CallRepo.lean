import SmartDialer.StateMachines.CallSm

/-!
# Call queries and conditional updates (`app/repositories/call_repo.py`)

`Calls` carries the two unique indexes of `app/db_indexes.py` with the collection: no two calls
share an idempotency key, and no two calls share a provider name together with a provider call
id. Each definition is one database operation.
-/

namespace SmartDialer

open DocStore

/-- The partial index `calls_provider_call_id_unique`. -/
def Call.providerKey (d : Call) : Option (String × String) :=
  d.providerCallId.map fun p => (d.providerName, p)

/-- The calls collection with its unique indexes. -/
structure Calls where
  coll : Collection Call
  uniqueIdempotencyKey : coll.UniqueOn (fun d => some d.idempotencyKey)
  uniqueProviderKey : coll.UniqueOn Call.providerKey

namespace Calls

def empty : Calls where
  coll := ∅
  uniqueIdempotencyKey := Collection.UniqueOn.empty _
  uniqueProviderKey := Collection.UniqueOn.empty _

def get? (calls : Calls) (id : DocId) : Option Call := calls.coll.get? id

/-- `find_one_and_update` on one call, for an update that respects both indexes. -/
def findOneAndUpdate (calls : Calls) (id : DocId) (p : Call → Prop) [DecidablePred p]
    (f : Call → Call) (hf : ∀ d, (f d).id = d.id)
    (hkey : ∀ d, (f d).idempotencyKey = d.idempotencyKey)
    (hprov : (calls.coll.update id p f hf).UniqueOn Call.providerKey) : Option Call × Calls :=
  ((calls.coll.findOneAndUpdate id p f hf).1,
    { coll := calls.coll.update id p f hf
      uniqueIdempotencyKey :=
        calls.uniqueIdempotencyKey.update hf (fun d => congrArg some (hkey d))
      uniqueProviderKey := hprov })

theorem eq_of_coll {calls calls' : Calls} (h : calls.coll = calls'.coll) : calls = calls' := by
  cases calls
  cases calls'
  cases h
  rfl

/-- The two-way split of `find_one_and_update`, for calls. -/
theorem findOneAndUpdate_cases (calls : Calls) (id : DocId) (p : Call → Prop) [DecidablePred p]
    (f : Call → Call) (hf : ∀ d, (f d).id = d.id)
    (hkey : ∀ d, (f d).idempotencyKey = d.idempotencyKey)
    (hprov : (calls.coll.update id p f hf).UniqueOn Call.providerKey) :
    (∃ d, calls.get? id = some d ∧ p d
        ∧ (calls.findOneAndUpdate id p f hf hkey hprov).1 = some (f d)
        ∧ (calls.findOneAndUpdate id p f hf hkey hprov).2.get? id = some (f d)
        ∧ ∀ c, c ≠ id → (calls.findOneAndUpdate id p f hf hkey hprov).2.get? c = calls.get? c)
    ∨ ((∀ d, calls.get? id = some d → ¬ p d)
        ∧ (calls.findOneAndUpdate id p f hf hkey hprov).1 = none
        ∧ (calls.findOneAndUpdate id p f hf hkey hprov).2 = calls) := by
  rcases Collection.findOneAndUpdate_cases calls.coll id p f hf with h | ⟨hno, hans, hcoll⟩
  · exact Or.inl h
  · exact Or.inr ⟨hno, hans, eq_of_coll hcoll⟩

theorem id_of_get? {calls : Calls} {id : DocId} {d : Call} (h : calls.get? id = some d) :
    d.id = id :=
  Collection.key_of_get? h

end Calls

/-- `Call.from_mongo`: the model validator derives rank and terminal flag from the state. -/
def Call.fromMongo (d : Call) : Call :=
  { d with stateRank := callStateRank d.state, terminal := CallSm.isTerminal d.state }

namespace CallRepo

/-! ## Creation and lookup

A call is inserted first, and the unique index decides whether it is new. -/

/-- What `create_call` knows of the call it is about to insert. -/
structure CallDraft where
  campaignId : DocId
  agentId : DocId
  borrowerId : DocId
  providerName : String
  workerId : WorkerId
  attempt : Nat
  deriving DecidableEq

def CallDraft.idempotencyKey (draft : CallDraft) : String :=
  buildIdempotencyKey draft.campaignId draft.agentId draft.borrowerId draft.attempt

/-- The `Call` object `create_call` builds: every other field has its default. -/
def CallDraft.toCall (draft : CallDraft) (id : DocId) (now : Time) : Call where
  id := id
  campaignId := draft.campaignId
  agentId := draft.agentId
  borrowerId := draft.borrowerId
  providerName := draft.providerName
  idempotencyKey := draft.idempotencyKey
  createdByWorker := draft.workerId
  attempt := draft.attempt
  createdAt := now
  updatedAt := now

/-- `insert_one(call)`: `none` when `_id` or the idempotency key is taken. -/
def insertCall (draft : CallDraft) (id : DocId) (now : Time) (calls : Calls) :
    Option (Call × Calls) :=
  if hkey : ∀ e ∈ calls.coll.docs, e.idempotencyKey ≠ draft.idempotencyKey then
    match hins : calls.coll.insertOne (draft.toCall id now) with
    | none => none
    | some coll => some (draft.toCall id now,
      { coll
        uniqueIdempotencyKey := calls.uniqueIdempotencyKey.insertOne hins
          (fun e he i hi hei => hkey e he (by simp_all [CallDraft.toCall]))
        uniqueProviderKey := calls.uniqueProviderKey.insertOne hins
          (fun e _ i hi => by simp [CallDraft.toCall, Call.providerKey] at hi) })
  else none

def findByIdempotencyKey (key : String) (calls : Calls) : Option Call :=
  (calls.coll.docs.find? fun d => d.idempotencyKey = key).map Call.fromMongo

def findById (callId : DocId) (calls : Calls) : Option Call :=
  (calls.get? callId).map Call.fromMongo

def findByProviderCallId (providerName providerCallId : String) (calls : Calls) : Option Call :=
  (calls.coll.docs.find? fun d =>
    d.providerName = providerName ∧ d.providerCallId = some providerCallId).map Call.fromMongo

/-! ## Writes

`transition_call` is the only write that moves a call. It compares ranks, not the table of edges,
and stamps the instant of the state it sets. -/

/-- `STATE_TIMESTAMP_FIELDS`: the state's own timestamp, if it has one. -/
def stampState (targetState : CallState) (now : Time) (d : Call) : Call :=
  match targetState with
  | .INITIATED => { d with initiatedAt := some now }
  | .RINGING => { d with ringingAt := some now }
  | .ANSWERED => { d with answeredAt := some now }
  | .CONNECTED => { d with connectedAt := some now }
  | _ => d

/-- The `updates` document of `transition_call`. -/
def transitionUpdate (targetState : CallState) (failureReason : Option String) (now : Time)
    (d : Call) : Call :=
  { stampState targetState now d with
    state := targetState
    stateRank := CallSm.rank targetState
    terminal := CallSm.isTerminal targetState
    updatedAt := now
    endedAt := if CallSm.isTerminal targetState then some now else d.endedAt
    failureReason := failureReason.or d.failureReason }

@[simp] theorem stampState_id (t : CallState) (now : Time) (d : Call) :
    (stampState t now d).id = d.id := by cases t <;> rfl

@[simp] theorem stampState_idempotencyKey (t : CallState) (now : Time) (d : Call) :
    (stampState t now d).idempotencyKey = d.idempotencyKey := by cases t <;> rfl

@[simp] theorem stampState_providerKey (t : CallState) (now : Time) (d : Call) :
    (stampState t now d).providerKey = d.providerKey := by cases t <;> rfl

/-- Stamping a state touches nothing but the timestamps of states. -/
theorem stampState_eq (t : CallState) (now : Time) (d : Call) :
    ∃ i r a c, stampState t now d
      = { d with initiatedAt := i, ringingAt := r, answeredAt := a, connectedAt := c } := by
  cases t <;> exact ⟨_, _, _, _, rfl⟩

def transitionFilter (targetState : CallState) (d : Call) : Prop :=
  d.terminal = false ∧ d.stateRank < CallSm.rank targetState

instance (targetState : CallState) : DecidablePred (transitionFilter targetState) :=
  fun _ => inferInstanceAs (Decidable (_ ∧ _))

def transitionCall (now : Time) (callId : DocId) (targetState : CallState)
    (failureReason : Option String) (calls : Calls) : Option Call × Calls :=
  let r := calls.findOneAndUpdate callId (transitionFilter targetState)
    (transitionUpdate targetState failureReason now)
    (fun d => stampState_id targetState now d)
    (fun d => stampState_idempotencyKey targetState now d)
    (calls.uniqueProviderKey.update _ (fun d => stampState_providerKey targetState now d))
  (r.1.map Call.fromMongo, r.2)

/-- Whether `attach_provider_call_id` would violate the provider index. -/
def providerKeyTaken (callId : DocId) (providerCallId : Option String) (calls : Calls) : Prop :=
  ∃ p ∈ providerCallId, ∃ d ∈ calls.coll.docs, d.id = callId ∧ d.providerCallId = none
    ∧ ∃ e ∈ calls.coll.docs, e.id ≠ callId ∧ e.providerKey = some (d.providerName, p)

instance (callId : DocId) (providerCallId : Option String) (calls : Calls) :
    Decidable (providerKeyTaken callId providerCallId calls) :=
  inferInstanceAs (Decidable (∃ p ∈ providerCallId, _))

/-- `attach_provider_call_id`; `none` is both of its `None` answers, the duplicate key and the
filter that does not match. -/
def attachProviderCallId (now : Time) (callId : DocId) (providerCallId : Option String)
    (calls : Calls) : Option Call × Calls :=
  if htaken : providerKeyTaken callId providerCallId calls then (none, calls)
  else
    let r := calls.findOneAndUpdate callId (fun d => d.providerCallId = none)
      (fun d => { d with providerCallId := providerCallId, updatedAt := now })
      (fun _ => rfl) (fun _ => rfl)
      (calls.uniqueProviderKey.update_fresh _ fun d hd hdk hdp i hi e he hei => by
        by_contra hne
        obtain ⟨p, hp, rfl⟩ := Option.map_eq_some_iff.mp hi
        exact htaken ⟨p, Option.mem_def.mpr hp, d, hd, hdk, hdp, e, he, hne, hei⟩)
    (r.1.map Call.fromMongo, r.2)

/-! ## What the three writes do

One lemma for each write, with everything that can happen; later modules use these and not the
definitions. -/

/-- **`transition_call`** moves an unfinished call of lower rank, or changes nothing. -/
theorem transitionCall_cases (now : Time) (callId : DocId) (targetState : CallState)
    (reason : Option String) (calls : Calls) :
    (∃ d, calls.get? callId = some d ∧ transitionFilter targetState d
        ∧ (transitionCall now callId targetState reason calls).1
          = some (transitionUpdate targetState reason now d).fromMongo
        ∧ (transitionCall now callId targetState reason calls).2.get? callId
          = some (transitionUpdate targetState reason now d)
        ∧ ∀ c, c ≠ callId →
          (transitionCall now callId targetState reason calls).2.get? c = calls.get? c)
    ∨ ((∀ d, calls.get? callId = some d → ¬ transitionFilter targetState d)
        ∧ (transitionCall now callId targetState reason calls).1 = none
        ∧ (transitionCall now callId targetState reason calls).2 = calls) := by
  unfold transitionCall
  rcases calls.findOneAndUpdate_cases callId (transitionFilter targetState)
    (transitionUpdate targetState reason now) (fun d => stampState_id targetState now d)
    (fun d => stampState_idempotencyKey targetState now d)
    (calls.uniqueProviderKey.update _ (fun d => stampState_providerKey targetState now d))
    with ⟨d, hd, hp, hans, hget, hother⟩ | ⟨hno, hans, hcalls⟩
  · exact Or.inl ⟨d, hd, hp, congrArg (Option.map Call.fromMongo) hans, hget, hother⟩
  · exact Or.inr ⟨hno, congrArg (Option.map Call.fromMongo) hans, hcalls⟩

theorem transitionCall_of_refused {calls : Calls} {callId : DocId} {d : Call}
    {targetState : CallState} (hd : calls.get? callId = some d)
    (hrefused : ¬ transitionFilter targetState d) (now : Time) (reason : Option String) :
    (transitionCall now callId targetState reason calls).2 = calls := by
  rcases transitionCall_cases now callId targetState reason calls
    with ⟨d', hd', hfilter, -⟩ | ⟨-, -, hsame⟩
  · cases hd.symm.trans hd'
    exact absurd hfilter hrefused
  · exact hsame

/-- **`attach_provider_call_id`** names a call that has no provider id yet, or changes nothing. -/
theorem attachProviderCallId_cases (now : Time) (callId : DocId) (providerCallId : Option String)
    (calls : Calls) :
    (∃ d, calls.get? callId = some d ∧ d.providerCallId = none
        ∧ (attachProviderCallId now callId providerCallId calls).1 = some
          { d with providerCallId := providerCallId, updatedAt := now }.fromMongo
        ∧ (attachProviderCallId now callId providerCallId calls).2.get? callId
          = some { d with providerCallId := providerCallId, updatedAt := now }
        ∧ ∀ c, c ≠ callId →
          (attachProviderCallId now callId providerCallId calls).2.get? c = calls.get? c)
    ∨ ((attachProviderCallId now callId providerCallId calls).1 = none
        ∧ (attachProviderCallId now callId providerCallId calls).2 = calls) := by
  unfold attachProviderCallId
  split
  · exact Or.inr ⟨rfl, rfl⟩
  · next htaken =>
    rcases calls.findOneAndUpdate_cases callId (fun d => d.providerCallId = none)
      (fun d => { d with providerCallId := providerCallId, updatedAt := now })
      (fun _ => rfl) (fun _ => rfl) _ with ⟨d, hd, hp, hans, hget, hother⟩ | ⟨hno, hans, hcalls⟩
    · exact Or.inl ⟨d, hd, hp, congrArg (Option.map Call.fromMongo) hans, hget, hother⟩
    · exact Or.inr ⟨congrArg (Option.map Call.fromMongo) hans, hcalls⟩

/-- **`insert_one`** adds a call whose id and idempotency key are new. -/
theorem insertCall_eq_some {draft : CallDraft} {id : DocId} {now : Time} {calls : Calls}
    {r : Call × Calls} (h : insertCall draft id now calls = some r) :
    r.1 = draft.toCall id now ∧ calls.get? id = none
      ∧ (∀ c, r.2.get? c = if c = id then some (draft.toCall id now) else calls.get? c)
      ∧ ∀ c d, calls.get? c = some d → d.idempotencyKey ≠ draft.idempotencyKey := by
  unfold insertCall at h
  split at h
  · next hkey =>
    split at h
    · contradiction
    · next coll hins =>
      cases h
      refine ⟨rfl, Collection.get?_none_of_insertOne hins, fun c => ?_, fun c d hd => ?_⟩
      · exact Collection.get?_of_insertOne hins c
      · exact hkey d (Collection.mem_of_get? hd)
  · contradiction

/-! ## Queries

What recovery, the pacing snapshot and the safety controller ask about calls. -/

def stale (olderThan : Time) (d : Call) : Prop := d.terminal = false ∧ d.updatedAt < olderThan

instance (olderThan : Time) : DecidablePred (stale olderThan) :=
  fun _ => inferInstanceAs (Decidable (_ ∧ _))

def findStaleCalls (olderThan : Time) (limit : Int) (calls : Calls) : List Call :=
  (limited limit ((calls.coll.find (stale olderThan)).insertionSort
    (fun d e => d.updatedAt ≤ e.updatedAt))).map Call.fromMongo

/-- `EXPECTED_CALL_OUTCOMES`. -/
def expectedCallOutcomes : List String := ["no_answer", "busy"]

structure OutcomeCounts where
  total : Nat
  answered : Nat
  failed : Nat
  systemFailed : Nat
  deriving DecidableEq

/-- The `$match` stage of `outcome_counts_between`. -/
def endedBetween (campaignId : DocId) (start stop : Time) (d : Call) : Prop :=
  d.campaignId = campaignId ∧ d.terminal = true ∧ ∃ t ∈ d.endedAt, start ≤ t ∧ t < stop

instance (campaignId : DocId) (start stop : Time) :
    DecidablePred (endedBetween campaignId start stop) :=
  fun _ => inferInstanceAs (Decidable (_ ∧ _ ∧ _))

/-- `outcome_counts_between`. -/
def outcomeCountsBetween (campaignId : DocId) (start stop : Time) (calls : Calls) :
    OutcomeCounts :=
  let rows := calls.coll.find (endedBetween campaignId start stop)
  { total := rows.length
    answered := rows.countP fun d => d.answeredAt ≠ none
    failed := rows.countP fun d => d.state = .FAILED
    systemFailed := rows.countP fun d =>
      d.state = .FAILED ∧ ¬ ∃ r ∈ d.failureReason, r ∈ expectedCallOutcomes }

/-- `count_by_state`: the rows of the `$group`, 0 for a state without one. -/
def countByState (campaignId : DocId) (calls : Calls) (state : CallState) : Nat :=
  (calls.coll.find fun d => d.campaignId = campaignId ∧ d.state = state).length

/-! ## One call among the answered ones

The counts of answered calls are taken over all calls, and one write concerns one of them. -/

/-- The call counts as answered. -/
def answeredBetween (campaignId : DocId) (start stop : Time) (d : Call) : Prop :=
  endedBetween campaignId start stop d ∧ d.answeredAt ≠ none

instance (campaignId : DocId) (start stop : Time) :
    DecidablePred (answeredBetween campaignId start stop) :=
  fun _ => inferInstanceAs (Decidable (_ ∧ _))

theorem answered_eq_countP (campaignId : DocId) (start stop : Time) (calls : Calls) :
    (outcomeCountsBetween campaignId start stop calls).answered
      = calls.coll.docs.countP fun d => answeredBetween campaignId start stop d := by
  show (calls.coll.find (endedBetween campaignId start stop)).countP _ = _
  unfold Collection.find
  rw [List.countP_filter]
  refine List.countP_congr fun d _ => ?_
  simp [answeredBetween, and_comm]

/-- A transition moves its call in or out of the answered ones, and no other. -/
theorem answered_transitionCall (campaignId : DocId) (start stop : Time) {calls : Calls}
    {callId : DocId} {d : Call} (hd : calls.get? callId = some d) {targetState : CallState}
    (hfilter : transitionFilter targetState d) (reason : Option String) (now : Time) :
    (outcomeCountsBetween campaignId start stop
        (transitionCall now callId targetState reason calls).2).answered
      + (if answeredBetween campaignId start stop d then 1 else 0)
    = (outcomeCountsBetween campaignId start stop calls).answered
      + (if answeredBetween campaignId start stop (transitionUpdate targetState reason now d) then 1
        else 0) := by
  have hcount := Collection.countP_update (fun e => stampState_id targetState now e)
    (fun d => decide (answeredBetween campaignId start stop d)) (f := transitionUpdate targetState
      reason now) hd hfilter
  simp only [decide_eq_true_eq] at hcount
  rw [answered_eq_countP, answered_eq_countP]
  exact hcount

end CallRepo

end SmartDialer
