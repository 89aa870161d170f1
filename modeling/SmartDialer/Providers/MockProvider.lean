import SmartDialer.Providers.MockScript

/-!
# A simulated provider (`app/providers/mock_base.py`)

The object, the coroutines that are inside its methods, and the delivery tasks it has created. An
action is what runs between two suspension points: the event loop lets the next one be of any
coroutine.

A provider is proved about through its `CallBoard`, which leaves out the counters:

* `CallBoard.Step` has nine things that can happen to the calls, with their conditions;
* `act_steps` shows that every action is a sequence of such steps;
* `CallBoard.Sound` is what the calls keep to, and `Sound.step` shows it of one step.
-/

namespace SmartDialer

open HostFloat

/-! ## State

A coroutine that sleeps is recorded by the phase it is in, together with the local variables it will
read when it goes on. -/

/-- Where an `originate_call` is, or how it has ended. -/
inductive OriginatePhase where
  /-- The sleep of `_hang_until_timeout`. -/
  | hanging
  /-- The sleep of the set-up latency. -/
  | settingUp
  | timedOut
  | rejected
  | accepted (providerCallId : String)
  | cancelled
  deriving DecidableEq

/-- Where a `_deliver_events` is. -/
inductive DeliveryPhase (F : Type) where
  /-- The task has not run yet. -/
  | created (scheduled : Script F)
  /-- The sleep before the loop. -/
  | starting (scheduled : Script F)
  /-- The delay of the event. -/
  | waiting (event : ProviderEvent) (scheduled : Script F)
  /-- `on_event` is running. -/
  | handing (event : ProviderEvent) (scheduled : Script F)
  | over

structure DeliveryTask (F : Type) where
  providerCallId : String
  scheduled : Script F
  finalStatus : ProviderCallStatus
  phase : DeliveryPhase F
  /-- `cancel()` has been called. -/
  cancelled : Bool := false

/-- `MockProviderBase`. -/
structure MockProvider (F : Type) where
  name : String
  behaviour : MockBehaviour F
  callCounter : Nat := 0
  /-- The number of the task of each call. -/
  activeCalls : String → Option Nat := fun _ => none
  finishedCalls : String → Option ProviderCallStatus := fun _ => none
  pendingTasks : List Nat := []
  outageUntil : Option F := none
  originateAttempts : Nat := 0
  originateAccepted : Nat := 0
  originateRejected : Nat := 0
  originateTimedOut : Nat := 0
  /-- The executions of `originate_call` that have got past the phone number. -/
  originates : List OriginatePhase := []
  tasks : List (DeliveryTask F) := []
  /-- What each `shutdown` that is in its `gather` waits for. -/
  shutdowns : List (List Nat) := []
  /-- The events that have been handed to `_on_event`, in their order. -/
  handed : List ProviderEvent := []

structure ProviderHealthSnapshot where
  providerName : String
  inOutage : Bool
  originateAttempts : Nat
  originateAccepted : Nat
  originateRejected : Nat
  originateTimedOut : Nat

/-- What runs next, and what the clock and the random generator answer meanwhile. -/
inductive MockAction (F : Type) where
  | originate (phoneNumber : String) (timeoutSeconds now hang latency : F)
  /-- The sleep of an `originate_call` is over. -/
  | wake (n : Nat) (failure : F) (draws : ScriptDraws F)
  /-- An `originate_call` is cancelled in its sleep. -/
  | cancel (n : Nat)
  | hangup (providerCallId : String)
  /-- What a delivery task waits for has come. -/
  | resume (n : Nat)
  /-- The `on_event` of a delivery task raises. -/
  | raise (n : Nat)
  | shutdown
  /-- The `gather` of a `shutdown` is over. -/
  | gathered (n : Nat)
  | configure (behaviour : MockBehaviour F)
  | setOutage (outageUntil : Option F)

/-- The characters that `str.strip` takes away. -/
def isSpace (c : Char) : Bool :=
  let n := c.toNat
  (0x09 ≤ n && n ≤ 0x0D) || (0x1C ≤ n && n ≤ 0x20) || n = 0x85 || n = 0xA0 || n = 0x1680
    || (0x2000 ≤ n && n ≤ 0x200A) || n = 0x2028 || n = 0x2029 || n = 0x202F || n = 0x205F
    || n = 0x3000

namespace MockProvider

variable {F : Type} [FloatOps F]

/-! ## Methods, from one suspension point to the next

A method with several suspension points is several functions here: `originate` runs up to the sleep
and `wake` from there on, `shutdown` up to its `gather` and `gathered` from there on. -/

/-- `_is_in_outage`. -/
def isInOutage (p : MockProvider F) (now : F) : Bool :=
  match p.outageUntil with
  | none => false
  | some outageUntil => FloatOps.lt now outageUntil

/-- `health_snapshot`. -/
def healthSnapshot (now : F) (p : MockProvider F) : ProviderHealthSnapshot where
  providerName := p.name
  inOutage := p.isInOutage now
  originateAttempts := p.originateAttempts
  originateAccepted := p.originateAccepted
  originateRejected := p.originateRejected
  originateTimedOut := p.originateTimedOut

/-- `originate_call` up to its first sleep; a blank number is rejected before anything is counted. -/
def originate (phoneNumber : String) (timeoutSeconds now hang latency : F) (p : MockProvider F) :
    MockProvider F :=
  if phoneNumber.toList.all isSpace then p
  else { p with
    originateAttempts := p.originateAttempts + 1
    originates := p.originates ++ [
      if p.isInOutage now || FloatOps.lt hang p.behaviour.hangRate then .hanging
      else if FloatOps.le timeoutSeconds latency then .hanging
      else .settingUp] }

/-- `_next_provider_call_id`, for the `n`-th call. -/
def providerCallId (name : String) (n : Nat) : String := s!"{name}-call-{n}"

/-- The end of an `originate_call` that is accepted. -/
def accept (n : Nat) (draws : ScriptDraws F) (p : MockProvider F) : MockProvider F :=
  let id := providerCallId p.name (p.callCounter + 1)
  let (scheduled, finalStatus) := buildEventScript p.name p.behaviour id draws
  { p with
    callCounter := p.callCounter + 1
    originateAccepted := p.originateAccepted + 1
    activeCalls := Function.update p.activeCalls id (some p.tasks.length)
    pendingTasks := p.pendingTasks ++ [p.tasks.length]
    originates := p.originates.set n (.accepted id)
    tasks := p.tasks ++ [{
      providerCallId := id, scheduled, finalStatus, phase := .created scheduled }] }

/-- `originate_call` from its sleep on. -/
def wake (n : Nat) (failure : F) (draws : ScriptDraws F) (p : MockProvider F) : MockProvider F :=
  match p.originates[n]? with
  | some .hanging => { p with
      originateTimedOut := p.originateTimedOut + 1
      originates := p.originates.set n .timedOut }
  | some .settingUp =>
    if FloatOps.lt failure p.behaviour.failureRate then { p with
      originateRejected := p.originateRejected + 1
      originates := p.originates.set n .rejected }
    else p.accept n draws
  | _ => p

/-- `CancelledError` in the sleep of an `originate_call`. -/
def cancel (n : Nat) (p : MockProvider F) : MockProvider F :=
  match p.originates[n]? with
  | some .hanging | some .settingUp => { p with originates := p.originates.set n .cancelled }
  | _ => p

/-- `task.cancel()`. -/
def cancelTask (p : MockProvider F) (n : Nat) : MockProvider F :=
  { p with tasks := p.tasks.modify n fun task => { task with cancelled := true } }

/-- `hangup_call`. -/
def hangup (id : String) (p : MockProvider F) : MockProvider F :=
  match p.activeCalls id with
  | none => p
  | some n =>
    let p := { p with activeCalls := Function.update p.activeCalls id none }
    let p := p.cancelTask n
    { p with finishedCalls := Function.update p.finishedCalls id (some .COMPLETED) }

/-- `get_call_status`. -/
def getCallStatus (id : String) (p : MockProvider F) : ProviderCallStatus :=
  if (p.activeCalls id).isSome then .ACTIVE else (p.finishedCalls id).getD .UNKNOWN

/-- The task goes on to wait. -/
def suspend (n : Nat) (task : DeliveryTask F) (phase : DeliveryPhase F) (p : MockProvider F) :
    MockProvider F :=
  { p with tasks := p.tasks.set n { task with phase } }

/-- The task is done, and no longer pending. -/
def finishTask (n : Nat) (task : DeliveryTask F) (p : MockProvider F) : MockProvider F :=
  { p with
    tasks := p.tasks.set n { task with phase := .over }
    pendingTasks := p.pendingTasks.filter (· ≠ n) }

/-- The `finally` of `_deliver_events`. -/
def leave (n : Nat) (task : DeliveryTask F) (p : MockProvider F) : MockProvider F :=
  { p.finishTask n task with
    activeCalls := Function.update p.activeCalls task.providerCallId none }

/-- `await self._on_event(event)`. -/
def hand (n : Nat) (task : DeliveryTask F) (event : ProviderEvent) (scheduled : Script F)
    (p : MockProvider F) : MockProvider F :=
  { p.suspend n task (.handing event scheduled) with handed := p.handed ++ [event] }

/-- The loop of `_deliver_events`, and what comes after it. -/
def deliver (n : Nat) (task : DeliveryTask F) (scheduled : Script F) (p : MockProvider F) :
    MockProvider F :=
  match scheduled with
  | [] => leave n task { p with
      finishedCalls := Function.update p.finishedCalls task.providerCallId (some task.finalStatus) }
  | (delay, event) :: rest =>
    if FloatOps.lt (FloatOps.ofInt 0) delay then p.suspend n task (.waiting event rest)
    else p.hand n task event rest

/-- A delivery task goes on; one that has been cancelled raises `CancelledError`, and leaves by the
`finally` if it has entered the `try`. -/
def resume (n : Nat) (p : MockProvider F) : MockProvider F :=
  match p.tasks[n]? with
  | none => p
  | some task =>
    if task.cancelled then
      match task.phase with
      | .over => p
      | .created _ => p.finishTask n task
      | _ => p.leave n task
    else
      match task.phase with
      | .over => p
      | .created scheduled => p.suspend n task (.starting scheduled)
      | .starting scheduled => p.deliver n task scheduled
      | .waiting event scheduled => p.hand n task event scheduled
      | .handing _ scheduled => p.deliver n task scheduled

/-- An exception out of `on_event`. -/
def raise (n : Nat) (p : MockProvider F) : MockProvider F :=
  match p.tasks[n]? with
  | none => p
  | some task =>
    match task.phase with
    | .handing _ _ => p.leave n task
    | _ => p

/-- The end of `shutdown`. -/
def clear (p : MockProvider F) : MockProvider F :=
  { p with pendingTasks := [], activeCalls := fun _ => none }

/-- `shutdown` up to its `gather`, or to its end when there is nothing to wait for. -/
def shutdown (p : MockProvider F) : MockProvider F :=
  if p.pendingTasks.isEmpty then p.clear
  else
    let q := p.pendingTasks.foldl cancelTask p
    { q with shutdowns := q.shutdowns ++ [p.pendingTasks] }

/-- `shutdown` from its `gather` on, which answers when all its tasks are over. -/
def gathered (n : Nat) (p : MockProvider F) : MockProvider F :=
  match p.shutdowns[n]? with
  | none => p
  | some pending =>
    if pending.all fun m => p.tasks[m]?.all fun task => task.phase matches .over then
      { p.clear with shutdowns := p.shutdowns.eraseIdx n }
    else p

/-- What runs next. -/
def act (p : MockProvider F) : MockAction F → MockProvider F
  | .originate phoneNumber timeoutSeconds now hang latency =>
    p.originate phoneNumber timeoutSeconds now hang latency
  | .wake n failure draws => p.wake n failure draws
  | .cancel n => p.cancel n
  | .hangup id => p.hangup id
  | .resume n => p.resume n
  | .raise n => p.raise n
  | .shutdown => p.shutdown
  | .gathered n => p.gathered n
  | .configure behaviour => { p with behaviour }
  | .setOutage outageUntil => { p with outageUntil }

/-- One after another. -/
def run (p : MockProvider F) (actions : List (MockAction F)) : MockProvider F :=
  actions.foldl act p

end MockProvider

/-! ## The calls of a provider

Of the state of a provider, what concerns its calls; and of its actions, what they do to it. -/

/-- The events that are still to be handed on. -/
def DeliveryPhase.left {F : Type} : DeliveryPhase F → List ProviderEvent
  | .created scheduled | .starting scheduled | .handing _ scheduled => MockProvider.events scheduled
  | .waiting event scheduled => event :: MockProvider.events scheduled
  | .over => []

/-- What a provider knows of its calls. -/
structure CallBoard (F : Type) where
  name : String
  callCounter : Nat
  activeCalls : String → Option Nat
  finishedCalls : String → Option ProviderCallStatus
  tasks : List (DeliveryTask F)
  handed : List ProviderEvent

def MockProvider.board {F : Type} (p : MockProvider F) : CallBoard F where
  name := p.name
  callCounter := p.callCounter
  activeCalls := p.activeCalls
  finishedCalls := p.finishedCalls
  tasks := p.tasks
  handed := p.handed

namespace CallBoard

variable {F : Type} [FloatOps F]

/-- A task that is under way: it has not ended, and nobody has asked it to. -/
structure Underway (b : CallBoard F) (n : Nat) (task : DeliveryTask F) : Prop where
  found : b.tasks[n]? = some task
  running : task.phase ≠ .over
  wanted : task.cancelled = false

/-- What can happen to the calls of a provider, where those in `hung` may be hung up. -/
inductive Step (hung : String → Prop) (b : CallBoard F) : CallBoard F → Prop where
  | accepts (behaviour : MockBehaviour F) (draws : ScriptDraws F) {id : String}
      (hid : id = MockProvider.providerCallId b.name (b.callCounter + 1)) {scheduled : Script F}
      {finalStatus : ProviderCallStatus}
      (hscript : MockProvider.buildEventScript b.name behaviour id draws
        = (scheduled, finalStatus)) :
      Step hung b { b with
        callCounter := b.callCounter + 1
        activeCalls := Function.update b.activeCalls id (some b.tasks.length)
        tasks := b.tasks ++ [{
          providerCallId := id, scheduled, finalStatus, phase := .created scheduled }] }
  | cancels (n : Nat) :
      Step hung b { b with tasks := b.tasks.modify n fun task => { task with cancelled := true } }
  | hangsUp {id : String} {n : Nat} (hid : hung id) (hactive : b.activeCalls id = some n) :
      Step hung b { b with
        activeCalls := Function.update b.activeCalls id none
        finishedCalls := Function.update b.finishedCalls id (some .COMPLETED)
        tasks := b.tasks.modify n fun task => { task with cancelled := true } }
  | suspends {n : Nat} {task : DeliveryTask F} (h : b.Underway n task) (phase : DeliveryPhase F)
      (hrunning : phase ≠ .over) (hleft : phase.left = task.phase.left) :
      Step hung b { b with tasks := b.tasks.set n { task with phase } }
  | hands {n : Nat} {task : DeliveryTask F} (h : b.Underway n task) (event : ProviderEvent)
      (scheduled : Script F)
      (hleft : task.phase.left = event :: MockProvider.events scheduled) :
      Step hung b { b with
        tasks := b.tasks.set n { task with phase := .handing event scheduled }
        handed := b.handed ++ [event] }
  | drops {n : Nat} {task : DeliveryTask F} (htask : b.tasks[n]? = some task) :
      Step hung b { b with tasks := b.tasks.set n { task with phase := .over } }
  | leaves {n : Nat} {task : DeliveryTask F} (htask : b.tasks[n]? = some task) :
      Step hung b { b with
        activeCalls := Function.update b.activeCalls task.providerCallId none
        tasks := b.tasks.set n { task with phase := .over } }
  | completes {n : Nat} {task : DeliveryTask F} (h : b.Underway n task)
      (hleft : task.phase.left = []) :
      Step hung b { b with
        activeCalls := Function.update b.activeCalls task.providerCallId none
        finishedCalls :=
          Function.update b.finishedCalls task.providerCallId (some task.finalStatus)
        tasks := b.tasks.set n { task with phase := .over } }
  | clears : Step hung b { b with activeCalls := fun _ => none }

theorem Step.mono {hung hung' : String → Prop} (hle : ∀ id, hung id → hung' id)
    {b b' : CallBoard F} (h : Step hung b b') : Step hung' b b' := by
  cases h with
  | hangsUp hid hactive => exact .hangsUp (hle _ hid) hactive
  | accepts behaviour draws hid hscript => exact .accepts behaviour draws hid hscript
  | cancels n => exact .cancels n
  | suspends h phase hrunning hleft => exact .suspends h phase hrunning hleft
  | hands h event scheduled hleft => exact .hands h event scheduled hleft
  | drops htask => exact .drops htask
  | leaves htask => exact .leaves htask
  | completes h hleft => exact .completes h hleft
  | clears => exact .clears

end CallBoard

/-! ## Every action is a step

The actions are gone through once. Most are one step or none; `shutdown` cancels one task after
another. -/

namespace MockProvider

open CallBoard Relation Concurrent

variable {F : Type} [FloatOps F] {hung : String → Prop} {p : MockProvider F} {n : Nat}
  {task : DeliveryTask F}

theorem deliver_step {scheduled : Script F} (h : p.board.Underway n task)
    (hleft : task.phase.left = events scheduled) :
    Step hung p.board (p.deliver n task scheduled).board := by
  unfold deliver
  split
  · exact .completes h hleft
  · split
    · exact .suspends h _ nofun hleft.symm
    · exact .hands h _ _ hleft

theorem resume_steps (p : MockProvider F) (n : Nat) :
    ReflTransGen (Step hung) p.board (p.resume n).board := by
  unfold resume
  split
  · exact .refl
  · rename_i task htask
    split
    · -- it has been cancelled
      split
      · exact .refl
      · exact .single (.drops htask)
      · exact .single (.leaves htask)
    · rename_i hwanted
      have hunderway : task.phase ≠ .over → p.board.Underway n task := fun hrunning =>
        ⟨htask, hrunning, Bool.eq_false_of_not_eq_true hwanted⟩
      split
      · exact .refl
      · rename_i scheduled hphase
        exact .single (.suspends (hunderway (by rw [hphase]; nofun)) (.starting scheduled) nofun
          (by rw [hphase]; rfl))
      · rename_i scheduled hphase
        exact .single (deliver_step (hunderway (by rw [hphase]; nofun)) (by rw [hphase]; rfl))
      · rename_i event scheduled hphase
        exact .single (.hands (hunderway (by rw [hphase]; nofun)) event scheduled
          (by rw [hphase]; rfl))
      · rename_i event scheduled hphase
        exact .single (deliver_step (hunderway (by rw [hphase]; nofun)) (by rw [hphase]; rfl))

theorem cancelAll_steps (pending : List Nat) (p : MockProvider F) :
    ReflTransGen (Step hung) p.board (pending.foldl cancelTask p).board := by
  induction pending generalizing p with
  | nil => exact .refl
  | cons n pending ih => exact .head (.cancels n) (ih (p.cancelTask n))

/-- **What an action does to the calls.** The hung up calls of the step are those the action hangs
up; every other action may be taken with none. -/
theorem act_steps (p : MockProvider F) (a : MockAction F) :
    ReflTransGen (Step fun id => a = .hangup id) p.board (p.act a).board := by
  cases a with
  | originate phoneNumber timeoutSeconds now hang latency =>
    show ReflTransGen _ _ (p.originate phoneNumber timeoutSeconds now hang latency).board
    unfold originate
    split <;> exact .refl
  | wake n failure draws =>
    show ReflTransGen _ _ (p.wake n failure draws).board
    unfold wake
    split
    · exact .refl
    · split
      · exact .refl
      · exact .single (.accepts p.behaviour draws rfl rfl)
    · exact .refl
  | cancel n =>
    show ReflTransGen _ _ (p.cancel n).board
    unfold cancel
    split <;> exact .refl
  | hangup id =>
    show ReflTransGen _ _ (p.hangup id).board
    unfold hangup
    split
    · exact .refl
    · rename_i n hactive
      exact .single (.hangsUp rfl hactive)
  | resume n => exact p.resume_steps n
  | raise n =>
    show ReflTransGen _ _ (p.raise n).board
    unfold raise
    split
    · exact .refl
    · rename_i task htask
      split
      · exact .single (.leaves htask)
      · exact .refl
  | shutdown =>
    show ReflTransGen _ _ p.shutdown.board
    unfold shutdown
    split
    · exact .single .clears
    · exact cancelAll_steps p.pendingTasks p
  | gathered n =>
    show ReflTransGen _ _ (p.gathered n).board
    unfold gathered
    split
    · exact .refl
    · split
      · exact .single .clears
      · exact .refl
  | configure | setOutage => exact .refl

/-- **What a run does to the calls.** -/
theorem run_steps (p : MockProvider F) (actions : List (MockAction F)) :
    ReflTransGen (Step fun id => .hangup id ∈ actions) p.board (p.run actions).board := by
  induction actions generalizing p with
  | nil => exact .refl
  | cons a actions ih =>
    have hfirst : ReflTransGen (Step fun id => .hangup id ∈ a :: actions) p.board
        (p.act a).board := by
      refine ReflTransGen.mono (fun _ _ => Step.mono ?_) _ _ (p.act_steps a)
      rintro id rfl
      exact List.mem_cons_self
    exact hfirst.trans (ReflTransGen.mono
      (fun _ _ => Step.mono fun id hid => List.mem_cons_of_mem a hid) _ _ (ih (p.act a)))

end MockProvider

/-! ## What the calls keep to

The script of a call is split at every moment: the events that have been handed on for it, in their
order, and those that are left. Ids are numbered without gaps, so the place of a task tells the
number of its call. -/

namespace MockProvider

/-- A text in front of a dash, when it consists of digits. -/
theorem digits_dash_inj {m n : Nat} {s t : List Char}
    (h : Nat.toDigits 10 m ++ '-' :: s = Nat.toDigits 10 n ++ '-' :: t) : m = n ∧ s = t := by
  have hdigits : ∀ (k : Nat) (u : List Char),
      (Nat.toDigits 10 k ++ '-' :: u).takeWhile Char.isDigit = Nat.toDigits 10 k := by
    intro k u
    rw [List.takeWhile_append_of_pos fun c hc =>
      Nat.isDigit_of_mem_toDigits (by decide) (by decide) hc]
    exact List.append_nil _
  have hsame := congrArg (List.takeWhile Char.isDigit) h
  rw [hdigits, hdigits] at hsame
  rw [hsame] at h
  exact ⟨toDigits_injective hsame, (List.cons.inj (List.append_cancel_left h)).2⟩

theorem toList_providerCallId (name : String) (n : Nat) :
    (providerCallId name n).toList = name.toList ++ "-call-".toList ++ Nat.toDigits 10 n := by
  unfold providerCallId
  simp [toString]

theorem providerCallId_injective {name : String} {m n : Nat}
    (h : providerCallId name m = providerCallId name n) : m = n := by
  have hlists := congrArg String.toList h
  rw [toList_providerCallId, toList_providerCallId] at hlists
  exact toDigits_injective (List.append_cancel_left hlists)

/-- **An event id determines its call** and its place in the script. -/
theorem eventId_injective {name : String} {m n i j : Nat}
    (h : s!"{providerCallId name m}-{i}" = s!"{providerCallId name n}-{j}") : m = n ∧ i = j := by
  have htoList : ∀ k l : Nat, (s!"{providerCallId name k}-{l}").toList
      = name.toList ++ "-call-".toList ++ (Nat.toDigits 10 k ++ '-' :: Nat.toDigits 10 l) := by
    intro k l
    have hsplit : (s!"{providerCallId name k}-{l}").toList
        = (providerCallId name k).toList ++ '-' :: Nat.toDigits 10 l := by simp [toString]
    rw [hsplit, toList_providerCallId, List.append_assoc]
  have hlists := congrArg String.toList h
  rw [htoList, htoList] at hlists
  obtain ⟨hcall, hindex⟩ := digits_dash_inj (List.append_cancel_left hlists)
  exact ⟨hcall, toDigits_injective hindex⟩

end MockProvider

namespace CallBoard

open MockProvider

variable {F : Type} [FloatOps F]

omit [FloatOps F] in
/-- The events that have been handed on for a call. -/
def handedFor (b : CallBoard F) (id : String) : List ProviderEvent :=
  b.handed.filter fun e => e.providerCallId = id

/-- A task and its call: the script is split into what has been handed on and what is left, and a
call that is finished has been hung up or has had all of it. -/
structure TaskSound (hung : String → Prop) (b : CallBoard F) (n : Nat) (task : DeliveryTask F) :
    Prop where
  id : task.providerCallId = providerCallId b.name (n + 1)
  script : ∃ behaviour draws, buildEventScript b.name behaviour task.providerCallId draws
    = (task.scheduled, task.finalStatus)
  handed : b.handedFor task.providerCallId <+: events task.scheduled
  progress : task.phase ≠ .over →
    b.handedFor task.providerCallId ++ task.phase.left = events task.scheduled
  unfinished : task.phase ≠ .over → task.cancelled = false →
    b.finishedCalls task.providerCallId = none
  told : ∀ status, b.finishedCalls task.providerCallId = some status →
    hung task.providerCallId ∨ status = task.finalStatus
      ∧ b.handedFor task.providerCallId = events task.scheduled

structure Sound (hung : String → Prop) (b : CallBoard F) : Prop where
  counted : b.callCounter = b.tasks.length
  tasks : ∀ n task, b.tasks[n]? = some task → b.TaskSound hung n task
  active : ∀ id n, b.activeCalls id = some n → b.finishedCalls id = none
    ∧ ∃ task : DeliveryTask F, b.tasks[n]? = some task ∧ task.providerCallId = id
  finished : ∀ id, b.finishedCalls id ≠ none →
    ∃ (n : Nat) (task : DeliveryTask F), b.tasks[n]? = some task ∧ task.providerCallId = id
  handed : ∀ e ∈ b.handed,
    ∃ (n : Nat) (task : DeliveryTask F), b.tasks[n]? = some task ∧ e ∈ events task.scheduled

variable {hung : String → Prop} {b b' : CallBoard F} {n : Nat} {task task' : DeliveryTask F}

omit [FloatOps F] in
theorem modify_of_getElem? {tasks : List (DeliveryTask F)} {f : DeliveryTask F → DeliveryTask F}
    (hn : tasks[n]? = some task) : tasks.modify n f = tasks.set n (f task) := by
  have : Inhabited (DeliveryTask F) := ⟨task⟩
  rw [List.modify_eq_set, hn]
  rfl

omit [FloatOps F] in
theorem getElem?_concat_cases {tasks : List (DeliveryTask F)}
    (h : (tasks ++ [task'])[n]? = some task) :
    tasks[n]? = some task ∨ n = tasks.length ∧ task = task' := by
  rcases Nat.lt_trichotomy n tasks.length with hlt | rfl | hgt
  · exact Or.inl ((List.getElem?_append_left hlt).symm.trans h)
  · rw [List.getElem?_concat_length] at h
    exact Or.inr ⟨rfl, (Option.some.inj h).symm⟩
  · rw [List.getElem?_eq_none (by rw [List.length_append]; exact hgt)] at h
    cases h

/-- The script of a task, before anything in it is put out of order or repeated. -/
theorem TaskSound.rearranged (h : b.TaskSound hung n task) :
    ∃ (behaviour : MockBehaviour F) (draws : ScriptDraws F),
      Rearranged (planned b.name task.providerCallId behaviour draws) (events task.scheduled) := by
  obtain ⟨behaviour, draws, hscript⟩ := h.script
  have hevents := congrArg (fun script => events script.1) hscript
  dsimp only at hevents
  exact ⟨behaviour, draws, hevents ▸ events_rearranged⟩

/-- The events of a script are about its call. -/
theorem TaskSound.about (h : b.TaskSound hung n task) {e : ProviderEvent}
    (he : e ∈ events task.scheduled) : e.providerName = b.name
      ∧ e.providerCallId = task.providerCallId := by
  obtain ⟨behaviour, draws, hscript⟩ := h.rearranged
  obtain ⟨index, step, -, rfl⟩ := mem_planned.mp (hscript.mem.mp he)
  exact ⟨rfl, rfl⟩

theorem Sound.eq_of_id (h : b.Sound hung) {m : Nat} (hn : b.tasks[n]? = some task)
    (hm : b.tasks[m]? = some task') (hid : task'.providerCallId = task.providerCallId) : m = n := by
  rw [(h.tasks m task' hm).id, (h.tasks n task hn).id] at hid
  exact Nat.succ.inj (providerCallId_injective hid)

/-- One task is replaced by the next version of itself, and no other call is touched. What has to be
shown is only what concerns this task: that it is sound, that its call is not active when it is
finished, and that what has been handed on is of its script. -/
theorem Sound.replace (h : b.Sound hung) (hn : b.tasks[n]? = some task)
    {active' : String → Option Nat} {finished' : String → Option ProviderCallStatus}
    {handed' : List ProviderEvent} (hid : task'.providerCallId = task.providerCallId)
    (hother : ∀ id, id ≠ task.providerCallId → finished' id = b.finishedCalls id
      ∧ (handed'.filter fun e => e.providerCallId = id) = b.handedFor id)
    (htask : TaskSound hung { b with
      activeCalls := active', finishedCalls := finished', handed := handed',
      tasks := b.tasks.set n task' } n task')
    (hscheduled : task'.scheduled = task.scheduled)
    (hactive : ∀ id m, active' id = some m → b.activeCalls id = some m
      ∧ (id = task.providerCallId → finished' id = none))
    (hhanded : ∀ e ∈ handed', e ∈ b.handed ∨ e ∈ events task.scheduled) :
    Sound hung { b with
      activeCalls := active', finishedCalls := finished', handed := handed',
      tasks := b.tasks.set n task' } := by
  have hlt : n < b.tasks.length := (List.getElem?_eq_some_iff.mp hn).1
  have hself : (b.tasks.set n task')[n]? = some task' := List.getElem?_set_self hlt
  -- every task is still there, with its id and its script
  have hkeeps : ∀ (m : Nat) (t : DeliveryTask F), b.tasks[m]? = some t →
      ∃ t' : DeliveryTask F, (b.tasks.set n task')[m]? = some t'
        ∧ t'.providerCallId = t.providerCallId ∧ t'.scheduled = t.scheduled := by
    intro m t hm
    by_cases hmn : m = n
    · subst hmn
      cases hn.symm.trans hm
      exact ⟨task', hself, hid, hscheduled⟩
    · exact ⟨t, (List.getElem?_set_ne fun heq => hmn heq.symm).trans hm, rfl, rfl⟩
  refine ⟨?_, fun m t hm => ?_, fun id m hm => ?_, fun id hfin => ?_, fun e he => ?_⟩
  · show b.callCounter = (b.tasks.set n task').length
    rw [List.length_set]
    exact h.counted
  · by_cases hmn : m = n
    · subst hmn
      cases hself.symm.trans hm
      exact htask
    · have hm' : b.tasks[m]? = some t :=
        (List.getElem?_set_ne fun heq => hmn heq.symm).symm.trans hm
      have hsound := h.tasks m t hm'
      obtain ⟨hfinished, hfilter⟩ :=
        hother t.providerCallId fun heq => hmn (h.eq_of_id hn hm' heq)
      have hsame : ({ b with
          activeCalls := active', finishedCalls := finished', handed := handed',
          tasks := b.tasks.set n task' } : CallBoard F).handedFor t.providerCallId
            = b.handedFor t.providerCallId := hfilter
      refine ⟨hsound.id, hsound.script, ?_, fun hrunning => ?_, fun hrunning hwanted => ?_,
        fun status hstatus => ?_⟩
      · rw [hsame]
        exact hsound.handed
      · rw [hsame]
        exact hsound.progress hrunning
      · exact hfinished.trans (hsound.unfinished hrunning hwanted)
      · rw [hsame]
        exact hsound.told status (hfinished.symm.trans hstatus)
  · obtain ⟨hwas, hnone⟩ := hactive id m hm
    obtain ⟨hopen, t, ht, htid⟩ := h.active id m hwas
    obtain ⟨t', ht', htid', -⟩ := hkeeps m t ht
    refine ⟨?_, t', ht', htid'.trans htid⟩
    by_cases heq : id = task.providerCallId
    · exact hnone heq
    · exact (hother id heq).1.trans hopen
  · by_cases heq : id = task.providerCallId
    · exact ⟨n, task', hself, hid.trans heq.symm⟩
    · have hfin' : b.finishedCalls id ≠ none := fun hnone => hfin ((hother id heq).1.trans hnone)
      obtain ⟨m, t, ht, htid⟩ := h.finished id hfin'
      obtain ⟨t', ht', htid', -⟩ := hkeeps m t ht
      exact ⟨m, t', ht', htid'.trans htid⟩
  · rcases hhanded e he with hwas | hown
    · obtain ⟨m, t, ht, hin⟩ := h.handed e hwas
      obtain ⟨t', ht', -, hscheduled'⟩ := hkeeps m t ht
      exact ⟨m, t', ht', hscheduled' ▸ hin⟩
    · exact ⟨n, task', hself, hscheduled ▸ hown⟩

/-- A task may end at any time, and what has been said of its call stays true: the rest of its
script is never handed on, and its status is what it was. -/
theorem TaskSound.ended (h : b.TaskSound hung n task) (active' : String → Option Nat)
    (tasks' : List (DeliveryTask F)) :
    TaskSound hung { b with activeCalls := active', tasks := tasks' } n
      { task with phase := .over } :=
  ⟨h.id, h.script, h.handed, fun hover => absurd rfl hover, fun hover => absurd rfl hover, h.told⟩

/-- A task that has been asked to end. -/
theorem Sound.cancelled (h : b.Sound hung) (n : Nat) :
    Sound hung { b with tasks := b.tasks.modify n fun task => { task with cancelled := true } } := by
  cases hn : b.tasks[n]? with
  | none =>
    rw [List.modify_eq_self (List.getElem?_eq_none_iff.mp hn)]
    exact h
  | some task =>
    rw [modify_of_getElem? hn]
    have hsound := h.tasks n task hn
    exact h.replace hn rfl (fun _ _ => ⟨rfl, rfl⟩)
      ⟨hsound.id, hsound.script, hsound.handed, hsound.progress, fun _ => nofun, hsound.told⟩ rfl
      (fun id m hm => ⟨hm, fun _ => (h.active id m hm).1⟩) (fun e he => Or.inl he)

/-- The id of the next call is of no call yet. -/
theorem Sound.fresh (h : b.Sound hung) (hn : b.tasks[n]? = some task) :
    providerCallId b.name (b.callCounter + 1) ≠ task.providerCallId := by
  intro heq
  rw [(h.tasks n task hn).id, h.counted] at heq
  have hlt := (List.getElem?_eq_some_iff.mp hn).1
  have hsame := providerCallId_injective heq
  omega

/-- A call that is accepted: nothing is known of it yet, and all of its script is left. Its id is
new, since ids are numbered by the counter, which is the number of tasks. -/
theorem Sound.accepted (h : b.Sound hung) (behaviour : MockBehaviour F) (draws : ScriptDraws F)
    {id : String} (hid : id = providerCallId b.name (b.callCounter + 1)) {scheduled : Script F}
    {finalStatus : ProviderCallStatus}
    (hscript : buildEventScript b.name behaviour id draws = (scheduled, finalStatus)) :
    Sound hung { b with
      callCounter := b.callCounter + 1
      activeCalls := Function.update b.activeCalls id (some b.tasks.length)
      tasks := b.tasks ++ [{
        providerCallId := id, scheduled, finalStatus, phase := .created scheduled }] } := by
  have hother : ∀ {n : Nat} {task : DeliveryTask F}, b.tasks[n]? = some task →
      task.providerCallId ≠ id := fun hn heq => h.fresh hn (hid.symm.trans heq.symm)
  have hopen : b.finishedCalls id = none := by
    by_contra hfin
    obtain ⟨n, task, hn, htid⟩ := h.finished id hfin
    exact hother hn htid
  -- what has been handed on is of tasks that were there, and their ids are others
  have hnothing : b.handedFor id = [] := by
    refine List.filter_eq_nil_iff.mpr fun e he hown => ?_
    obtain ⟨n, task, hn, hin⟩ := h.handed e he
    exact hother hn (((h.tasks n task hn).about hin).2.symm.trans (of_decide_eq_true hown))
  -- the tasks that were there are at their places
  have hkeeps : ∀ {n : Nat} {task : DeliveryTask F} (tasks' : List (DeliveryTask F)),
      b.tasks[n]? = some task → (b.tasks ++ tasks')[n]? = some task := fun tasks' hn =>
    (List.getElem?_append_left (List.getElem?_eq_some_iff.mp hn).1).trans hn
  refine ⟨?_, fun n task hn => ?_, fun id' n hn => ?_, fun id' hfin => ?_, fun e he => ?_⟩
  · show b.callCounter + 1 = (b.tasks ++ [_]).length
    rw [List.length_append, h.counted]
    rfl
  · rcases getElem?_concat_cases hn with hn | ⟨rfl, rfl⟩
    · have hsound := h.tasks n task hn
      exact ⟨hsound.id, hsound.script, hsound.handed, hsound.progress, hsound.unfinished,
        hsound.told⟩
    · refine ⟨h.counted ▸ hid, ⟨behaviour, draws, hscript⟩, ?_, fun _ => ?_, fun _ _ => hopen,
        fun status hstatus => ?_⟩
      · show b.handedFor id <+: _
        rw [hnothing]
        exact List.nil_prefix
      · show b.handedFor id ++ _ = _
        rw [hnothing]
        rfl
      · cases hopen.symm.trans hstatus
  · replace hn : Function.update b.activeCalls id (some b.tasks.length) id' = some n := hn
    by_cases heq : id' = id
    · subst heq
      rw [Function.update_self] at hn
      cases hn
      exact ⟨hopen, _, List.getElem?_concat_length, rfl⟩
    · rw [Function.update_of_ne heq] at hn
      obtain ⟨hopen', task, htask, htid⟩ := h.active id' n hn
      exact ⟨hopen', task, hkeeps _ htask, htid⟩
  · obtain ⟨n, task, hn, htid⟩ := h.finished id' hfin
    exact ⟨n, task, hkeeps _ hn, htid⟩
  · obtain ⟨n, task, hn, hin⟩ := h.handed e he
    exact ⟨n, task, hkeeps _ hn, hin⟩

/-- **What a step keeps.** An acceptance adds a task, `clears` takes away entries that nothing
depends on, and every other step replaces one task. -/
theorem Sound.step (h : b.Sound hung) (hstep : Step hung b b') : b'.Sound hung := by
  cases hstep with
  | accepts behaviour draws hid hscript => exact h.accepted behaviour draws hid hscript
  | cancels n => exact h.cancelled n
  -- the call is finished by somebody else: `told` names the hangup
  | @hangsUp id n hhung hactive =>
    obtain ⟨hopen, task, hn, htid⟩ := h.active id n hactive
    rw [modify_of_getElem? hn]
    subst htid
    have hsound := h.tasks n task hn
    refine h.replace hn rfl (fun id hne => ⟨Function.update_of_ne hne .., rfl⟩)
      ⟨hsound.id, hsound.script, hsound.handed, hsound.progress, fun _ => nofun,
        fun _ _ => Or.inl hhung⟩ rfl (fun id m hm => ?_) (fun e he => Or.inl he)
    by_cases heq : id = task.providerCallId
    · rw [heq, Function.update_self] at hm
      cases hm
    · rw [Function.update_of_ne heq] at hm
      exact ⟨hm, fun h => absurd h heq⟩
  | @suspends n task hunderway phase hrunning hleft =>
    have hsound := h.tasks n task hunderway.found
    exact h.replace hunderway.found rfl (fun _ _ => ⟨rfl, rfl⟩)
      ⟨hsound.id, hsound.script, hsound.handed,
        fun _ => hleft ▸ hsound.progress hunderway.running,
        fun _ _ => hsound.unfinished hunderway.running hunderway.wanted, hsound.told⟩ rfl
      (fun id m hm => ⟨hm, fun _ => (h.active id m hm).1⟩) (fun e he => Or.inl he)
  -- one event moves from what is left to what has been handed on
  | @hands n task hunderway event scheduled hleft =>
    have hsound := h.tasks n task hunderway.found
    have hprogress := hsound.progress hunderway.running
    rw [hleft] at hprogress
    have hevent : event ∈ events task.scheduled :=
      hprogress ▸ List.mem_append_right _ List.mem_cons_self
    have hopen := hsound.unfinished hunderway.running hunderway.wanted
    have hown : ((b.handed ++ [event]).filter fun e => e.providerCallId = task.providerCallId)
        = b.handedFor task.providerCallId ++ [event] := by
      rw [List.filter_append, List.filter_singleton, decide_eq_true (hsound.about hevent).2]
      rfl
    refine h.replace hunderway.found rfl (fun id hne => ⟨rfl, ?_⟩) ⟨hsound.id, hsound.script, ?_,
      fun _ => ?_, fun _ _ => hopen, fun status hstatus => ?_⟩ rfl
      (fun id m hm => ⟨hm, fun _ => (h.active id m hm).1⟩) (fun e he => ?_)
    -- for the other calls nothing is handed on
    · have hforeign : event.providerCallId ≠ id := fun heq =>
        hne (heq.symm.trans (hsound.about hevent).2)
      rw [List.filter_append, List.filter_singleton, decide_eq_false hforeign]
      exact List.append_nil _
    · refine ⟨events scheduled, ?_⟩
      show ((b.handed ++ [event]).filter _) ++ _ = _
      rw [hown, List.append_assoc]
      exact hprogress
    · show ((b.handed ++ [event]).filter _) ++ _ = _
      rw [hown, List.append_assoc]
      exact hprogress
    · cases hopen.symm.trans hstatus
    · rcases List.mem_append.mp he with he | he
      · exact Or.inl he
      · exact Or.inr (List.mem_singleton.mp he ▸ hevent)
  | @drops n task hn =>
    exact h.replace hn rfl (fun _ _ => ⟨rfl, rfl⟩) ((h.tasks n task hn).ended _ _) rfl
      (fun id m hm => ⟨hm, fun _ => (h.active id m hm).1⟩) (fun e he => Or.inl he)
  | @leaves n task hn =>
    refine h.replace hn rfl (fun _ _ => ⟨rfl, rfl⟩) ((h.tasks n task hn).ended _ _) rfl
      (fun id m hm => ?_) (fun e he => Or.inl he)
    by_cases heq : id = task.providerCallId
    · rw [heq, Function.update_self] at hm
      cases hm
    · rw [Function.update_of_ne heq] at hm
      exact ⟨hm, fun h => absurd h heq⟩
  -- nothing is left, so the whole script has been handed on
  | @completes n task hunderway hleft =>
    have hsound := h.tasks n task hunderway.found
    have hall : b.handedFor task.providerCallId = events task.scheduled := by
      have hprogress := hsound.progress hunderway.running
      rwa [hleft, List.append_nil] at hprogress
    refine h.replace hunderway.found rfl (fun id hne => ⟨Function.update_of_ne hne .., rfl⟩)
      ⟨hsound.id, hsound.script, hsound.handed, fun hover => absurd rfl hover,
        fun hover => absurd rfl hover, fun status hstatus => Or.inr ⟨?_, hall⟩⟩ rfl
      (fun id m hm => ?_) (fun e he => Or.inl he)
    · have hself := hstatus
      simp only [Function.update_self] at hself
      exact (Option.some.inj hself).symm
    · by_cases heq : id = task.providerCallId
      · rw [heq, Function.update_self] at hm
        cases hm
      · rw [Function.update_of_ne heq] at hm
        exact ⟨hm, fun h => absurd h heq⟩
  | clears =>
    refine ⟨h.counted, fun n task hn => ?_, fun _ _ => nofun, h.finished, h.handed⟩
    have hsound := h.tasks n task hn
    exact ⟨hsound.id, hsound.script, hsound.handed, hsound.progress, hsound.unfinished,
      hsound.told⟩

theorem Sound.steps (h : b.Sound hung) (hsteps : Relation.ReflTransGen (Step hung) b b') :
    b'.Sound hung := by
  induction hsteps with
  | refl => exact h
  | tail _ hstep ih => exact ih.step hstep

/-! ## A call that is finished

Nothing hands on an event for a finished call, and nothing overwrites its status: both need a task
that is under way, whose call is not finished, or a call that is active. -/

/-- The status of a call that is finished, and the events that its processor has got. -/
structure Told (b : CallBoard F) (id : String) (status : ProviderCallStatus)
    (events : List ProviderEvent) : Prop where
  finished : b.finishedCalls id = some status
  handed : b.handedFor id = events

/-- A call that is finished stays as it is. The steps that could change it are of a task under way
or of an active call, and a finished call has neither. -/
theorem Told.step {id : String} {status : ProviderCallStatus} {events : List ProviderEvent}
    (h : b.Sound hung) (htold : b.Told id status events) (hstep : Step hung b b') :
    b'.Told id status events := by
  -- a finished call is neither active nor that of a task under way
  have hactive : ∀ n, b.activeCalls id ≠ some n := fun n hn => by
    cases (h.active id n hn).1.symm.trans htold.finished
  have hunderway : ∀ {n : Nat} {task : DeliveryTask F}, b.Underway n task →
      id ≠ task.providerCallId := by
    rintro n task hunder rfl
    cases ((h.tasks n task hunder.found).unfinished hunder.running hunder.wanted).symm.trans
      htold.finished
  cases hstep with
  | accepts | cancels | suspends | drops | leaves | clears => exact ⟨htold.finished, htold.handed⟩
  | @hangsUp id' n _ hn =>
    have hne : id ≠ id' := fun heq => hactive n (heq ▸ hn)
    exact ⟨(Function.update_of_ne hne ..).trans htold.finished, htold.handed⟩
  | @hands n task hunder event scheduled hleft =>
    have hsound := h.tasks n task hunder.found
    have hevent : event ∈ MockProvider.events task.scheduled :=
      hsound.progress hunder.running ▸ List.mem_append_right _ (hleft ▸ List.mem_cons_self)
    have hforeign : event.providerCallId ≠ id := fun heq =>
      hunderway hunder (heq.symm.trans (hsound.about hevent).2)
    refine ⟨htold.finished, ?_⟩
    show ((b.handed ++ [event]).filter fun e => e.providerCallId = id) = events
    rw [List.filter_append, List.filter_singleton, decide_eq_false hforeign]
    exact (List.append_nil _).trans htold.handed
  | completes hunder _ =>
    exact ⟨(Function.update_of_ne (hunderway hunder) ..).trans htold.finished, htold.handed⟩

theorem Told.steps {id : String} {status : ProviderCallStatus} {events : List ProviderEvent}
    (h : b.Sound hung) (htold : b.Told id status events)
    (hsteps : Relation.ReflTransGen (Step hung) b b') : b'.Told id status events := by
  have hboth : b'.Sound hung ∧ b'.Told id status events := by
    induction hsteps with
    | refl => exact ⟨h, htold⟩
    | tail _ hstep ih => exact ⟨ih.1.step hstep, ih.2.step ih.1 hstep⟩
  exact hboth.2

end CallBoard

end SmartDialer
