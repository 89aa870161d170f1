import SmartDialer.Lib.Sorted
import SmartDialer.Services.ProviderHealth

/-!
# The trimmed window is the filtered history

Every write and every read drops outdated samples from the front of the provider's window. As long
as the monotonic clock does not go back, what has been dropped stays outdated, and what is left,
trimmed once more, is what filtering everything ever recorded would leave.
-/

namespace SmartDialer

open HostFloat

namespace ProviderHealthManager

variable {F : Type}

/-! ## Histories

A use of the manager carries the clock readings it makes, so that a sequence of uses says what the
clock showed. The history of a provider is computed from the uses alone, with no window. -/

/-- A call of the manager, with the clock readings it makes. -/
inductive Use (F : Type) where
  | recordOriginate (providerName : String) (success timedOut : Bool) (latencyMs : Int)
      (recordedAt now : F)
  | recordEventReceived (providerName : String)
  | getHealth (providerName : String) (now : F) (computedAt : Time)

def Use.readings : Use F → List F
  | .recordOriginate _ _ _ _ recordedAt now => [recordedAt, now]
  | .recordEventReceived _ => []
  | .getHealth _ now _ => [now]

/-- The calls that record something. -/
def Use.records : Use F → Bool
  | .getHealth .. => false
  | _ => true

/-- The sample the call records for the provider. -/
def Use.sample (providerName : String) : Use F → Option (OriginateSample F)
  | .recordOriginate name success timedOut latencyMs recordedAt _ =>
    if name = providerName then some { recordedAt, success, timedOut, latencyMs } else none
  | _ => none

/-- The call records an event of the provider. -/
def Use.isEvent (providerName : String) : Use F → Bool
  | .recordEventReceived name => name = providerName
  | _ => false

/-- Every sample ever recorded for the provider, in recording order. -/
def history (providerName : String) (uses : List (Use F)) : List (OriginateSample F) :=
  uses.filterMap (Use.sample providerName)

def eventsOf (providerName : String) (uses : List (Use F)) : Nat :=
  uses.countP (Use.isEvent providerName)

section Histories

variable (providerName : String)

theorem history_append (uses : List (Use F)) (u : Use F) :
    history providerName (uses ++ [u])
      = history providerName uses ++ (u.sample providerName).toList := by
  unfold history
  rw [List.filterMap_append]
  cases h : u.sample providerName <;> simp [h]

theorem history_records (uses : List (Use F)) :
    history providerName (uses.filter Use.records) = history providerName uses := by
  unfold history
  rw [List.filterMap_filter]
  refine List.filterMap_congr fun u _ => ?_
  cases u <;> rfl

theorem eventsOf_records (uses : List (Use F)) :
    eventsOf providerName (uses.filter Use.records) = eventsOf providerName uses := by
  unfold eventsOf
  rw [List.countP_filter]
  refine List.countP_congr fun u _ => ?_
  cases u <;> simp [Use.records, Use.isEvent]

/-- The instants of recording are among the readings, in the same order. So a clock that does not go
back makes the history chronological. -/
theorem recordedAt_sublist (uses : List (Use F)) :
    ((history providerName uses).map OriginateSample.recordedAt).Sublist
      (uses.flatMap Use.readings) := by
  induction uses using List.reverseRecOn with
  | nil => exact List.Sublist.refl []
  | append_singleton uses u ih =>
    rw [history_append, List.map_append, List.flatMap_append]
    refine ih.append ?_
    cases u with
    | recordOriginate name success timedOut latencyMs recordedAt now =>
      by_cases hname : name = providerName
      · simp [Use.sample, Use.readings, hname]
      · simp [Use.sample, hname]
    | recordEventReceived name => simp [Use.sample]
    | getHealth name now computedAt => simp [Use.sample]

theorem readings_records (uses : List (Use F)) :
    ((uses.filter Use.records).flatMap Use.readings).Sublist (uses.flatMap Use.readings) :=
  List.filter_sublist.flatMap Use.readings

end Histories

section Log

variable (m : ProviderHealthManager F) (providerName : String)

@[simp] theorem logStatusChange_samples (status : ProviderHealthStatus) :
    (m.logStatusChange providerName status).samples = m.samples := by
  unfold logStatusChange
  split <;> rfl

@[simp] theorem logStatusChange_eventsReceived (status : ProviderHealthStatus) :
    (m.logStatusChange providerName status).eventsReceived = m.eventsReceived := by
  unfold logStatusChange
  split <;> rfl

end Log

variable [FloatArith F]

def Use.perform (settings : HealthSettings F) (m : ProviderHealthManager F) :
    Use F → ProviderHealthManager F
  | .recordOriginate name success timedOut latencyMs recordedAt now =>
    m.recordOriginate settings name success timedOut latencyMs recordedAt now
  | .recordEventReceived name => m.recordEventReceived name
  | .getHealth name now computedAt => (m.getHealth settings name now computedAt).2

/-- A new manager after the calls. -/
def run (settings : HealthSettings F) (uses : List (Use F)) : ProviderHealthManager F :=
  uses.foldl (fun m u => u.perform settings m) {}

/-- The clock has not gone back. -/
def InOrder (readings : List F) : Prop := readings.Pairwise fun x y => FloatOps.le x y

/-- `recorded_at >= now - HEALTH_WINDOW_SECONDS`. -/
def current (settings : HealthSettings F) (now : F) (sample : OriginateSample F) : Bool :=
  FloatOps.le (FloatArith.sub now settings.HEALTH_WINDOW_SECONDS) sample.recordedAt

/-- The health of a window of samples. -/
def healthOf (settings : HealthSettings F) (window : List (OriginateSample F))
    (providerName : String) (eventsReceived : Nat) (computedAt : Time) : ProviderHealth F :=
  match (statusOf settings window).bind
      (describe settings window providerName eventsReceived computedAt) with
  | .ok health => health
  | .error _ => fallback providerName eventsReceived computedAt

variable (settings : HealthSettings F)

theorem run_append (uses : List (Use F)) (u : Use F) :
    run settings (uses ++ [u]) = u.perform settings (run settings uses) := by
  simp [run]

/-! ## What reading the health does

`get_health` trims the window of one provider and computes from what is left. It leaves the windows
of the others, and the numbers of events, as they are. -/

section GetHealth

variable (m : ProviderHealthManager F) (providerName : String) (now : F) (computedAt : Time)

theorem computeHealth_snd :
    (m.computeHealth settings providerName now computedAt).2.samples
        = Function.update m.samples providerName (trim settings now (m.samples providerName))
      ∧ (m.computeHealth settings providerName now computedAt).2.eventsReceived
        = m.eventsReceived := by
  unfold computeHealth
  dsimp only
  split <;> simp

theorem computeHealth_fst :
    (m.computeHealth settings providerName now computedAt).1
      = (statusOf settings (trim settings now (m.samples providerName))).bind
        (describe settings (trim settings now (m.samples providerName)) providerName
          (m.eventsReceived providerName) computedAt) := by
  unfold computeHealth
  dsimp only
  split
  · next raised hraised => rw [hraised]; rfl
  · next status hstatus => rw [hstatus]; rfl

theorem getHealth_samples :
    (m.getHealth settings providerName now computedAt).2.samples
      = Function.update m.samples providerName (trim settings now (m.samples providerName)) := by
  rw [← (computeHealth_snd settings m providerName now computedAt).1]
  unfold getHealth
  split <;> next heq => rw [heq]

theorem getHealth_eventsReceived :
    (m.getHealth settings providerName now computedAt).2.eventsReceived = m.eventsReceived := by
  rw [← (computeHealth_snd settings m providerName now computedAt).2]
  unfold getHealth
  split <;> next heq => rw [heq]

/-- **`get_health` is a function of the trimmed window**, the number of events and the wall
clock. -/
theorem getHealth_fst :
    (m.getHealth settings providerName now computedAt).1
      = healthOf settings (trim settings now (m.samples providerName)) providerName
        (m.eventsReceived providerName) computedAt := by
  have hfst := computeHealth_fst settings m providerName now computedAt
  have hevents := (computeHealth_snd settings m providerName now computedAt).2
  unfold getHealth healthOf
  split
  · next health m' heq =>
    rw [heq] at hfst
    rw [← hfst]
  · next raised m' heq =>
    rw [heq] at hfst hevents
    rw [← hfst]
    exact congrArg (fun e : String → Nat => fallback providerName (e providerName) computedAt)
      hevents

end GetHealth

/-- The number of events is never trimmed. -/
theorem eventsReceived_run (providerName : String) (uses : List (Use F)) :
    (run settings uses).eventsReceived providerName = eventsOf providerName uses := by
  induction uses using List.reverseRecOn with
  | nil => rfl
  | append_singleton uses u ih =>
    rw [run_append, eventsOf, List.countP_append, ← eventsOf, ← ih]
    cases u with
    | recordOriginate => rfl
    | recordEventReceived name =>
      by_cases hname : name = providerName
      · subst hname
        simp [Use.perform, ProviderHealthManager.recordEventReceived, Use.isEvent]
      · simp [Use.perform, ProviderHealthManager.recordEventReceived, Use.isEvent, hname,
          Function.update_of_ne (Ne.symm hname)]
    | getHealth name now computedAt =>
      show ((run settings uses).getHealth settings name now computedAt).2.eventsReceived _ = _
      rw [getHealth_eventsReceived]
      rfl

/-- Without samples the provider is healthy, unless the thresholds say otherwise. -/
theorem healthOf_nil_status (providerName : String) (eventsReceived : Nat) (computedAt : Time)
    (hfailures : 1 ≤ settings.UNHEALTHY_CONSECUTIVE_FAILURES)
    (hsamples : 1 ≤ settings.HEALTH_MIN_SAMPLES) :
    (healthOf settings [] providerName eventsReceived computedAt).status = .HEALTHY := by
  have hconsecutive : ¬ settings.UNHEALTHY_CONSECUTIVE_FAILURES ≤ 0 := by omega
  have hlow : (0 : Int) < settings.HEALTH_MIN_SAMPLES := by omega
  show deriveStatus settings (F := F) _ _ 0 _ (decide ((0 : Int) < settings.HEALTH_MIN_SAMPLES)) = _
  simp [deriveStatus, hconsecutive, hlow]

/-! ## Trimming

The source pops from the front while the first sample is outdated. On samples in chronological order
this is a filter. -/

section Trim

variable [Rounded F]

theorem not_current_iff {settings : HealthSettings F} {now : F} {s : OriginateSample F} :
    current settings now s = false
      ↔ FloatOps.lt s.recordedAt (FloatArith.sub now settings.HEALTH_WINDOW_SECONDS) := by
  rw [Rounded.lt_iff, current, Bool.not_eq_true]

/-- Trimming splits off samples that are outdated. -/
theorem trim_split (now : F) (window : List (OriginateSample F)) :
    ∃ dropped, window = dropped ++ trim settings now window
      ∧ ∀ s ∈ dropped, current settings now s = false := by
  refine ⟨window.takeWhile fun s => !current settings now s, ?_, fun s hs => ?_⟩
  · simp [trim, current, Rounded.lt_eq]
  · simpa using List.mem_takeWhile_imp hs

/-- What is outdated stays so. -/
theorem outdated_later {settings : HealthSettings F} {now t : F} {s : OriginateSample F}
    (h : current settings now s = false) (hle : FloatOps.le now t) :
    current settings t s = false := by
  rw [not_current_iff] at h ⊢
  exact Rounded.lt_of_lt_of_le h (Rounded.sub_le hle (Rounded.le_refl _))

/-- A sample recorded no earlier than a current one is current. -/
theorem current_later {settings : HealthSettings F} {now : F} {s s' : OriginateSample F}
    (hle : FloatOps.le s.recordedAt s'.recordedAt) (h : current settings now s = true) :
    current settings now s' = true := by
  by_contra hs'
  rw [Bool.not_eq_true, not_current_iff] at hs'
  have hs : current settings now s = false :=
    not_current_iff.mpr (Rounded.lt_of_le_of_lt hle hs')
  rw [hs] at h
  exact Bool.false_ne_true h

/-- Samples in recording order. -/
def Chronological (window : List (OriginateSample F)) : Prop :=
  window.Pairwise fun s s' => FloatOps.le s.recordedAt s'.recordedAt

theorem trim_eq_filter {window : List (OriginateSample F)} (h : Chronological window) (now : F) :
    trim settings now window = window.filter (current settings now) := by
  rw [← Sorted.dropWhile_eq_filter (fun s s' hle => current_later hle) h]
  simp [trim, current, Rounded.lt_eq]

end Trim

/-! ## The invariant

It speaks of the window as it is stored, which depends on when it was trimmed last, and says just
enough to forget that: whatever is missing will be outdated at every reading to come. -/

section Runs

variable {settings} (providerName : String)

theorem history_chronological {uses : List (Use F)} (h : InOrder (uses.flatMap Use.readings)) :
    Chronological (history providerName uses) :=
  List.pairwise_map.mp (h.sublist (recordedAt_sublist providerName uses))

/-- **The invariant**: a window is the end of the history, and what is missing in front is outdated
now and at every later instant. -/
def Trimmed (settings : HealthSettings F) (uses : List (Use F)) (window : List (OriginateSample F)) :
    Prop :=
  ∃ dropped, history providerName uses = dropped ++ window
    ∧ ∀ s ∈ dropped, ∀ t, (∀ r ∈ uses.flatMap Use.readings, FloatOps.le r t) →
      current settings t s = false

variable {providerName}

/-- One more call that does not touch the window. Its readings are further instants, which only
weakens what is asked of the samples that are missing. -/
theorem Trimmed.skip {uses : List (Use F)} {window : List (OriginateSample F)}
    (h : Trimmed providerName settings uses window) {u : Use F}
    (hsample : u.sample providerName = none) :
    Trimmed providerName settings (uses ++ [u]) window := by
  obtain ⟨dropped, hhistory, hdropped⟩ := h
  refine ⟨dropped, ?_, fun s hs t ht => ?_⟩
  · rw [history_append, hsample, hhistory]
    exact List.append_nil _
  · rw [List.flatMap_append] at ht
    exact hdropped s hs t fun r hr => ht r (List.mem_append_left _ hr)

variable [Rounded F]

/-- One more call, and the window trimmed at one of its readings. -/
theorem Trimmed.trim {uses : List (Use F)} {window : List (OriginateSample F)}
    (h : Trimmed providerName settings uses window) (u : Use F) {now : F}
    (hnow : now ∈ u.readings) :
    Trimmed providerName settings (uses ++ [u])
      (trim settings now (window ++ (u.sample providerName).toList)) := by
  obtain ⟨dropped, hhistory, hdropped⟩ := h
  obtain ⟨more, hsplit, hmore⟩ := trim_split settings now (window ++ (u.sample providerName).toList)
  refine ⟨dropped ++ more, ?_, fun s hs t ht => ?_⟩
  · -- history = dropped ++ window ++ new sample, of which `more` goes now
    rw [history_append, hhistory, List.append_assoc, hsplit, ← List.append_assoc, ← hsplit]
  · rw [List.flatMap_append] at ht
    rcases List.mem_append.mp hs with hs | hs
    · exact hdropped s hs t fun r hr => ht r (List.mem_append_left _ hr)
    · -- dropped by the cutoff of `now`, which is one of the readings before `t`
      exact outdated_later (hmore s hs) (ht now (List.mem_append_right _ (by simpa using hnow)))

/-- **One call** keeps the invariant of every provider. A use concerns one provider: its window
gains a sample, is trimmed, or both, and the windows of the others stay. -/
theorem trimmed_step {uses : List (Use F)} {m : ProviderHealthManager F}
    (h : Trimmed providerName settings uses (m.samples providerName)) (u : Use F) :
    Trimmed providerName settings (uses ++ [u]) ((u.perform settings m).samples providerName) := by
  cases u with
  | recordOriginate name success timedOut latencyMs recordedAt now =>
    by_cases hname : name = providerName
    · subst hname
      have hnow : now ∈ (Use.recordOriginate name success timedOut latencyMs recordedAt now).readings :=
        by simp [Use.readings]
      have htrim := h.trim _ hnow
      simpa [Use.perform, ProviderHealthManager.recordOriginate, Use.sample] using htrim
    -- a sample of another provider
    · have hskip := h.skip (u := .recordOriginate name success timedOut latencyMs recordedAt now)
        (by simp [Use.sample, hname])
      simpa [Use.perform, ProviderHealthManager.recordOriginate,
        Function.update_of_ne (Ne.symm hname)] using hskip
  | recordEventReceived name => exact h.skip rfl
  | getHealth name now computedAt =>
    show Trimmed _ _ _ ((m.getHealth settings name now computedAt).2.samples providerName)
    -- a read trims the window of its own provider, and no other
    rw [getHealth_samples]
    by_cases hname : name = providerName
    · subst hname
      have hnow : now ∈ (Use.getHealth name now computedAt).readings := by simp [Use.readings]
      have htrim := h.trim _ hnow
      simpa [Use.sample] using htrim
    · rw [Function.update_of_ne (Ne.symm hname)]
      exact h.skip rfl

/-- **Every sequence of calls** keeps it. -/
theorem trimmed_run (uses : List (Use F)) :
    Trimmed providerName settings uses ((run settings uses).samples providerName) := by
  induction uses using List.reverseRecOn with
  | nil => exact ⟨[], rfl, fun s hs => by simp at hs⟩
  | append_singleton uses u ih =>
    rw [run_append]
    exact trimmed_step ih u

/-- Of the history, the window keeps what is current. -/
theorem trim_run {uses : List (Use F)} {t : F}
    (hordered : InOrder (uses.flatMap Use.readings ++ [t])) :
    ProviderHealthManager.trim settings t ((run settings uses).samples providerName)
      = (history providerName uses).filter (current settings t) := by
  obtain ⟨hreadings, -, hlast⟩ := List.pairwise_append.mp hordered
  have hsorted := history_chronological providerName hreadings
  have htrimmed : Trimmed providerName settings uses _ := trimmed_run uses
  obtain ⟨dropped, hhistory, hdropped⟩ := htrimmed
  -- the filter takes nothing from what has been dropped, and the rest is sorted
  have hnone : dropped.filter (current settings t) = [] := by
    refine List.filter_eq_nil_iff.mpr fun s hs => ?_
    rw [hdropped s hs t fun r hr => hlast r hr t (List.mem_singleton_self t)]
    exact Bool.false_ne_true
  rw [hhistory] at hsorted ⊢
  rw [trim_eq_filter settings (List.pairwise_append.mp hsorted).2.1, List.filter_append, hnone,
    List.nil_append]

end Runs

/-- **The trimmed window is the filtered history.** After every sequence of calls on a clock that
does not go back, the samples `get_health` uses at `t` are those ever recorded for the provider at
`t - HEALTH_WINDOW_SECONDS` or later, in recording order; what it answers is a function of these and
of the number of events; asking for the health in between makes no difference; and after a silence
longer than the window the provider is healthy. -/
theorem trimmed_window_is_filtered_history [Rounded F] (settings : HealthSettings F)
    (uses : List (Use F)) (t : F) (hordered : InOrder (uses.flatMap Use.readings ++ [t]))
    (providerName : String) (computedAt : Time) :
    trim settings t ((run settings uses).samples providerName)
        = (history providerName uses).filter (current settings t)
    ∧ ((run settings uses).getHealth settings providerName t computedAt).1
        = healthOf settings ((history providerName uses).filter (current settings t)) providerName
          (eventsOf providerName uses) computedAt
    ∧ ((run settings (uses.filter Use.records)).getHealth settings providerName t computedAt).1
        = ((run settings uses).getHealth settings providerName t computedAt).1
    ∧ (1 ≤ settings.UNHEALTHY_CONSECUTIVE_FAILURES → 1 ≤ settings.HEALTH_MIN_SAMPLES →
        (∀ s ∈ history providerName uses,
          FloatOps.lt s.recordedAt (FloatArith.sub t settings.HEALTH_WINDOW_SECONDS)) →
        ((run settings uses).getHealth settings providerName t computedAt).1.status = .HEALTHY) := by
  have hanswer : ∀ uses : List (Use F), InOrder (uses.flatMap Use.readings ++ [t]) →
      ((run settings uses).getHealth settings providerName t computedAt).1
        = healthOf settings ((history providerName uses).filter (current settings t)) providerName
          (eventsOf providerName uses) computedAt := fun uses h => by
    rw [getHealth_fst, trim_run h, eventsReceived_run]
  refine ⟨trim_run hordered, hanswer uses hordered, ?_, fun hfailures hsamples hsilence => ?_⟩
  · have hrecords : InOrder ((uses.filter Use.records).flatMap Use.readings ++ [t]) :=
      hordered.sublist ((readings_records uses).append (List.Sublist.refl [t]))
    rw [hanswer _ hrecords, hanswer _ hordered, history_records, eventsOf_records]
  -- after the whole window in silence nothing is current
  · have hempty : (history providerName uses).filter (current settings t) = [] := by
      refine List.filter_eq_nil_iff.mpr fun s hs => ?_
      rw [not_current_iff.mpr (hsilence s hs)]
      exact Bool.false_ne_true
    rw [hanswer uses hordered, hempty]
    exact healthOf_nil_status settings providerName _ computedAt hfailures hsamples

/-! The theorem at two requests fifty seconds apart, with the health read in between: at 100 s the
first is outdated, and at 200 s both are. -/

def twoRequests : List (Use ℚ) :=
  [.recordOriginate "a" false true 5000 0 0, .getHealth "a" 30 0,
    .recordOriginate "a" true false 200 50 50]

theorem trimmed_window_of_twoRequests :
    trim {} 100 ((run {} twoRequests).samples "a")
        = [{ recordedAt := 50, success := true, timedOut := false, latencyMs := 200 }]
    ∧ ((run {} twoRequests).getHealth {} "a" 200 0).1.status = .HEALTHY := by
  have hmiddle : InOrder (twoRequests.flatMap Use.readings ++ [100]) := by
    unfold InOrder
    decide +kernel
  have hlate : InOrder (twoRequests.flatMap Use.readings ++ [200]) := by
    unfold InOrder
    decide +kernel
  obtain ⟨hwindow, -⟩ := trimmed_window_is_filtered_history {} twoRequests 100 hmiddle "a" 0
  obtain ⟨-, -, -, hsilence⟩ := trimmed_window_is_filtered_history {} twoRequests 200 hlate "a" 0
  refine ⟨hwindow.trans (by decide +kernel), hsilence (by decide) (by decide) ?_⟩
  decide +kernel

end ProviderHealthManager

end SmartDialer
