import SmartDialer.Providers.Window

/-!
# What one more failure does to a provider's health

A failure adds to the trailing failures and to the failure rate. Of the two other statistics it may
take something away: a rejection dilutes the timeout rate, and a failure that was answered fast
moves the 95th percentile of the latencies down. Exactly there the status can get healthier.

The status is a verdict over five yes-or-no questions, and the module goes through them:

* the row of trailing failures, the confidence and the failure rate only get worse;
* the timeout rate gets worse with a timeout, and can fall below its threshold with a rejection
  (`Diluted`);
* the 95th percentile is compared with its threshold through the number of slow samples, so that a
  fast failure can push the slow ones out of the tail (`Outrun`).
-/

namespace SmartDialer

open HostFloat

variable {F : Type}

namespace ProviderHealthManager

/-! ## Counts

How the counts behind the rates change with one more failure. -/

section

variable (samples : List (OriginateSample F))

def successes : Nat := samples.countP fun sample => sample.success

def timeouts : Nat := samples.countP fun sample => sample.timedOut

end

section

variable {samples : List (OriginateSample F)} {failed : OriginateSample F}
  (hfailed : failed.success = false)

include hfailed

theorem countTrailingFailures_append :
    countTrailingFailures (samples ++ [failed]) = countTrailingFailures samples + 1 := by
  unfold countTrailingFailures
  rw [List.reverse_append, List.reverse_singleton, List.singleton_append,
    List.takeWhile_cons_of_pos (by simp [hfailed]), List.length_cons]

theorem successes_append :
    successes (samples ++ [failed]) = successes samples := by
  simp [successes, hfailed]

end

end ProviderHealthManager

variable [FloatArith F]

/-! ## Percentiles

`percentile` sorts and picks one value. Whether it exceeds a threshold can be read off without
sorting, by counting the values that do. -/

theorem item_ok {α : Type} {l : List α} {i : Nat} (hi : i < l.length) : item l i = .ok l[i] := by
  have hnonneg : ¬ (i : Int) < 0 := by omega
  unfold item
  dsimp only
  rw [if_neg hnonneg, if_neg hnonneg, Int.toNat_natCast, List.getElem?_eq_getElem hi]

section Percentile

variable [Rounded F]

theorem percentileIndex_defined {m n : Int} (hm : 0 ≤ m) (hn : 0 < n) {count : Nat}
    (hcount : 0 < count) :
    ∃ i : Nat, percentileIndex (FloatOps.divInt m n : F) count = .ok i ∧ i < count := by
  have hlast : (0 : Int) ≤ count - 1 := by omega
  obtain ⟨i, hi, hnonneg⟩ := Rounded.round_fraction (F := F) hm hn hlast
  refine ⟨(min (count - 1 : Int) i).toNat, ?_, by omega⟩
  unfold percentileIndex
  rw [hi, Int.toNat_of_nonneg (le_min hlast hnonneg)]
  rfl

/-- A percentile exceeds a threshold exactly when enough of the values do. -/
theorem percentile_spec {values : List F} {fraction : F} {i : Nat} (hvalues : values ≠ [])
    (hi : percentileIndex fraction values.length = .ok i) (hlt : i < values.length) :
    ∃ v, percentile values fraction = .ok v
      ∧ ∀ d, FloatOps.lt d v = true ↔ values.length - i ≤ values.countP (FloatOps.lt d) := by
  have hlength : (values.mergeSort FloatOps.le).length = values.length := List.length_mergeSort values
  have hlt' : i < (values.mergeSort FloatOps.le).length := hlength ▸ hlt
  have hsorted : (values.mergeSort FloatOps.le).Pairwise fun x y => FloatOps.le x y := by
    have htrans : ∀ x y z : F, FloatOps.le x y → FloatOps.le y z → FloatOps.le x z :=
      fun x y z hxy hyz => Rounded.le_trans hxy hyz
    refine List.pairwise_mergeSort htrans (fun x y => ?_) values
    rw [Bool.or_eq_true]
    exact Rounded.le_total x y
  refine ⟨(values.mergeSort FloatOps.le)[i], ?_, fun d => ?_⟩
  · have hempty : values.isEmpty = false := by
      rw [List.isEmpty_eq_false_iff]
      exact hvalues
    unfold percentile
    simp only [hempty, Bool.false_eq_true, if_false, hlength, hi]
    exact item_ok hlt'
  -- in a sorted list the values above the threshold are a tail
  · have hup : ∀ x y : F, FloatOps.le x y → FloatOps.lt d x → FloatOps.lt d y :=
      fun x y hxy hd => Rounded.lt_of_lt_of_le hd hxy
    rw [Sorted.above_getElem_iff hup hsorted hlt', hlength,
      (List.mergeSort_perm values FloatOps.le).countP_eq]

end Percentile

namespace ProviderHealthManager

/-! ## The status as a verdict on the window

`_derive_status` compares the statistics of a window with the thresholds one by one. With the
comparisons named, the statuses of two windows are compared by a case split over booleans. -/

/-- How healthy a status is. -/
def healthiness : ProviderHealthStatus → Nat
  | .UNHEALTHY => 0
  | .DEGRADED => 1
  | .HEALTHY => 2

/-- `_derive_status` on the outcomes of its comparisons. -/
def verdict (inRow confident timingOut failing slow : Bool) : ProviderHealthStatus :=
  if inRow then .UNHEALTHY
  else if confident && timingOut then .UNHEALTHY
  else if !confident then .HEALTHY
  else if failing then .DEGRADED
  else if slow then .DEGRADED
  else .HEALTHY

theorem verdict_eq_unhealthy {inRow confident timingOut failing slow : Bool} :
    verdict inRow confident timingOut failing slow = .UNHEALTHY
      ↔ inRow ∨ confident ∧ timingOut := by
  unfold verdict
  split_ifs <;> simp_all

/-- **When a verdict gets no healthier**, if a row of failures, confidence and a failure rate that
is too high are not lost. -/
theorem verdict_le_iff {u u' c c' t t' f f' s s' : Bool} (hu : u → u') (hc : c → c')
    (hf : f → f') :
    healthiness (verdict u' c' t' f' s') ≤ healthiness (verdict u c t f s)
      ↔ ¬(c ∧ ¬u' ∧ t ∧ ¬t') ∧ ¬(c ∧ ¬u' ∧ ¬t' ∧ ¬f' ∧ s ∧ ¬s') := by
  cases u' with
  | true => simp [verdict, healthiness]
  | false =>
    have hu : u = false := by simpa using hu
    cases c with
    | false =>
      -- without confidence nothing but a row of failures counts: the window was healthy
      subst hu
      have hle : ∀ status, healthiness status ≤ healthiness .HEALTHY := fun status => by
        cases status <;> decide
      exact iff_of_true (hle _) (by simp)
    | true =>
      have hc : c' = true := hc rfl
      subst hu hc
      cases t' <;> cases t <;> cases f' <;> cases f <;> cases s' <;> cases s <;>
        -- confident before and after, in no row: the other comparisons are gone through
        simp_all [verdict, healthiness]

section Counts

variable (settings : HealthSettings F) (samples : List (OriginateSample F))

/-- The samples slower than the threshold. -/
def slowOnes : Nat :=
  samples.countP fun sample =>
    FloatOps.lt settings.DEGRADED_LATENCY_MS (FloatOps.ofInt sample.latencyMs)

/-- The position of the 95th percentile among `count` sorted values. -/
def p95Position (F : Type) [FloatArith F] (count : Nat) : Nat :=
  ((percentileIndex (FloatOps.divInt 19 20 : F) count).toOption.getD 0).toNat

/-- From the 95th percentile on, all samples are slow. -/
def slowTail : Bool :=
  if samples = [] then FloatOps.lt settings.DEGRADED_LATENCY_MS (FloatOps.ofInt 0)
  else decide (samples.length - p95Position F samples.length ≤ slowOnes settings samples)

end Counts

section Status

variable [Rounded F] (settings : HealthSettings F) (samples : List (OriginateSample F))

theorem percentile_defined {m n : Int} (hm : 0 ≤ m) (hn : 0 < n) :
    ∃ v, percentile (latencies samples) (FloatOps.divInt m n) = .ok v := by
  by_cases hsamples : samples = []
  · subst hsamples
    exact ⟨FloatOps.ofInt 0, rfl⟩
  · have hne : latencies samples ≠ [] := by simpa [latencies] using hsamples
    obtain ⟨i, hi, hlt⟩ := percentileIndex_defined (F := F) hm hn (List.length_pos_iff.mpr hne)
    obtain ⟨v, hv, -⟩ := percentile_spec hne hi hlt
    exact ⟨v, hv⟩

/-- The 95th percentile is above the threshold exactly when the tail is slow. -/
theorem p95_spec :
    ∃ v, percentile (latencies samples) (FloatOps.divInt 19 20) = .ok v
      ∧ FloatOps.lt settings.DEGRADED_LATENCY_MS v = slowTail settings samples := by
  by_cases hsamples : samples = []
  · subst hsamples
    -- the percentile of no values is 0
    exact ⟨FloatOps.ofInt 0, rfl, rfl⟩
  · have hne : latencies samples ≠ [] := by simpa [latencies] using hsamples
    have hlength : (latencies samples).length = samples.length := by simp [latencies]
    obtain ⟨i, hi, hlt⟩ := percentileIndex_defined (F := F) (m := 19) (n := 20) (by omega)
      (by omega) (List.length_pos_iff.mpr hne)
    obtain ⟨v, hv, habove⟩ := percentile_spec hne hi hlt
    have hposition : p95Position F samples.length = i := by
      unfold p95Position
      rw [← hlength, hi]
      rfl
    refine ⟨v, hv, ?_⟩
    rw [Bool.eq_iff_iff, habove, slowTail, if_neg hsamples, hposition, decide_eq_true_eq, hlength]
    simp only [latencies, List.countP_map]
    rfl

/-- The row of trailing failures is long enough. -/
def inRow : Bool :=
  decide (settings.UNHEALTHY_CONSECUTIVE_FAILURES ≤ countTrailingFailures samples)

/-- **The status of a window** as a verdict. The percentile is always defined, so `_compute_health`
does not raise and the fallback is not taken. -/
theorem healthOf_status (providerName : String) (eventsReceived : Nat) (computedAt : Time) :
    (healthOf settings samples providerName eventsReceived computedAt).status
      = verdict (inRow settings samples) (!lowConfidence settings samples)
        (FloatOps.lt settings.UNHEALTHY_TIMEOUT_RATE (timeoutRate samples))
        (FloatOps.lt settings.DEGRADED_FAILURE_RATE (failureRate samples))
        (slowTail settings samples) := by
  obtain ⟨p95, hp95, hslow⟩ := p95_spec settings samples
  obtain ⟨p50, hp50⟩ := percentile_defined samples (m := 1) (n := 2) (by omega) (by omega)
  have hstatus : statusOf settings samples = .ok (deriveStatus settings (failureRate samples)
      (timeoutRate samples) (countTrailingFailures samples) p95
      (lowConfidence settings samples)) := by
    unfold statusOf
    rw [hp95]
    rfl
  -- no percentile raises, so an answer is described whatever its status
  have hdescribe : ∀ status, ∃ health,
      describe settings samples providerName eventsReceived computedAt status = .ok health
        ∧ health.status = status := by
    intro status
    unfold describe
    rw [hp50, hp95]
    exact ⟨_, rfl, rfl⟩
  obtain ⟨health, hhealth, heq⟩ := hdescribe _
  have hbind : (statusOf settings samples).bind
      (describe settings samples providerName eventsReceived computedAt) = .ok health := by
    rw [hstatus]
    exact hhealth
  have hanswer : healthOf settings samples providerName eventsReceived computedAt = health := by
    unfold healthOf
    rw [hbind]
  rw [hanswer, heq, ← hslow]
  simp [deriveStatus, verdict, inRow]

end Status

/-! ## One more failure

The two rates of the longer window, compared with those of the shorter one, in floats: a quotient
and a difference are rounded, and rounding is monotone. -/

section Append

variable {settings : HealthSettings F} {samples : List (OriginateSample F)}
  {failed : OriginateSample F}

theorem timeoutRate_append :
    timeoutRate (samples ++ [failed])
      = FloatOps.divInt (timeouts (samples ++ [failed])) (samples.length + 1) := by
  unfold timeoutRate timeouts
  rw [if_neg (by simp), List.length_append, List.length_singleton]
  rfl

theorem failureRate_append (hfailed : failed.success = false) :
    failureRate (samples ++ [failed])
      = FloatArith.sub (FloatOps.ofInt 1)
        (FloatOps.divInt (successes samples) (samples.length + 1)) := by
  have hcount : successes samples = successes (samples ++ [failed]) :=
    (successes_append hfailed).symm
  rw [hcount]
  unfold failureRate successRate successes
  rw [if_neg (by simp), if_neg (by simp), List.length_append, List.length_singleton]
  rfl

variable [Rounded F]

/-- The failure rate does not fall. -/
theorem failureRate_le_append (hfailed : failed.success = false) :
    FloatOps.le (failureRate samples) (failureRate (samples ++ [failed])) := by
  rw [failureRate_append hfailed]
  unfold failureRate
  split
  · next hempty =>
    -- the rate of no requests is 0, and 1 - x is no less for an x up to 1
    have hsuccesses : successes samples = 0 := by
      have hle : successes samples ≤ samples.length := List.countP_le_length
      omega
    have hle : FloatOps.le
        (FloatOps.divInt (successes samples) (samples.length + 1) : F) (FloatOps.ofInt 1) := by
      rw [← Rounded.divInt_self (n := 1) (by omega)]
      exact Rounded.divInt_le (by omega) (by omega) (by rw [hsuccesses]; omega)
    rw [← Rounded.sub_self (FloatOps.ofInt 1 : F)]
    exact Rounded.sub_le (Rounded.le_refl _) hle
  · next hne =>
    refine Rounded.sub_le (Rounded.le_refl _) ?_
    unfold successRate
    rw [if_neg hne]
    have hle : (successes samples : Int) * samples.length
        ≤ (successes samples : Int) * (samples.length + 1) :=
      Int.mul_le_mul_of_nonneg_left (by omega) (by omega)
    exact Rounded.divInt_le (by omega) (by omega) hle

/-- Neither does the timeout rate when the failure is a timeout. -/
theorem timeoutRate_le_append (htimedOut : failed.timedOut = true) :
    FloatOps.le (timeoutRate samples) (timeoutRate (samples ++ [failed])) := by
  have hcount : timeouts (samples ++ [failed]) = timeouts samples + 1 := by
    simp [timeouts, htimedOut]
  have hle : timeouts samples ≤ samples.length := List.countP_le_length
  rw [timeoutRate_append, hcount]
  unfold timeoutRate
  split
  · rw [← Rounded.divInt_zero (n := 1) (by omega)]
    exact Rounded.divInt_le (by omega) (by omega) (by omega)
  -- (k + 1) / (n + 1) is no less than k / n, as k is at most n
  · refine Rounded.divInt_le (by omega) (by omega) ?_
    show (timeouts samples : Int) * (samples.length + 1) ≤ _
    push_cast
    nlinarith

/-- With no samples yet, a rejection leaves the timeout rate where it is. -/
theorem timeoutRate_append_nil (htimedOut : failed.timedOut = false) :
    timeoutRate ([failed]) = timeoutRate ([] : List (OriginateSample F)) := by
  have hcount : timeouts [failed] = 0 := by simp [timeouts, htimedOut]
  have happend : timeoutRate ([] ++ [failed]) = FloatOps.divInt _ _ := timeoutRate_append
  rw [List.nil_append, hcount] at happend
  rw [happend]
  exact Rounded.divInt_zero Int.one_pos

end Append

section Improvement

variable (settings : HealthSettings F) (samples : List (OriginateSample F))
  (failed : OriginateSample F)

/-- Enough samples already, and no row of failures that is long enough even with one more. -/
def Undecided : Prop :=
  settings.HEALTH_MIN_SAMPLES ≤ samples.length
    ∧ (countTrailingFailures samples + 1 : Int) < settings.UNHEALTHY_CONSECUTIVE_FAILURES

/-- A rejection that brings the share of timeouts down to the threshold. -/
def Diluted : Prop :=
  Undecided settings samples ∧ failed.timedOut = false ∧ samples ≠ []
    ∧ FloatOps.lt settings.UNHEALTHY_TIMEOUT_RATE
        (FloatOps.divInt (timeouts samples) samples.length)
    ∧ ¬ FloatOps.lt settings.UNHEALTHY_TIMEOUT_RATE
        (FloatOps.divInt (timeouts samples) (samples.length + 1))

/-- A failure answered so fast that the 95th percentile of the latencies leaves the slow ones, while
neither of the two rates is too high. -/
def Outrun : Prop :=
  Undecided settings samples
    ∧ ¬ FloatOps.lt settings.UNHEALTHY_TIMEOUT_RATE
        (FloatOps.divInt (timeouts (samples ++ [failed])) (samples.length + 1))
    ∧ ¬ FloatOps.lt settings.DEGRADED_FAILURE_RATE (FloatArith.sub (FloatOps.ofInt 1)
        (FloatOps.divInt (successes samples) (samples.length + 1)))
    ∧ slowTail settings samples ∧ ¬ slowTail settings (samples ++ [failed])

variable {settings samples failed}

theorem undecided_iff (hfailed : failed.success = false) :
    Undecided settings samples
      ↔ (!lowConfidence settings samples) = true ∧ ¬ inRow settings (samples ++ [failed]) = true := by
  unfold Undecided lowConfidence inRow
  rw [countTrailingFailures_append hfailed]
  simp

theorem outrun_iff (hfailed : failed.success = false) :
    Outrun settings samples failed ↔ Undecided settings samples
      ∧ ¬ FloatOps.lt settings.UNHEALTHY_TIMEOUT_RATE (timeoutRate (samples ++ [failed]))
      ∧ ¬ FloatOps.lt settings.DEGRADED_FAILURE_RATE (failureRate (samples ++ [failed]))
      ∧ slowTail settings samples ∧ ¬ slowTail settings (samples ++ [failed]) := by
  rw [timeoutRate_append, failureRate_append hfailed]
  rfl

/-- What dilution is, on the rates. The counts of timeouts and samples are compared with the
threshold as rates; a rejection adds to the second only. -/
theorem diluted_iff [Rounded F] :
    Diluted settings samples failed ↔ Undecided settings samples
      ∧ FloatOps.lt settings.UNHEALTHY_TIMEOUT_RATE (timeoutRate samples)
      ∧ ¬ FloatOps.lt settings.UNHEALTHY_TIMEOUT_RATE (timeoutRate (samples ++ [failed])) := by
  cases htimedOut : failed.timedOut with
  | true =>
    -- a timeout does not bring the rate down
    have hno : ¬ (FloatOps.lt settings.UNHEALTHY_TIMEOUT_RATE (timeoutRate samples)
        ∧ ¬ FloatOps.lt settings.UNHEALTHY_TIMEOUT_RATE (timeoutRate (samples ++ [failed]))) :=
      fun h => h.2 (Rounded.lt_of_lt_of_le h.1 (timeoutRate_le_append htimedOut))
    simp only [Diluted, htimedOut]
    tauto
  | false =>
    have hcount : timeouts (samples ++ [failed]) = timeouts samples := by
      simp [timeouts, htimedOut]
    -- one more sample, the same number of timeouts
    by_cases hsamples : samples = []
    · subst hsamples
      rw [List.nil_append, timeoutRate_append_nil htimedOut]
      simp only [Diluted, ne_eq, not_true_eq_false]
      tauto
    · have hrate : timeoutRate samples = (FloatOps.divInt (timeouts samples) samples.length : F) := by
        unfold timeoutRate timeouts
        rw [if_neg (by simpa using hsamples)]
      rw [hrate, timeoutRate_append, hcount]
      simp [Diluted, htimedOut, hsamples]

end Improvement

/-- **When a failure improves a provider's health.** The status of a window with one more failed
originate is no healthier than that of the window, unless the failure dilutes the timeout rate or
outruns the slow samples; the retry gate and dialling reopen by dilution only. -/
theorem failure_no_healthier_iff [Rounded F] (settings : HealthSettings F)
    (samples : List (OriginateSample F)) (failed : OriginateSample F)
    (hfailed : failed.success = false) (providerName : String) (eventsReceived : Nat)
    (computedAt : Time) :
    (healthiness (healthOf settings (samples ++ [failed]) providerName eventsReceived
          computedAt).status
        ≤ healthiness (healthOf settings samples providerName eventsReceived computedAt).status
      ↔ ¬ Diluted settings samples failed ∧ ¬ Outrun settings samples failed)
    ∧ ((healthOf settings samples providerName eventsReceived computedAt).status = .UNHEALTHY
        ∧ (healthOf settings (samples ++ [failed]) providerName eventsReceived computedAt).status
          ≠ .UNHEALTHY
      ↔ Diluted settings samples failed) := by
  have hrow : inRow settings samples = true → inRow settings (samples ++ [failed]) = true := by
    unfold inRow
    rw [countTrailingFailures_append hfailed, decide_eq_true_eq, decide_eq_true_eq]
    push_cast
    omega
  have hconfident : (!lowConfidence settings samples) = true →
      (!lowConfidence settings (samples ++ [failed])) = true := by
    simp only [lowConfidence, List.length_append, List.length_singleton, Bool.not_eq_true',
      decide_eq_false_iff_not]
    push_cast
    omega
  have hfailing : FloatOps.lt settings.DEGRADED_FAILURE_RATE (failureRate samples) →
      FloatOps.lt settings.DEGRADED_FAILURE_RATE (failureRate (samples ++ [failed])) :=
    fun h => Rounded.lt_of_lt_of_le h (failureRate_le_append hfailed)
  -- row, confidence and failure rate only get worse: timeout rate and slow tail decide
  rw [healthOf_status, healthOf_status, verdict_le_iff hrow hconfident hfailing, diluted_iff,
    outrun_iff hfailed, undecided_iff hfailed]
  refine ⟨by simp only [and_assoc], ?_⟩
  rw [verdict_eq_unhealthy, ne_eq, verdict_eq_unhealthy]
  constructor
  · rintro ⟨hbefore, hafter⟩
    obtain ⟨hnorow, hnorate⟩ := not_or.mp hafter
    rcases hbefore with hinRow | ⟨hsure, htiming⟩
    · exact absurd (hrow hinRow) hnorow
    · exact ⟨⟨hsure, hnorow⟩, htiming, fun htiming' => hnorate ⟨hconfident hsure, htiming'⟩⟩
  · rintro ⟨⟨hsure, hnorow⟩, htiming, hnot⟩
    exact ⟨Or.inr ⟨hsure, htiming⟩, fun hafter => hafter.elim hnorow fun h => hnot h.2⟩

/-! The theorem at two windows, under the default settings. Of eleven requests that were accepted
one took four seconds: one more that is rejected, which is recorded as answered in no time, and the
95th percentile is that of a fast one. In an outage with six timeouts, a rejection brings their share
down to one half. A timeout does neither. -/

def rejection : OriginateSample ℚ where
  recordedAt := 0
  success := false
  timedOut := false
  latencyMs := 0

def timeout : OriginateSample ℚ := { rejection with timedOut := true, latencyMs := 5000 }

def accepted (latencyMs : Int) : OriginateSample ℚ := { rejection with success := true, latencyMs }

def oneSlowAnswer : List (OriginateSample ℚ) := accepted 4000 :: List.replicate 10 (accepted 200)

def outage : List (OriginateSample ℚ) :=
  List.replicate 6 timeout ++ List.replicate 4 (accepted 200) ++ [rejection]

theorem rejection_improves_health :
    (healthOf {} oneSlowAnswer "a" 0 0).status = .DEGRADED
    ∧ (healthOf {} (oneSlowAnswer ++ [rejection]) "a" 0 0).status = .HEALTHY
    ∧ (healthOf {} outage "a" 0 0).status = .UNHEALTHY
    ∧ (healthOf {} (outage ++ [rejection]) "a" 0 0).status = .DEGRADED
    ∧ ¬ ∀ (settings : HealthSettings ℚ) (samples : List (OriginateSample ℚ))
        (failed : OriginateSample ℚ), failed.success = false →
        healthiness (healthOf settings (samples ++ [failed]) "a" 0 0).status
          ≤ healthiness (healthOf settings samples "a" 0 0).status := by
  have hbefore : (healthOf {} oneSlowAnswer "a" 0 0).status = .DEGRADED := by
    rw [healthOf_status]
    decide +kernel
  have hafter : (healthOf {} (oneSlowAnswer ++ [rejection]) "a" 0 0).status = .HEALTHY := by
    rw [healthOf_status]
    decide +kernel
  refine ⟨hbefore, hafter, ?_, ?_, fun h => ?_⟩
  · rw [healthOf_status]
    decide +kernel
  · rw [healthOf_status]
    decide +kernel
  · have hle := h {} oneSlowAnswer rejection rfl
    rw [hbefore, hafter] at hle
    exact absurd hle (by decide)

theorem timeout_no_healthier :
    healthiness (healthOf {} (oneSlowAnswer ++ [timeout]) "a" 0 0).status
        ≤ healthiness (healthOf {} oneSlowAnswer "a" 0 0).status := by
  have hslow : slowTail {} (oneSlowAnswer ++ [timeout]) = true := by decide +kernel
  refine (failure_no_healthier_iff {} oneSlowAnswer timeout rfl "a" 0 0).1.mpr
    ⟨fun h => ?_, fun h => ?_⟩
  · exact absurd h.2.1 (by decide)
  · exact h.2.2.2.2 hslow

end ProviderHealthManager

end SmartDialer
