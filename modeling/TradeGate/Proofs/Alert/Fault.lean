import TradeGate.Proofs.Alert.History

/-!
# When the limiter cannot tell what is left

A check that holds an alert back tells what is left of the interval, and faults if that is beyond the
greatest length of spans. The interval itself never is, but a delivery that lies ahead of the check
adds to it. So a check faults exactly if the last delivery for its reason lies far enough ahead
(`Limiter.check_eq_error_iff`), a run of calls is answered exactly if none of its checks comes so
(`Limiter.allAnswered_iff`), and an interval at the bound leaves no room for a clock that is set back
by a second (`Limiter.not_allAnswered_setBackCalls`).
-/

namespace TradeGate

open Instant (longestSpan)

namespace Limiter

variable {minIntervalSeconds : UInt64} {maxPerHour : UInt32}

/-! ## One check -/

/-- No interval is beyond the greatest length of spans. -/
theorem minInterval_ofLimits_mem (minIntervalSeconds : UInt64) (maxPerHour : UInt32) :
    0 ≤ (ofLimits minIntervalSeconds maxPerHour).minInterval ∧
      (ofLimits minIntervalSeconds maxPerHour).minInterval ≤ maxSpan := by
  have hbound : maxSeconds * nanosPerSecond ≤ maxSpan := by decide
  unfold ofLimits
  unfold nanosPerSecond at *
  dsimp only
  omega

theorem checkPruned_eq_error_iff {limiter : Limiter} {reason : Reason} {now : Instant} :
    limiter.checkPruned reason now = .error .overflow ↔
      ∃ last, limiter.last? reason = some last ∧
        now.nanosSince last < limiter.minInterval - maxSpan := by
  have hspan : 0 < maxSpan := by decide
  unfold checkPruned
  cases limiter.last? reason with
  | none => simp
  | some last =>
    simp only [Option.some.injEq, exists_eq_left']
    by_cases hrecent : now.nanosSince last < limiter.minInterval
    · rw [if_pos hrecent]
      unfold spanSub
      by_cases hfits : limiter.minInterval - now.nanosSince last ≤ maxSpan
      · rw [if_pos ⟨by omega, hfits⟩]
        refine iff_of_false (fun h => nomatch h) (by omega)
      · rw [if_neg fun h => hfits h.2]
        exact iff_of_true rfl (by omega)
    · rw [if_neg hrecent]
      refine iff_of_false (fun h => nomatch h) (by omega)

/-! ## What is never forgotten -/

/-- An interval longer than any two instants are apart leaves nothing to cut off. -/
theorem not_cutsOff_retention {limiter : Limiter} (hseconds : limiter.InSeconds)
    (hlong : longestSpan < limiter.minInterval) (now seen : Instant) :
    ¬ Instant.CutsOff (max limiter.minInterval hour) now seen := by
  rintro ⟨cutoff, hcutoff, -⟩
  obtain ⟨n, -, hretention⟩ := exists_retention hseconds
  have hspan : longestSpan < n * nanosPerSecond := by omega
  rw [hretention, now.sub?_eq_none hspan] at hcutoff
  exact nomatch hcutoff

/-- A limiter with such an interval remembers the last delivery for every reason. -/
theorem Follows.last?_prune_of_long {limiter : Limiter} {records : List Delivery}
    {readings : List Instant} (h : limiter.Follows records readings) (hseconds : limiter.InSeconds)
    (hlong : longestSpan < limiter.minInterval) (now : Instant) {reason : Reason} {last : Instant}
    (hlast : lastFor? reason records = some last) :
    (limiter.prune now).last? reason = some last := by
  have hnone := not_cutsOff_retention hseconds hlong
  have hmem : (reason, last) ∈ (limiter.prune now).lastByReason := by
    rw [mem_lastByReason_prune]
    refine ⟨(h.forgotten reason last hlast).resolve_right ?_, hnone now last⟩
    rintro ⟨reading, -, hcut⟩
    exact hnone reading last hcut
  exact (h.prune now).last?_of_mem hmem

/-! ## The law -/

/-- The last delivery for the reason lies so far ahead of `now` that what is left of the interval is
beyond the greatest length of spans. -/
def FarAhead (minInterval : Int) (records : List Delivery) (reason : Reason) (now : Instant) : Prop :=
  ∃ last, lastFor? reason records = some last ∧ now.nanosSince last < minInterval - maxSpan

/-- A check faults exactly if the last delivery for its reason lies too far ahead, whatever the limits,
the calls before it and their instants. -/
theorem check_eq_error_iff (minIntervalSeconds : UInt64) (maxPerHour : UInt32) (calls : List Call)
    (reason : Reason) (now : Instant) :
    ((behind minIntervalSeconds maxPerHour calls).check reason now).1 = .error .overflow ↔
      FarAhead (ofLimits minIntervalSeconds maxPerHour).minInterval (recorded calls) reason now := by
  obtain ⟨readings, -, hfollows⟩ := exists_follows minIntervalSeconds maxPerHour calls
  have hlimit := (limits_behind minIntervalSeconds maxPerHour calls).1
  have hseconds := inSeconds_ofLimits minIntervalSeconds maxPerHour
  unfold InSeconds at hseconds
  unfold FarAhead
  rw [← hlimit] at hseconds ⊢
  generalize behind minIntervalSeconds maxPerHour calls = limiter at *
  have hfault : (limiter.check reason now).1 = .error .overflow ↔ _ := checkPruned_eq_error_iff
  refine hfault.trans ⟨?_, ?_⟩
  · rintro ⟨last, hlast, hahead⟩
    exact ⟨last, (hfollows.prune now).lastFor?_of_last? hlast, hahead⟩
  · rintro ⟨last, hlast, hahead⟩
    -- only an interval that long can be exceeded, and then nothing has been forgotten
    have hroom : 2 * longestSpan < maxSpan := by decide
    have hfar := now.nanosSince_mem last
    have hlong : longestSpan < limiter.minInterval := by omega
    exact ⟨last, hfollows.last?_prune_of_long hseconds hlong now hlast, hahead⟩

/-- The calls are carried out to the last, none of them with a fault. -/
def AllAnswered (minIntervalSeconds : UInt64) (maxPerHour : UInt32) (calls : List Call) : Prop :=
  ∃ answers, (untilFault handle calls (ofLimits minIntervalSeconds maxPerHour)).1 = .ok answers

/-- Only a check can fault. -/
theorem exists_handle_eq_ok_iff {limiter : Limiter} {call : Call} :
    (∃ answer, (handle call limiter).1 = .ok answer) ↔
      ∀ reason now, call = .check reason now → (limiter.check reason now).1 ≠ .error .overflow := by
  cases call with
  | check reason now =>
    have hhandle : (handle (.check reason now) limiter).1 =
      (limiter.check reason now).1.map some := rfl
    rw [hhandle]
    cases hanswer : (limiter.check reason now).1 with
    | error fault => exact iff_of_false (fun ⟨_, h⟩ => nomatch h) fun h => h _ _ rfl hanswer
    | ok answer =>
      refine iff_of_true ⟨_, rfl⟩ ?_
      rintro _ _ ⟨⟩ hfault
      exact nomatch hanswer.symm.trans hfault
  | record reason now => exact iff_of_true ⟨_, rfl⟩ fun _ _ h => nomatch h
  | reset => exact iff_of_true ⟨_, rfl⟩ fun _ _ h => nomatch h

theorem allAnswered_iff {calls : List Call} :
    AllAnswered minIntervalSeconds maxPerHour calls ↔
      ∀ before reason now after, calls = before ++ .check reason now :: after →
        ¬ FarAhead (ofLimits minIntervalSeconds maxPerHour).minInterval (recorded before) reason now := by
  unfold AllAnswered
  rw [History.exists_untilFault_eq_ok_iff]
  simp only [exists_handle_eq_ok_iff]
  constructor
  · intro h before reason now after hsplit
    rw [← check_eq_error_iff]
    exact h before _ after hsplit reason now rfl
  · rintro h before _ after hsplit reason now rfl
    have hnear := h before reason now after hsplit
    rwa [← check_eq_error_iff] at hnear

/-- All checks are answered unless one comes with the last delivery for its reason too far ahead. So
they are wherever the clock may stand if the interval is shorter than the greatest length by as much
as two instants can be apart, and on a clock that does not go back if it is shorter by a second or no
instant is within a leap second. -/
theorem allAnswered_of_calls (minIntervalSeconds : UInt64) (maxPerHour : UInt32) (calls : List Call) :
    (AllAnswered minIntervalSeconds maxPerHour calls ↔
      ∀ before reason now after, calls = before ++ .check reason now :: after →
        ¬ FarAhead (ofLimits minIntervalSeconds maxPerHour).minInterval (recorded before) reason now) ∧
    (minIntervalSeconds.toNat * nanosPerSecond + longestSpan ≤ maxSpan →
      AllAnswered minIntervalSeconds maxPerHour calls) ∧
    ((calls.filterMap Call.reading?).Pairwise (· ≤ ·) →
      minIntervalSeconds.toNat < maxSeconds ∨
        (∀ now ∈ calls.filterMap Call.reading?, now.isLeap = false) →
      AllAnswered minIntervalSeconds maxPerHour calls) := by
  have hle : (ofLimits minIntervalSeconds maxPerHour).minInterval ≤
      minIntervalSeconds.toNat * nanosPerSecond := by
    unfold ofLimits nanosPerSecond
    dsimp only
    omega
  refine ⟨allAnswered_iff, fun hroom => allAnswered_iff.2 ?_, fun hsorted hclock => allAnswered_iff.2 ?_⟩
  · rintro before reason now after - ⟨last, -, hahead⟩
    have hfar := now.nanosSince_mem last
    omega
  · rintro before reason now after rfl ⟨last, hlast, hahead⟩
    have hback : last ≤ now := le_of_lastFor? hsorted rfl hlast
    rcases hclock with hshort | hleap
    · have hahead' := Instant.neg_lt_nanosSince hback
      have hbound : maxSeconds * nanosPerSecond ≤ maxSpan := by decide
      unfold nanosPerSecond at *
      omega
    · have hinterval := (minInterval_ofLimits_mem minIntervalSeconds maxPerHour).2
      have hnow : now.isLeap = false := hleap now (by simp [Call.reading?])
      have hlast' : last.isLeap = false := by
        refine hleap last ?_
        rw [List.filterMap_append]
        exact List.mem_append_left _ (mem_readings_of_lastFor? hlast)
      have hplace := Instant.unixNanos_le_unixNanos hback hlast'
      rw [Instant.nanosSince_eq_sub hnow hlast'] at hahead
      omega

/-! ## Sample calls -/

theorem allAnswered_sampleCalls :
    AllAnswered 60 1 sampleCalls ∧ AllAnswered 9223372036854775 1 sampleCalls := by
  have hsorted : (sampleCalls.filterMap Call.reading?).Pairwise (· ≤ ·) := by decide
  have hleap : ∀ now ∈ sampleCalls.filterMap Call.reading?, now.isLeap = false := by decide
  exact ⟨(allAnswered_of_calls 60 1 sampleCalls).2.1 (by decide),
    (allAnswered_of_calls 9223372036854775 1 sampleCalls).2.2 hsorted (.inr hleap)⟩

/-- A delivery, and a check for its reason a second before it. -/
def setBackCalls : List Call :=
  [.record .systemHaltState .secondAfterEpoch, .check .systemHaltState .epoch]

/-- At the longest interval a clock that is set back by a second is enough for a fault, with which the
run ends. -/
theorem not_allAnswered_setBackCalls :
    (untilFault handle setBackCalls (ofLimits 9223372036854775 30)).1 = .error .overflow ∧
      ¬ AllAnswered 9223372036854775 30 setBackCalls := by
  have hfault : (untilFault handle setBackCalls (ofLimits 9223372036854775 30)).1 =
      .error .overflow := by decide +kernel
  refine ⟨hfault, fun ⟨answers, hanswers⟩ => ?_⟩
  exact nomatch hfault.symm.trans hanswers

end Limiter

end TradeGate
