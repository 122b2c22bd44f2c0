import TradeGate.Proofs.Decision.EvaluationId
import TradeGate.Proofs.Time.Cutoff

/-!
# Evaluation ids are in the order of time

While years have four digits, all fields of a stamp have their width, and they stand from the longest
to the shortest. So the first field that differs decides between two stamps as it does between the
instants (`Instant.stampChars_append_lt`), whatever stands behind them, and evaluation ids of
different microseconds are in the order of time.
-/

namespace TradeGate

/-! ## One field -/

namespace Date

/-- Between two numbers of two digits the numbers decide, and what follows only if they are equal. -/
theorem twoDigits_append_lt {m n : Int} (hm : 0 ≤ m) (hn : n < 100) {xs ys : List Char}
    (h : m < n ∨ (m = n ∧ xs < ys)) : twoDigits m ++ xs < twoDigits n ++ ys := by
  rcases h with hlt | ⟨rfl, hlt⟩
  · exact padded_append_lt (by decide) (by omega) (by omega) xs ys
  · exact List.append_left_lt hlt

/-- The same for years with four digits. -/
theorem yearChars_append_lt {m n : Int} (hm : 0 ≤ m ∧ m ≤ 9999) (hn : 0 ≤ n ∧ n ≤ 9999)
    {xs ys : List Char} (h : m < n ∨ (m = n ∧ xs < ys)) : yearChars m ++ xs < yearChars n ++ ys := by
  rcases h with hlt | ⟨rfl, hlt⟩
  · unfold yearChars
    rw [if_pos hm, if_pos hn]
    exact padded_append_lt (by decide) (by omega) (by omega) xs ys
  · exact List.append_left_lt hlt

end Date

namespace Instant

open Timestamp (hour_mem minute_mem second_mem subsecond_mem)

/-! ## All fields -/

/-- Hour first, then minute, then second, then microsecond. -/
def ClockBefore (a b : Instant) : Prop :=
  a.hour < b.hour ∨ (a.hour = b.hour ∧ (a.minute < b.minute ∨ (a.minute = b.minute ∧
    (a.second < b.second ∨ (a.second = b.second ∧ a.subsecond / 1000 < b.subsecond / 1000)))))

/-- On one day an earlier microsecond has earlier fields. A leap second, which is counted as the
sixtieth of its minute, stays before the second after it. -/
theorem clockBefore_of_lt {a b : Instant} (h : a < b) (hdiff : ¬ a.SameMicro b)
    (hdate : a.date = b.date) : a.ClockBefore b := by
  have hday : a.seconds / 86400 = b.seconds / 86400 := congrArg Date.dayNumber hdate
  have ha := a.nanos_nonneg
  have ha' := a.nanos_lt
  have hb := b.nanos_nonneg
  have hb' := b.nanos_lt
  have hle : a.secondOfDay ≤ b.secondOfDay := by
    rw [lt_def] at h
    simp only [ticks, secondOfDay, secondsPerDay, nanosPerSecond] at *
    omega
  have hhour : ∀ t : Instant, t.hour = t.secondOfDay / 60 / 60 := fun t => by
    unfold hour
    omega
  unfold ClockBefore minute
  rw [hhour, hhour]
  rcases Int.lt_or_eq_of_le (show a.secondOfDay / 60 ≤ b.secondOfDay / 60 by omega) with hlt | heq
  · omega
  · rw [heq]
    refine .inr ⟨rfl, .inr ⟨rfl, ?_⟩⟩
    -- within a minute the seconds decide, up to the sixtieth, and then the microseconds
    have hleap := a.leap
    have hsame : a.secondOfDay = b.secondOfDay → a.seconds = b.seconds ∧ a.nanos < b.nanos := by
      intro hsecond
      rw [lt_def] at h
      simp only [ticks, secondOfDay, secondsPerDay, nanosPerSecond] at *
      omega
    have hsixty : nanosPerSecond ≤ a.nanos → a.secondOfDay % 60 = 59 := by
      intro hover
      have hlast := hleap hover
      unfold secondOfDay secondsPerDay
      omega
    unfold SameMicro at hdiff
    unfold second subsecond isLeap
    simp only [decide_eq_true_eq]
    unfold nanosPerSecond at *
    split <;> split <;> omega

theorem before_fields {a b : Instant} (h : a < b) (hdiff : ¬ a.SameMicro b) :
    a.date < b.date ∨ (a.date = b.date ∧ a.ClockBefore b) := by
  rcases Int.lt_or_eq_of_le (date_le_date (Int.le_of_lt h)) with hlt | heq
  · exact .inl hlt
  · have hdate : a.date = b.date := congrArg Date.mk heq
    exact .inr ⟨hdate, clockBefore_of_lt h hdiff hdate⟩

/-- The digits of an earlier time of day come first, whatever follows. -/
theorem ClockBefore.append_lt {a b : Instant} (h : a.ClockBefore b) (xs ys : List Char) :
    Date.twoDigits a.hour ++ (Date.twoDigits a.minute ++ (Date.twoDigits a.second ++
        (Numeral.padded 6 (a.subsecond / 1000).toNat ++ xs))) <
      Date.twoDigits b.hour ++ (Date.twoDigits b.minute ++ (Date.twoDigits b.second ++
        (Numeral.padded 6 (b.subsecond / 1000).toNat ++ ys))) := by
  have hhour := hour_mem b
  have hminute := minute_mem b
  have hsecond := second_mem b
  have hmicro := subsecond_mem a
  have hmicro' := subsecond_mem b
  refine Date.twoDigits_append_lt (hour_mem a).1 (by omega) (h.imp_right (And.imp_right fun h => ?_))
  refine Date.twoDigits_append_lt (minute_mem a).1 (by omega)
    (h.imp_right (And.imp_right fun h => ?_))
  refine Date.twoDigits_append_lt (second_mem a).1 (by omega)
    (h.imp_right (And.imp_right fun h => ?_))
  exact Date.padded_append_lt (by decide) (by omega) (by omega) xs ys

/-- The stamp of an earlier microsecond comes first, whatever follows. -/
theorem stampChars_append_lt {a b : Instant} (h : a < b) (hdiff : ¬ a.SameMicro b)
    (ha : a.date.HasFourDigitYear) (hb : b.date.HasFourDigitYear) (xs ys : List Char) :
    a.stampChars ++ xs < b.stampChars ++ ys := by
  have hmonth := a.date.civil_month_mem
  have hmonth' := b.date.civil_month_mem
  have hday := a.date.civil_day_mem
  have hday' := b.date.civil_day_mem
  have hfields : a.date.civil.Before b.date.civil ∨
      (a.date.civil = b.date.civil ∧ a.ClockBefore b) :=
    (before_fields h hdiff).imp Date.before_civil (And.imp_left (congrArg Date.civil))
  unfold stampChars
  simp only [List.append_assoc]
  refine Date.yearChars_append_lt ha hb ?_
  rcases hfields with hyear | ⟨hcivil, hbefore⟩
  · refine hyear.imp_right (And.imp_right fun h => ?_)
    refine Date.twoDigits_append_lt (by omega) (by omega) (h.imp_right (And.imp_right fun h => ?_))
    exact Date.twoDigits_append_lt (by omega) (by omega) (.inl h)
  · rw [hcivil]
    exact .inr ⟨rfl, List.append_left_lt (List.append_left_lt (hbefore.append_lt _ _))⟩

end Instant

/-! ## Ids -/

theorem toList_evaluationId (now : Instant) (request : Option String) :
    (evaluationId now request).toList =
      "GUARD-".toList ++ (now.stampChars ++ '-' :: requestFront request) := by
  rw [evaluationId_eq, String.toList_ofList]

theorem evaluationId_lt {a b : Instant} (h : a < b) (hdiff : ¬ a.SameMicro b)
    (ha : a.date.HasFourDigitYear) (hb : b.date.HasFourDigitYear) (request request' : Option String) :
    evaluationId a request < evaluationId b request' := by
  show (evaluationId a request).toList < (evaluationId b request').toList
  rw [toList_evaluationId, toList_evaluationId]
  exact List.append_left_lt (Instant.stampChars_append_lt h hdiff ha hb _ _)

/-- Two evaluation ids are the same if and only if they are of the same microsecond and of request ids
with the same front. While years have four digits, ids of different microseconds are in the order of
time as texts, whatever the request ids. -/
theorem evaluationId_identifies (a b : Instant) (request request' : Option String) :
    (evaluationId a request = evaluationId b request' ↔
      a.SameMicro b ∧ requestFront request = requestFront request') ∧
    (a.date.HasFourDigitYear → b.date.HasFourDigitYear → ¬ a.SameMicro b →
      (evaluationId a request < evaluationId b request' ↔ a < b)) := by
  refine ⟨evaluationId_eq_iff, fun ha hb hdiff => ⟨fun hlt => ?_, fun hlt => ?_⟩⟩
  · refine Int.not_le.1 fun hle => ?_
    have hback : b < a := by
      rcases Int.lt_or_eq_of_le hle with hback | hsame
      · exact hback
      · rw [Instant.ticks_injective hsame] at hdiff
        exact absurd (Instant.SameMicro.refl a) hdiff
    have hdiff' : ¬ b.SameMicro a := fun h => hdiff ⟨h.1.symm, h.2.symm⟩
    exact String.lt_asymm hlt (evaluationId_lt hback hdiff' hb ha request' request)
  · exact evaluationId_lt hlt hdiff ha hb request request'

/-- A leap second, and the second after it. -/
theorem evaluationId_leap :
    evaluationId .withinLeap (some "zz") = "GUARD-20161231235960500000-zz" ∧
      evaluationId .withinLeap (some "zz") < evaluationId .afterLeap none ∧
      evaluationId .afterLeap (some "") = evaluationId .afterLeap none := by
  refine ⟨by decide +kernel, ?_, ?_⟩
  · exact ((evaluationId_identifies _ _ _ _).2 (by decide) (by decide) (by decide)).2 (by decide)
  · exact (evaluationId_identifies _ _ _ _).1.2 ⟨by decide, by decide⟩

end TradeGate
