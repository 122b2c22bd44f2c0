import TradeGate.Check.Limit
import TradeGate.Check.Rule
import TradeGate.Proofs.Number.Order

/-!
# Limits as conditions

What the limits of a policy mean, said without the checks that apply them: a ceiling and a floor of
numbers, a list of names, a trading window.
-/

namespace TradeGate

namespace Binary64

/-- The value is strictly above the ceiling, or cannot be compared with it. -/
def Above (value ceiling : Binary64) : Prop :=
  lt ceiling value = true ∨ value.isNaN = true ∨ ceiling.isNaN = true

/-- The value is strictly below the floor, or cannot be compared with it. -/
def Below (value floor : Binary64) : Prop :=
  lt value floor = true ∨ value.isNaN = true ∨ floor.isNaN = true

theorem exceeds_iff (value ceiling : Binary64) :
    value.exceeds ceiling = true ↔ value.Above ceiling := by
  unfold exceeds Above
  rw [Bool.not_eq_true', le_eq_false_iff]

theorem fallsBelow_iff (value floor : Binary64) :
    value.fallsBelow floor = true ↔ value.Below floor := by
  unfold fallsBelow Below
  rw [Bool.not_eq_true', le_eq_false_iff]
  exact or_congr_right or_comm

theorem Above.of_le {value ceiling lower : Binary64} (h : value.Above ceiling)
    (hle : le lower ceiling = true) : value.Above lower := by
  rw [← exceeds_iff] at h ⊢
  unfold exceeds at h ⊢
  rw [Bool.not_eq_true'] at h ⊢
  cases hvalue : le value lower with
  | false => rfl
  | true =>
    have htrans : le value ceiling = true := le_trans hvalue hle
    rw [h] at htrans
    exact absurd htrans Bool.false_ne_true

theorem Below.of_le {value floor higher : Binary64} (h : value.Below floor)
    (hle : le floor higher = true) : value.Below higher := by
  rw [← fallsBelow_iff] at h ⊢
  unfold fallsBelow at h ⊢
  rw [Bool.not_eq_true'] at h ⊢
  cases hvalue : le higher value with
  | false => rfl
  | true =>
    have htrans : le floor value = true := le_trans hle hvalue
    rw [h] at htrans
    exact absurd htrans Bool.false_ne_true

end Binary64

namespace Text

/-- The list has the text, where the letters of ASCII count in either case. -/
def Lists (texts : List String) (s : String) : Prop :=
  ∃ t ∈ texts, t.toList.map Char.toLower = s.toList.map Char.toLower

theorem containsIgnoringCase_iff (texts : List String) (s : String) :
    containsIgnoringCase texts s = true ↔ Lists texts s := by
  unfold containsIgnoringCase Lists sameIgnoringCase
  rw [List.any_eq_true]
  refine exists_congr fun t => and_congr_right fun _ => ?_
  exact beq_iff_eq

/-- A text that is listed is listed in every list that has the texts of the first. -/
theorem Lists.of_forall {texts others : List String} {s : String} (h : Lists texts s)
    (hall : ∀ t ∈ texts, Lists others t) : Lists others s := by
  obtain ⟨t, ht, hst⟩ := h
  obtain ⟨u, hu, htu⟩ := hall t ht
  exact ⟨u, hu, htu.trans hst⟩

end Text

namespace TradingWindow

/-- The window holds the hour: from its start to just before its end, and over midnight if it ends
before it starts. -/
def Spans (window : TradingWindow) (hour : Int) : Prop :=
  if window.startHour ≤ window.endHour then
    (window.startHour.toNat : Int) ≤ hour ∧ hour < window.endHour.toNat
  else (window.startHour.toNat : Int) ≤ hour ∨ hour < window.endHour.toNat

end TradingWindow

namespace RulePolicy

theorem hour_mem (now : Instant) : 0 ≤ now.hour ∧ now.hour < 24 := by
  unfold Instant.hour Instant.secondOfDay secondsPerDay
  omega

theorem toNat_hourOf (now : Instant) : ((hourOf now).toNat : Int) = now.hour := by
  have := hour_mem now
  unfold hourOf
  rw [UInt8.toNat_ofNat']
  omega

theorem contains_hourOf_iff (window : TradingWindow) (now : Instant) :
    window.contains (hourOf now) = true ↔ window.Spans now.hour := by
  have hhour := toNat_hourOf now
  unfold TradingWindow.contains TradingWindow.Spans
  split
  · rw [Bool.and_eq_true, decide_eq_true_eq, decide_eq_true_eq, UInt8.le_iff_toNat_le,
      UInt8.lt_iff_toNat_lt]
    omega
  · rw [Bool.or_eq_true, decide_eq_true_eq, decide_eq_true_eq, UInt8.le_iff_toNat_le,
      UInt8.lt_iff_toNat_lt]
    omega

end RulePolicy

end TradeGate
