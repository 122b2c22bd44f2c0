import Mathlib.Logic.Basic
import TradeGate.Proofs.Check.Limit
import TradeGate.Proofs.Policy.Accepted

/-!
# Trading hours of accepted policies

A policy whose trading windows hold no hour of the day would block every trade, so an empty window
is refused. What is looked for is a window that ends where it starts. There is one more without an
hour, from midnight at the end of the day to midnight at its start (`TradingWindow.aroundMidnight`),
and it is accepted. `RulePolicy.OpensDaily` says that every other accepted window holds an hour, and
that a list of windows opens every day unless it has nothing but that one.
-/

namespace TradeGate

/-! ## Windows -/

namespace TradingWindow

/-- From midnight at the end of the day to midnight at its start. -/
def aroundMidnight : TradingWindow := ⟨24, 0⟩

/-- The window holds an hour of the day. -/
def HoldsHour (window : TradingWindow) : Prop :=
  ∃ hour : UInt8, hour < 24 ∧ window.contains hour = true

theorem contains_startHour {window : TradingWindow} (h : window.startHour ≠ window.endHour) :
    window.contains window.startHour = true := by
  unfold contains
  split
  · rename_i hle
    have hlt : window.startHour < window.endHour := UInt8.lt_of_le_of_ne hle h
    simp [hlt]
  · simp

/-- A window that runs over midnight holds every hour before its end. -/
theorem contains_of_lt_endHour {window : TradingWindow} (h : window.endHour < window.startHour)
    {hour : UInt8} (hhour : hour < window.endHour) : window.contains hour = true := by
  unfold contains
  rw [if_neg (UInt8.not_le.2 h)]
  simp [hhour]

/-- Around midnight there is no hour of the day. -/
theorem not_holdsHour_aroundMidnight : ¬ aroundMidnight.HoldsHour := by
  rintro ⟨hour, hlt, hcontains⟩
  unfold contains aroundMidnight at hcontains
  rw [if_neg (by decide), Bool.or_eq_true, decide_eq_true_eq, decide_eq_true_eq] at hcontains
  exact hcontains.elim (UInt8.not_le.2 hlt) (UInt8.not_lt_zero)

theorem holdsHour_iff {window : TradingWindow} (h : window.IsProper) :
    window.HoldsHour ↔ window ≠ aroundMidnight := by
  obtain ⟨hstart, hend, hne⟩ := h
  constructor
  · rintro hholds rfl
    exact not_holdsHour_aroundMidnight hholds
  intro hmidnight
  by_cases hlast : window.startHour = 24
  · -- the window starts when the day is over, so its first hour is the first one of the day
    have hendlt : window.endHour < 24 := UInt8.lt_of_le_of_ne hend (hlast ▸ Ne.symm hne)
    have hpos : 0 < window.endHour := by
      refine UInt8.pos_iff_ne_zero.2 fun hzero => hmidnight ?_
      cases window
      exact TradingWindow.mk.injEq .. ▸ ⟨hlast, hzero⟩
    exact ⟨0, by decide, contains_of_lt_endHour (hlast ▸ hendlt) hpos⟩
  · exact ⟨window.startHour, UInt8.lt_of_le_of_ne hstart hlast, contains_startHour hne⟩

end TradingWindow

/-! ## Days -/

/-- Every day has an instant in each of its hours. -/
theorem Date.exists_hour {date : Date} (hfirst : earliest ≤ date) (hlast : date ≤ latest)
    {hour : UInt8} (hhour : hour < 24) :
    ∃ now : Instant, now.date = date ∧ RulePolicy.hourOf now = hour := by
  have hfirst : earliest.dayNumber ≤ date.dayNumber := hfirst
  have hlast : date.dayNumber ≤ latest.dayNumber := hlast
  have hhour : hour.toNat < 24 := UInt8.lt_iff_toNat_lt.1 hhour
  let now : Instant := ⟨date.dayNumber * secondsPerDay + hour.toNat * 3600, 0, by
    unfold Instant.firstSecond Instant.lastSecond secondsPerDay
    omega, by decide, by decide, fun hleap => absurd hleap (by decide)⟩
  refine ⟨now, ?_, ?_⟩
  · have hday : now.seconds / secondsPerDay = date.dayNumber := by
      show (date.dayNumber * secondsPerDay + hour.toNat * 3600) / secondsPerDay = _
      unfold secondsPerDay
      omega
    exact congrArg Date.mk hday
  · have hclock : now.hour = hour.toNat := by
      show (date.dayNumber * secondsPerDay + hour.toNat * 3600) % secondsPerDay / 3600 = _
      unfold secondsPerDay
      omega
    apply UInt8.toNat_inj.1
    exact Int.ofNat_inj.1 ((RulePolicy.toNat_hourOf now).trans hclock)

namespace RulePolicy

theorem hourOf_lt (now : Instant) : hourOf now < 24 := by
  have hcount := toNat_hourOf now
  have hhour := (hour_mem now).2
  rw [UInt8.lt_iff_toNat_lt]
  show (hourOf now).toNat < 24
  omega

variable (rules : RulePolicy)

theorem outsideHours_eq_none_iff (now : Instant) :
    rules.outsideHours now = none ↔ rules.enforceTradingHours = false ∨
      rules.allowedTradingHoursUtc = [] ∨
      ∃ window ∈ rules.allowedTradingHoursUtc, window.contains (hourOf now) = true := by
  unfold outsideHours Violation.when
  rw [ite_eq_right_iff]
  simp only [reduceCtorEq, imp_false, Bool.and_eq_true, Bool.not_eq_true', not_and_or, not_not,
    Bool.not_eq_true, List.isEmpty_eq_false_iff, Bool.not_eq_false, List.any_eq_true, ne_eq, or_assoc]

/-- What the trading hours of an accepted policy come to. -/
structure OpensDaily : Prop where
  /-- A window holds an hour of the day, unless it is the one around midnight. -/
  window_iff : ∀ window ∈ rules.allowedTradingHoursUtc,
    window.HoldsHour ↔ window ≠ .aroundMidnight
  /-- Every day has an instant within the trading hours, unless they are enforced and all windows
  are around midnight. -/
  day_iff : ∀ date, Date.earliest ≤ date → date ≤ Date.latest →
    ((∃ now : Instant, now.date = date ∧ rules.outsideHours now = none) ↔
      rules.enforceTradingHours = false ∨ rules.allowedTradingHoursUtc = [] ∨
        ∃ window ∈ rules.allowedTradingHoursUtc, window ≠ .aroundMidnight)

variable {rules}

theorem opensDaily (h : ∀ window ∈ rules.allowedTradingHoursUtc, window.IsProper) :
    rules.OpensDaily where
  window_iff window hwindow := TradingWindow.holdsHour_iff (h window hwindow)
  day_iff date hfirst hlast := by
    simp only [outsideHours_eq_none_iff]
    constructor
    · rintro ⟨now, -, henforced | hnone | ⟨window, hwindow, hcontains⟩⟩
      · exact .inl henforced
      · exact .inr (.inl hnone)
      · have hholds : window.HoldsHour := ⟨hourOf now, hourOf_lt now, hcontains⟩
        exact .inr (.inr ⟨window, hwindow, (TradingWindow.holdsHour_iff (h window hwindow)).1 hholds⟩)
    · intro hopen
      have hmidnight : (0 : UInt8) < 24 := by decide
      obtain ⟨now, hdate, -⟩ := Date.exists_hour hfirst hlast hmidnight
      rcases hopen with henforced | hnone | ⟨window, hwindow, hother⟩
      · exact ⟨now, hdate, .inl henforced⟩
      · exact ⟨now, hdate, .inr (.inl hnone)⟩
      · obtain ⟨hour, hlt, hcontains⟩ := (TradingWindow.holdsHour_iff (h window hwindow)).2 hother
        obtain ⟨now, hdate, rfl⟩ := Date.exists_hour hfirst hlast hlt
        exact ⟨now, hdate, .inr (.inr ⟨window, hwindow, hcontains⟩)⟩

end RulePolicy

namespace Policy

/-- The trading windows of an accepted policy hold an hour of the day, and the policy can be met on
every day, unless the windows are around midnight. -/
theorem opensDaily_of_accepted {policy : Policy} (h : policy.Accepted) : policy.rules.OpensDaily :=
  RulePolicy.opensDaily ((accepted_iff policy).1 h).windows

/-- The standard policy with enforced trading hours. -/
def within (windows : List TradingWindow) : Policy :=
  { Policy.standard with
    rules := { Policy.standard.rules with
      enforceTradingHours := true
      allowedTradingHoursUtc := windows } }

/-- A window over midnight, and one around it: trading is possible on the first day there is. -/
theorem opensDaily_overMidnight :
    (within [⟨22, 2⟩, .aroundMidnight]).Accepted ∧
      (⟨22, 2⟩ : TradingWindow).HoldsHour ∧
      ∃ now : Instant, now.date = Date.earliest ∧
        (within [⟨22, 2⟩, .aroundMidnight]).rules.outsideHours now = none := by
  have haccepted : (within [⟨22, 2⟩, .aroundMidnight]).Accepted := by decide +kernel
  have hopens := opensDaily_of_accepted haccepted
  refine ⟨haccepted, ?_, ?_⟩
  · exact (hopens.window_iff ⟨22, 2⟩ List.mem_cons_self).2 (by decide)
  · refine (hopens.day_iff _ (by decide) (by decide)).2 (.inr (.inr ?_))
    exact ⟨⟨22, 2⟩, List.mem_cons_self, by decide⟩

/-- A policy with no window but the one around midnight is accepted, and no instant will do. -/
theorem closed_aroundMidnight :
    (within [.aroundMidnight]).Accepted ∧ ¬ TradingWindow.aroundMidnight.HoldsHour ∧
      ∀ now : Instant, (within [.aroundMidnight]).rules.outsideHours now ≠ none := by
  refine ⟨by decide +kernel, TradingWindow.not_holdsHour_aroundMidnight, fun now hnone => ?_⟩
  rw [RulePolicy.outsideHours_eq_none_iff] at hnone
  rcases hnone with henforced | hempty | ⟨window, hwindow, hcontains⟩
  · exact nomatch henforced
  · exact nomatch hempty
  · obtain rfl := List.mem_singleton.1 hwindow
    exact TradingWindow.not_holdsHour_aroundMidnight ⟨_, RulePolicy.hourOf_lt now, hcontains⟩

end Policy

end TradeGate
