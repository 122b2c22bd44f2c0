import TradeGate.Policy.Accepted

/-!
# What acceptance says

A policy is accepted exactly if every switch, limit and trading window of it passes its own test
(`Policy.accepted_iff`).
-/

namespace TradeGate

/-- The hours of the window are hours of a clock, midnight at the end of the day included, and they
differ. -/
def TradingWindow.IsProper (window : TradingWindow) : Prop :=
  window.startHour ≤ 24 ∧ window.endHour ≤ 24 ∧ window.startHour ≠ window.endHour

theorem TradingWindow.problem?_eq_none_iff (window : TradingWindow) :
    window.problem? = none ↔ window.IsProper := by
  unfold problem? IsProper
  by_cases hhours : window.startHour > 24 ∨ window.endHour > 24
  · rw [if_pos hhours]
    refine iff_of_false nofun fun ⟨hstart, hend, _⟩ => ?_
    rcases hhours with h | h
    · exact UInt8.not_le.2 h hstart
    · exact UInt8.not_le.2 h hend
  · rw [if_neg hhours]
    rw [not_or, UInt8.not_lt, UInt8.not_lt] at hhours
    by_cases hsame : window.startHour = window.endHour
    · simp [hsame]
    · simp [hsame, hhours]

namespace Policy

/-- Every test of a policy is passed. -/
structure Admissible (policy : Policy) : Prop where
  internalErrorBlocks : policy.blockOnInternalError = true
  missingInputBlocks : policy.blockOnMissingInput = true
  evaluationTime : policy.timing.maxEvaluationTimeMs ≠ 0
  validatorTime : policy.timing.validatorTimeoutMs ≠ 0
  duplicateWindow_ne : policy.systemIntegrity.duplicateWindowSeconds.toNat ≠ 0
  duplicateWindow_le : policy.systemIntegrity.duplicateWindowSeconds.toNat ≤ maxWindowSeconds
  alertInterval_le : policy.alerting.minAlertIntervalSeconds.toNat ≤ maxWindowSeconds
  coverage : policy.systemIntegrity.minSymbolCoveragePct.within 100 = true
  fractions : ∀ fraction ∈ policy.fractions, fraction.2.within 1 = true
  tolerance : policy.stateConsistency.equityMismatchTolerancePct.negative = false
  windows : ∀ window ∈ policy.rules.allowedTradingHoursUtc, window.IsProper

theorem ite_nil_singleton_eq_nil_iff (fine : Prop) [Decidable fine] (problem : PolicyProblem) :
    (if fine then [] else [problem]) = [] ↔ fine := by
  by_cases h : fine <;> simp [h]

/-- A policy is accepted exactly if it passes every test. -/
theorem accepted_iff (policy : Policy) : policy.Accepted ↔ policy.Admissible := by
  unfold Accepted problems
  simp only [List.append_eq_nil_iff, decide_eq_true_eq, ite_nil_singleton_eq_nil_iff,
    List.flatMap_eq_nil_iff, List.filterMap_eq_nil_iff, TradingWindow.problem?_eq_none_iff,
    Bool.not_eq_true']
  constructor
  · rintro ⟨⟨⟨⟨⟨⟨⟨⟨⟨⟨h₁, h₂⟩, h₃⟩, h₄⟩, h₅⟩, h₆⟩, h₇⟩, h₈⟩, h₉⟩, h₁₀⟩, h₁₁⟩
    exact ⟨h₁, h₂, h₃, h₄, h₅, h₆, h₇, h₈, h₉, h₁₀, h₁₁⟩
  · rintro ⟨h₁, h₂, h₃, h₄, h₅, h₆, h₇, h₈, h₉, h₁₀, h₁₁⟩
    exact ⟨⟨⟨⟨⟨⟨⟨⟨⟨⟨h₁, h₂⟩, h₃⟩, h₄⟩, h₅⟩, h₆⟩, h₇⟩, h₈⟩, h₉⟩, h₁₀⟩, h₁₁⟩

theorem duplicateWindowSeconds_le {policy : Policy} (h : policy.Accepted) :
    policy.systemIntegrity.duplicateWindowSeconds.toNat ≤ maxWindowSeconds :=
  ((accepted_iff policy).1 h).duplicateWindow_le

theorem minAlertIntervalSeconds_le {policy : Policy} (h : policy.Accepted) :
    policy.alerting.minAlertIntervalSeconds.toNat ≤ maxWindowSeconds :=
  ((accepted_iff policy).1 h).alertInterval_le

end Policy

end TradeGate
