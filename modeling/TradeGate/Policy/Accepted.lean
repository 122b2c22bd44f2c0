import TradeGate.Policy.Basic

/-!
# Which policies are accepted

A policy is accepted if none of the problems listed here is found in it: a switch that keeps the
gate closed is off, a limit has no meaning, or a trading window holds no hour. Main definitions:
`Policy.problems`, `Policy.Accepted`.
-/

namespace TradeGate

/-- The longest replay window and alert spacing, in seconds: a leap year. -/
def maxWindowSeconds : Nat := 366 * 24 * 3600

/-- What is wrong with a policy. -/
inductive PolicyProblem where
  | internalErrorPasses
  | missingInputPasses
  | noEvaluationTime
  | noValidatorTime
  | noDuplicateWindow
  | longDuplicateWindow
  | longAlertInterval
  | coverageNotPercentage
  | notFraction (field : String)
  | negativeTolerance
  | hourAbove24 (window : TradingWindow)
  | emptyWindow (window : TradingWindow)
  deriving DecidableEq, Repr

namespace PolicyProblem

def message : PolicyProblem → String
  | internalErrorPasses => "block_on_internal_error cannot be disabled"
  | missingInputPasses => "block_on_missing_input cannot be disabled"
  | noEvaluationTime => "timing.max_evaluation_time_ms must be > 0"
  | noValidatorTime => "timing.validator_timeout_ms must be > 0"
  | noDuplicateWindow => "system_integrity.duplicate_window_seconds must be > 0"
  | longDuplicateWindow =>
    "system_integrity.duplicate_window_seconds must be <= " ++ toString maxWindowSeconds
  | longAlertInterval =>
    "alerting.min_alert_interval_seconds must be <= " ++ toString maxWindowSeconds
  | coverageNotPercentage => "system_integrity.min_symbol_coverage_pct must be within 0-100"
  | notFraction field => field ++ " must be within 0.0-1.0"
  | negativeTolerance => "state_consistency.equity_mismatch_tolerance_pct must be >= 0"
  | hourAbove24 window => "trading window " ++ window.text ++ " has an hour above 24"
  | emptyWindow window => "trading window " ++ window.text ++ " is empty"

end PolicyProblem

/-- The value lies between zero and a bound, both included. -/
def Binary64.within (bound : Nat) (x : Binary64) : Bool :=
  le (.ofNat 0) x && le x (.ofNat bound)

/-- The problem of a trading window. -/
def TradingWindow.problem? (window : TradingWindow) : Option PolicyProblem :=
  if window.startHour > 24 ∨ window.endHour > 24 then some (.hourAbove24 window)
  else if window.startHour = window.endHour then some (.emptyWindow window)
  else none

namespace Policy

/-- The limits that are fractions, by name. -/
def fractions (policy : Policy) : List (String × Binary64) :=
  [("execution_safety.min_order_success_rate_1h", policy.executionSafety.minOrderSuccessRate1h),
    ("execution_safety.max_rate_limit_utilization",
      policy.executionSafety.maxRateLimitUtilization),
    ("environmental.max_risk_score", policy.environmental.maxRiskScore),
    ("environmental.min_liquidity_score", policy.environmental.minLiquidityScore)]

/-- What is wrong with a policy, in order. -/
def problems (policy : Policy) : List PolicyProblem :=
  let needs (fine : Bool) (problem : PolicyProblem) : List PolicyProblem :=
    if fine then [] else [problem]
  let window := policy.systemIntegrity.duplicateWindowSeconds.toNat
  needs policy.blockOnInternalError .internalErrorPasses ++
  needs policy.blockOnMissingInput .missingInputPasses ++
  needs (policy.timing.maxEvaluationTimeMs ≠ 0) .noEvaluationTime ++
  needs (policy.timing.validatorTimeoutMs ≠ 0) .noValidatorTime ++
  needs (window ≠ 0) .noDuplicateWindow ++
  needs (window ≤ maxWindowSeconds) .longDuplicateWindow ++
  needs (policy.alerting.minAlertIntervalSeconds.toNat ≤ maxWindowSeconds) .longAlertInterval ++
  needs (policy.systemIntegrity.minSymbolCoveragePct.within 100) .coverageNotPercentage ++
  policy.fractions.flatMap (fun (field, value) => needs (value.within 1) (.notFraction field)) ++
  needs (!policy.stateConsistency.equityMismatchTolerancePct.negative) .negativeTolerance ++
  policy.rules.allowedTradingHoursUtc.filterMap TradingWindow.problem?

/-- Nothing is wrong with the policy. -/
def Accepted (policy : Policy) : Prop := policy.problems = []

instance (policy : Policy) : Decidable policy.Accepted :=
  decidable_of_iff (policy.problems.isEmpty = true) List.isEmpty_iff

end Policy

end TradeGate
