import TradeGate.Check.Consistency
import TradeGate.Check.Execution
import TradeGate.Check.Integrity
import TradeGate.Check.Market
import TradeGate.Check.Rule
import TradeGate.Proofs.Check.Condition
import TradeGate.Proofs.Check.Limit

/-!
# The table of conditions

Every family of checks has a table: its conditions in order, each with the reason and the severity
that it is reported under. The checks of the family answer their table one by one (`answers` in each
namespace). A ceiling blocks strictly above, a floor strictly below, an escalation at its level or
above, and a number that cannot be compared blocks.
-/

namespace TradeGate

open Binary64 Text

/-! ## Rules -/

namespace RulePolicy

variable (policy : RulePolicy) (s : Sections) (now : Instant)

/-- No trading window that is set spans the hour. -/
def OutsideWindows : Prop :=
  policy.allowedTradingHoursUtc ≠ [] ∧
    ∀ window ∈ policy.allowedTradingHoursUtc, ¬ window.Spans now.hour

/-- The direction is one that is not allowed. -/
def ForbidsDirection (direction : Direction) : Prop :=
  (direction = .long ∧ policy.allowLong = false) ∨ (direction = .short ∧ policy.allowShort = false)

def conditions : List Condition :=
  [⟨policy.respectSystemHalt ∧ s.halt.isHalted, .systemHaltState, .emergency⟩,
    ⟨policy.respectManualLock ∧ s.halt.manualInterventionActive, .manualInterventionLock, .high⟩,
    ⟨policy.blockDuringMaintenance ∧ s.halt.maintenanceActive, .maintenanceWindow, .medium⟩,
    ⟨policy.enforceTradingHours ∧ policy.OutsideWindows now, .outsideTradingHours, .low⟩,
    ⟨policy.respectCooldown ∧ s.halt.cooldownActive, .cooldownActive, .low⟩,
    ⟨policy.checkSymbolTradeable ∧ Lists policy.restrictedSymbols s.intent.symbol,
      .symbolNotTradeable, .medium⟩,
    ⟨policy.ForbidsDirection s.intent.direction, .directionRestricted, .medium⟩]

theorem outsideWindows_iff :
    (!policy.allowedTradingHoursUtc.isEmpty &&
      !policy.allowedTradingHoursUtc.any (·.contains (hourOf now))) = true ↔
      policy.OutsideWindows now := by
  unfold OutsideWindows
  rw [Bool.and_eq_true, Bool.not_eq_true', List.isEmpty_eq_false_iff, Bool.not_eq_true',
    List.any_eq_false]
  refine and_congr_right fun _ => forall_congr' fun window => imp_congr_right fun _ => ?_
  rw [contains_hourOf_iff]

theorem forbidsDirection_iff (direction : Direction) :
    (!policy.allows direction) = true ↔ policy.ForbidsDirection direction := by
  unfold ForbidsDirection
  cases direction <;> simp [allows]

theorem answers : List.Forall₂ Answers (policy.violations s now) (policy.conditions s now) := by
  refine .cons (answers_when ?halted) <| .cons (answers_when ?locked) <|
    .cons (answers_when ?maintenance) <| .cons (answers_when ?hours) <|
    .cons (answers_when ?cooldown) <| .cons (answers_when ?symbol) <|
    .cons (answers_when ?direction) .nil
  case halted | locked | maintenance | cooldown => exact Bool.and_eq_true_iff
  case hours => rw [Bool.and_assoc, Bool.and_eq_true, outsideWindows_iff]
  case symbol => rw [Bool.and_eq_true, containsIgnoringCase_iff]
  case direction => exact policy.forbidsDirection_iff _

end RulePolicy

/-! ## System integrity -/

namespace IntegrityPolicy

variable (policy : IntegrityPolicy) (s : Sections) (now : Instant)

/-- The nanoseconds for which a request id counts as used. -/
def duplicateSpan : Int := policy.duplicateWindowSeconds.toNat * nanosPerSecond

/-- The id of the request was admitted, and that is not older than the span. -/
def replay (window : ReplayWindow) : Condition where
  holds := ∃ seen, (s.intent.requestId, seen) ∈ window.queue ∧
    now.nanosSince seen ≤ policy.duplicateSpan
  reason := .duplicateRequest
  severity := .high

/-- The conditions behind that of a replay. -/
def conditions : List Condition :=
  [⟨(now.ageSeconds s.intent.timestamp).Above policy.maxRequestAgeSeconds,
      .timestampInconsistency, .medium⟩,
    ⟨(now.ageSeconds s.intent.timestamp).Below (-policy.maxFutureTimestampSeconds),
      .clockDrift, .high⟩,
    ⟨s.system.marketDataAvailable = false, .missingMarketData, .critical⟩,
    ⟨(now.ageSeconds s.system.marketDataTimestamp).Above policy.maxMarketDataAgeSeconds,
      .staleMarketData, .high⟩,
    ⟨∃ coverage ∈ s.system.symbolCoveragePct, coverage.Below policy.minSymbolCoveragePct,
      .missingMarketData, .high⟩,
    ⟨policy.requireFeatureSync ∧ s.system.featurePipelineSynced = false,
      .featurePipelineDesync, .high⟩,
    ⟨∃ lag ∈ s.system.featurePipelineLagSeconds,
      policy.requireFeatureSync ∧ lag.Above policy.maxFeaturePipelineLagSeconds,
      .featurePipelineDesync, .high⟩,
    ⟨policy.requireNtpSync ∧ s.system.ntpSynced = false, .clockDrift, .high⟩,
    ⟨∃ drift ∈ s.system.clockDriftMs,
      policy.requireNtpSync ∧ drift.abs.Above policy.maxClockDriftMs, .clockDrift, .high⟩]

theorem answers : List.Forall₂ Answers (policy.violations s now) (policy.conditions s now) := by
  refine .cons (answers_when ?stale) <| .cons (answers_when ?future) <|
    .cons (answers_when ?missing) <| .cons (answers_when ?old) <|
    .cons (answers_bind fun coverage => answers_when ?coverage) <|
    .cons (answers_when ?desynced) <| .cons (answers_bind fun lag => answers_when ?lag) <|
    .cons (answers_when ?unsynced) <| .cons (answers_bind fun drift => answers_when ?drift) .nil
  case stale | old => exact exceeds_iff _ _
  case future | coverage => exact fallsBelow_iff _ _
  case missing => rw [Bool.not_eq_true']
  case desynced | unsynced => rw [Bool.and_eq_true, Bool.not_eq_true']
  case lag | drift => rw [Bool.and_eq_true, exceeds_iff]

end IntegrityPolicy

/-! ## Execution safety -/

namespace ExecutionPolicy

variable (policy : ExecutionPolicy) (s : Sections)

def conditions : List Condition :=
  [⟨policy.requireExchangeReachable ∧ s.execution.exchangeReachable = false,
      .exchangeUnreachable, .critical⟩,
    ⟨s.execution.exchangeStatus = none, .exchangeApiUnstable, .high⟩,
    ⟨∃ status ∈ s.execution.exchangeStatus, ¬ Lists policy.allowedExchangeStatuses status,
      .exchangeApiUnstable, .high⟩,
    ⟨s.execution.exchangeLatencyMs = none, .exchangeApiUnstable, .medium⟩,
    ⟨∃ latency ∈ s.execution.exchangeLatencyMs, latency.Above policy.maxExchangeLatencyMs,
      .exchangeApiUnstable, .high⟩,
    ⟨∃ latency ∈ s.execution.networkLatencyMs, latency.Above policy.maxNetworkLatencyMs,
      .networkLatencyHigh, .medium⟩,
    ⟨policy.requireStableConnection ∧ s.execution.connectionStable = some false,
      .exchangeApiUnstable, .medium⟩,
    ⟨∃ remaining ∈ s.execution.rateLimitRemaining, remaining < policy.minRateLimitRemaining,
      .rateLimitExhausted, .high⟩,
    ⟨∃ utilization ∈ s.execution.rateLimitUtilization,
      utilization.Above policy.maxRateLimitUtilization, .rateLimitExhausted, .medium⟩,
    ⟨∃ failures ∈ s.execution.orderFailures1h, policy.maxOrderFailures1h < failures,
      .orderFailureThreshold, .high⟩,
    ⟨∃ rate ∈ s.execution.orderSuccessRate1h, rate.Below policy.minOrderSuccessRate1h,
      .orderFailureThreshold, .high⟩,
    ⟨∃ pending ∈ s.execution.pendingOrderCount, policy.maxPendingOrders < pending,
      .unconfirmedOrders, .medium⟩,
    ⟨∃ pending ∈ s.execution.pendingCancellationCount, policy.maxPendingCancellations < pending,
      .pendingCancellation, .medium⟩,
    ⟨∃ unknown ∈ s.execution.unknownOrderCount, policy.maxUnknownOpenOrders < unknown,
      .unknownOpenOrders, .critical⟩]

theorem answers : List.Forall₂ Answers (policy.violations s) (policy.conditions s) := by
  refine .cons (answers_when ?unreachable) <| .cons (answers_when ?noStatus) <|
    .cons (answers_bind fun status => answers_when ?status) <| .cons (answers_when ?noLatency) <|
    .cons (answers_bind fun latency => answers_when ?latency) <|
    .cons (answers_bind fun latency => answers_when ?network) <| .cons (answers_when ?unstable) <|
    .cons (answers_bind fun remaining => answers_when ?remaining) <|
    .cons (answers_bind fun utilization => answers_when ?utilization) <|
    .cons (answers_bind fun failures => answers_when ?failures) <|
    .cons (answers_bind fun rate => answers_when ?rate) <|
    .cons (answers_bind fun pending => answers_when ?orders) <|
    .cons (answers_bind fun pending => answers_when ?cancellations) <|
    .cons (answers_bind fun unknown => answers_when ?unknown) .nil
  case unreachable => rw [Bool.and_eq_true, Bool.not_eq_true']
  case noStatus | noLatency => exact Option.isNone_iff_eq_none
  case status => rw [Bool.not_eq_true', ← containsIgnoringCase_iff, Bool.not_eq_true]
  case latency | network | utilization => exact exceeds_iff _ _
  case unstable => rw [Bool.and_eq_true, beq_iff_eq]
  case rate => exact fallsBelow_iff _ _
  case remaining | failures | orders | cancellations | unknown => exact decide_eq_true_iff

end ExecutionPolicy

/-! ## State consistency -/

namespace ConsistencyPolicy

variable (policy : ConsistencyPolicy) (s : Sections) (now : Instant)

/-- Beside an exchange that has no equity the system has some; or else there is no percentage within
the tolerance. -/
def EquitiesDiffer (system exchange : Amount) : Prop :=
  if exchange.isZero then system.isZero = false
  else ∀ pct ∈ equityMismatchPct? system exchange,
    policy.equityMismatchTolerancePct.lt pct = true

def conditions : List Condition :=
  [⟨policy.requirePositionSync ∧ s.account.lastSyncTimestamp = none, .positionSyncPending, .high⟩,
    ⟨∃ lastSync ∈ s.account.lastSyncTimestamp, policy.requirePositionSync ∧
      (now.ageSeconds lastSync).Above policy.maxPositionSyncAgeSeconds,
      .positionStateMismatch, .high⟩,
    ⟨∃ system ∈ s.account.systemPositionCount, ∃ exchange ∈ s.account.exchangePositionCount,
      policy.allowPositionMismatch = false ∧ system ≠ exchange, .positionStateMismatch, .critical⟩,
    ⟨∃ system ∈ s.account.systemEquity, ∃ exchange ∈ s.account.exchangeEquity,
      policy.requireEquityMatch ∧ policy.EquitiesDiffer system exchange, .equityMismatch, .high⟩,
    ⟨s.account.availableBalance = none, .balanceInconsistency, .high⟩,
    ⟨∃ balance ∈ s.account.availableBalance, balance.lt policy.minAvailableBalance = true,
      .balanceInconsistency, .high⟩,
    ⟨policy.requireMarginStateDefined ∧ s.account.marginMode = none, .marginStateUndefined,
      .medium⟩,
    ⟨∃ mode ∈ s.account.marginMode,
      policy.requireMarginStateDefined ∧ ¬ Lists policy.allowedMarginModes mode,
      .marginStateUndefined, .high⟩,
    ⟨∃ ratio ∈ s.account.marginRatio,
      policy.requireMarginStateDefined ∧ ratio.Above policy.maxMarginRatio,
      .balanceInconsistency, .high⟩]

theorem equityMismatchPct?_of_isZero (system : Amount) {exchange : Amount}
    (h : exchange.isZero = true) : equityMismatchPct? system exchange = none := by
  unfold equityMismatchPct?
  rw [if_pos h]

theorem equitiesDiffer_iff (system exchange : Amount) :
    (!policy.equitiesAgree system exchange) = true ↔ policy.EquitiesDiffer system exchange := by
  unfold equitiesAgree EquitiesDiffer
  rw [Bool.not_eq_true']
  split
  · rename_i pct hpct
    have hzero : ¬ exchange.isZero = true := by
      intro hzero
      rw [equityMismatchPct?_of_isZero system hzero] at hpct
      exact nomatch hpct
    rw [if_neg hzero, hpct]
    simp [Amount.le, Amount.lt]
  · rename_i hpct
    rw [hpct]
    cases exchange.isZero <;> simp

theorem answers : List.Forall₂ Answers (policy.violations s now) (policy.conditions s now) := by
  refine .cons (answers_when ?never) <| .cons (answers_bind fun lastSync => answers_when ?stale) <|
    .cons (answers_bind fun system => answers_bind fun exchange => answers_when ?positions) <|
    .cons (answers_bind fun system => answers_bind fun exchange => ?equities) <|
    .cons (answers_when ?noBalance) <| .cons (answers_bind fun balance => answers_when ?balance) <|
    .cons (answers_when ?noMode) <| .cons (answers_bind fun mode => answers_when ?mode) <|
    .cons (answers_bind fun ratio => answers_when ?ratio) .nil
  case never | noMode => rw [Bool.and_eq_true, Option.isNone_iff_eq_none]
  case stale | ratio => rw [Bool.and_eq_true, exceeds_iff]
  case positions => rw [Bool.and_eq_true, Bool.not_eq_true', bne_iff_ne]
  case equities =>
    -- the percentage only adds to the details
    cases equityMismatchPct? system exchange with
    | none => exact answers_when (by rw [Bool.and_eq_true, equitiesDiffer_iff])
    | some pct => exact answers_when (by rw [Bool.and_eq_true, equitiesDiffer_iff])
  case noBalance => exact Option.isNone_iff_eq_none
  case balance => exact Iff.rfl
  case mode =>
    rw [Bool.and_eq_true, Bool.not_eq_true', ← containsIgnoringCase_iff, Bool.not_eq_true]

end ConsistencyPolicy

/-! ## The state of the market -/

namespace MarketPolicy

variable (policy : MarketPolicy) (s : Sections)

def conditions : List Condition :=
  [⟨∃ level ∈ s.market.currentRiskLevel,
      policy.blockOnCriticalRisk ∧ Lists policy.criticalRiskLevels level,
      .riskLevelCritical, .emergency⟩,
    ⟨∃ score ∈ s.market.riskScore, policy.blockOnCriticalRisk ∧ score.Above policy.maxRiskScore,
      .riskLevelCritical, .high⟩,
    ⟨∃ level ∈ s.market.escalationLevel,
      policy.blockOnEscalation ∧ policy.minEscalationLevelToBlock ≤ level,
      .systemEscalationActive, .high⟩,
    ⟨policy.respectCircuitBreaker ∧ s.market.circuitBreakerActive,
      .circuitBreakerTriggered, .critical⟩,
    ⟨∃ regime ∈ s.market.volatilityRegime, Lists policy.volatilityRegimesBlocked regime,
      .extremeVolatility, .high⟩,
    ⟨∃ volatility ∈ s.market.currentVolatility, volatility.Above policy.maxVolatilityForTrading,
      .extremeVolatility, .high⟩,
    ⟨∃ liquidity ∈ s.market.liquidityScore, liquidity.Below policy.minLiquidityScore,
      .liquidityEmergency, .medium⟩,
    ⟨∃ spread ∈ s.market.currentSpreadPct, spread.Above policy.maxSpreadPct,
      .liquidityEmergency, .medium⟩]

theorem answers : List.Forall₂ Answers (policy.violations s) (policy.conditions s) := by
  refine .cons (answers_bind fun level => answers_when ?risk) <|
    .cons (answers_bind fun score => answers_when ?score) <|
    .cons (answers_bind fun level => answers_when ?escalation) <| .cons (answers_when ?breaker) <|
    .cons (answers_bind fun regime => answers_when ?regime) <|
    .cons (answers_bind fun volatility => answers_when ?volatility) <|
    .cons (answers_bind fun liquidity => answers_when ?liquidity) <|
    .cons (answers_bind fun spread => answers_when ?spread) .nil
  case risk => rw [Bool.and_eq_true, containsIgnoringCase_iff]
  case score => rw [Bool.and_eq_true, exceeds_iff]
  case escalation => rw [Bool.and_eq_true, decide_eq_true_iff]
  case breaker => exact Bool.and_eq_true_iff
  case regime => exact containsIgnoringCase_iff _ _
  case volatility | spread => exact exceeds_iff _ _
  case liquidity => exact fallsBelow_iff _ _

end MarketPolicy

/-! ## The whole table -/

namespace Policy

variable (policy : Policy) (s : Sections) (now : Instant)

/-- The conditions that do not depend on the replay window, in order. -/
def standing : List Condition :=
  [policy.rules.conditions s now, policy.systemIntegrity.conditions s now,
    policy.executionSafety.conditions s, policy.stateConsistency.conditions s now,
    policy.environmental.conditions s].flatten

/-- All conditions in order. -/
def conditions (window : ReplayWindow) : List Condition :=
  [policy.rules.conditions s now,
    policy.systemIntegrity.replay s now window :: policy.systemIntegrity.conditions s now,
    policy.executionSafety.conditions s, policy.stateConsistency.conditions s now,
    policy.environmental.conditions s].flatten

/-- No condition but that of a replay is reported as one. -/
theorem reason_ne_of_mem_standing {condition : Condition} (h : condition ∈ policy.standing s now) :
    condition.reason ≠ .duplicateRequest := by
  have hreasons : (policy.standing s now).all (·.reason ≠ .duplicateRequest) = true := rfl
  exact of_decide_eq_true (List.all_eq_true.1 hreasons condition h)

theorem mem_conditions_iff (window : ReplayWindow) (condition : Condition) :
    condition ∈ policy.conditions s now window ↔
      condition = policy.systemIntegrity.replay s now window ∨
        condition ∈ policy.standing s now := by
  unfold conditions standing
  simp only [List.flatten_cons, List.cons_append, List.mem_append, List.mem_cons]
  exact or_left_comm

end Policy

end TradeGate
