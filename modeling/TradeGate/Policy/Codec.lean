import TradeGate.Json.Record
import TradeGate.Json.Vocabulary
import TradeGate.Policy.Basic

/-!
# The written form of policies

Every group is a closed record, so that a threshold whose name is misspelt is refused, and every
field may be missing and then has its standard value.
-/

namespace TradeGate

open Record

def IntegrityPolicy.record : Record IntegrityPolicy IntegrityPolicy :=
  let standard := IntegrityPolicy.standard
  start IntegrityPolicy.mk
    |>.defaulted "max_market_data_age_seconds" (·.maxMarketDataAgeSeconds) .binary64
      standard.maxMarketDataAgeSeconds
    |>.defaulted "min_symbol_coverage_pct" (·.minSymbolCoveragePct) .binary64
      standard.minSymbolCoveragePct
    |>.defaulted "max_feature_pipeline_lag_seconds" (·.maxFeaturePipelineLagSeconds) .binary64
      standard.maxFeaturePipelineLagSeconds
    |>.defaulted "require_feature_sync" (·.requireFeatureSync) .bool true
    |>.defaulted "max_clock_drift_ms" (·.maxClockDriftMs) .binary64 standard.maxClockDriftMs
    |>.defaulted "require_ntp_sync" (·.requireNtpSync) .bool true
    |>.defaulted "max_request_age_seconds" (·.maxRequestAgeSeconds) .binary64
      standard.maxRequestAgeSeconds
    |>.defaulted "max_future_timestamp_seconds" (·.maxFutureTimestampSeconds) .binary64
      standard.maxFutureTimestampSeconds
    |>.defaulted "duplicate_window_seconds" (·.duplicateWindowSeconds) .uint64
      standard.duplicateWindowSeconds

def ExecutionPolicy.record : Record ExecutionPolicy ExecutionPolicy :=
  let standard := ExecutionPolicy.standard
  start ExecutionPolicy.mk
    |>.defaulted "require_exchange_reachable" (·.requireExchangeReachable) .bool
      standard.requireExchangeReachable
    |>.defaulted "max_exchange_latency_ms" (·.maxExchangeLatencyMs) .binary64
      standard.maxExchangeLatencyMs
    |>.defaulted "allowed_exchange_statuses" (·.allowedExchangeStatuses) (.list .string)
      standard.allowedExchangeStatuses
    |>.defaulted "min_order_success_rate_1h" (·.minOrderSuccessRate1h) .binary64
      standard.minOrderSuccessRate1h
    |>.defaulted "max_order_failures_1h" (·.maxOrderFailures1h) .uint32
      standard.maxOrderFailures1h
    |>.defaulted "max_pending_orders" (·.maxPendingOrders) .uint32 standard.maxPendingOrders
    |>.defaulted "max_pending_cancellations" (·.maxPendingCancellations) .uint32
      standard.maxPendingCancellations
    |>.defaulted "min_rate_limit_remaining" (·.minRateLimitRemaining) .uint32
      standard.minRateLimitRemaining
    |>.defaulted "max_rate_limit_utilization" (·.maxRateLimitUtilization) .binary64
      standard.maxRateLimitUtilization
    |>.defaulted "max_network_latency_ms" (·.maxNetworkLatencyMs) .binary64
      standard.maxNetworkLatencyMs
    |>.defaulted "require_stable_connection" (·.requireStableConnection) .bool
      standard.requireStableConnection
    |>.defaulted "max_unknown_open_orders" (·.maxUnknownOpenOrders) .uint32
      standard.maxUnknownOpenOrders

def ConsistencyPolicy.record : Record ConsistencyPolicy ConsistencyPolicy :=
  let standard := ConsistencyPolicy.standard
  start ConsistencyPolicy.mk
    |>.defaulted "require_position_sync" (·.requirePositionSync) .bool
      standard.requirePositionSync
    |>.defaulted "max_position_sync_age_seconds" (·.maxPositionSyncAgeSeconds) .binary64
      standard.maxPositionSyncAgeSeconds
    |>.defaulted "allow_position_mismatch" (·.allowPositionMismatch) .bool
      standard.allowPositionMismatch
    |>.defaulted "equity_mismatch_tolerance_pct" (·.equityMismatchTolerancePct) .amount
      standard.equityMismatchTolerancePct
    |>.defaulted "require_equity_match" (·.requireEquityMatch) .bool standard.requireEquityMatch
    |>.defaulted "min_available_balance" (·.minAvailableBalance) .amount
      standard.minAvailableBalance
    |>.defaulted "require_margin_state_defined" (·.requireMarginStateDefined) .bool
      standard.requireMarginStateDefined
    |>.defaulted "allowed_margin_modes" (·.allowedMarginModes) (.list .string)
      standard.allowedMarginModes
    |>.defaulted "max_margin_ratio" (·.maxMarginRatio) .binary64 standard.maxMarginRatio

def TradingWindow.record : Record TradingWindow TradingWindow :=
  start TradingWindow.mk
    |>.required "start_hour" (·.startHour) .uint8
    |>.required "end_hour" (·.endHour) .uint8

def TradingWindow.codec : Codec TradingWindow := TradingWindow.record.codec true

def RulePolicy.record : Record RulePolicy RulePolicy :=
  let standard := RulePolicy.standard
  start RulePolicy.mk
    |>.defaulted "enforce_trading_hours" (·.enforceTradingHours) .bool
      standard.enforceTradingHours
    |>.defaulted "allowed_trading_hours_utc" (·.allowedTradingHoursUtc) (.list TradingWindow.codec)
      standard.allowedTradingHoursUtc
    |>.defaulted "respect_cooldown" (·.respectCooldown) .bool standard.respectCooldown
    |>.defaulted "respect_system_halt" (·.respectSystemHalt) .bool standard.respectSystemHalt
    |>.defaulted "respect_manual_lock" (·.respectManualLock) .bool standard.respectManualLock
    |>.defaulted "block_during_maintenance" (·.blockDuringMaintenance) .bool
      standard.blockDuringMaintenance
    |>.defaulted "check_symbol_tradeable" (·.checkSymbolTradeable) .bool
      standard.checkSymbolTradeable
    |>.defaulted "restricted_symbols" (·.restrictedSymbols) (.list .string)
      standard.restrictedSymbols
    |>.defaulted "allow_long" (·.allowLong) .bool standard.allowLong
    |>.defaulted "allow_short" (·.allowShort) .bool standard.allowShort

def MarketPolicy.record : Record MarketPolicy MarketPolicy :=
  let standard := MarketPolicy.standard
  start MarketPolicy.mk
    |>.defaulted "block_on_critical_risk" (·.blockOnCriticalRisk) .bool
      standard.blockOnCriticalRisk
    |>.defaulted "critical_risk_levels" (·.criticalRiskLevels) (.list .string)
      standard.criticalRiskLevels
    |>.defaulted "max_risk_score" (·.maxRiskScore) .binary64 standard.maxRiskScore
    |>.defaulted "block_on_escalation" (·.blockOnEscalation) .bool standard.blockOnEscalation
    |>.defaulted "min_escalation_level_to_block" (·.minEscalationLevelToBlock) .uint8
      standard.minEscalationLevelToBlock
    |>.defaulted "respect_circuit_breaker" (·.respectCircuitBreaker) .bool
      standard.respectCircuitBreaker
    |>.defaulted "max_volatility_for_trading" (·.maxVolatilityForTrading) .binary64
      standard.maxVolatilityForTrading
    |>.defaulted "volatility_regimes_blocked" (·.volatilityRegimesBlocked) (.list .string)
      standard.volatilityRegimesBlocked
    |>.defaulted "min_liquidity_score" (·.minLiquidityScore) .binary64 standard.minLiquidityScore
    |>.defaulted "max_spread_pct" (·.maxSpreadPct) .binary64 standard.maxSpreadPct

def TimingPolicy.record : Record TimingPolicy TimingPolicy :=
  let standard := TimingPolicy.standard
  start TimingPolicy.mk
    |>.defaulted "max_evaluation_time_ms" (·.maxEvaluationTimeMs) .uint64
      standard.maxEvaluationTimeMs
    |>.defaulted "validator_timeout_ms" (·.validatorTimeoutMs) .uint64 standard.validatorTimeoutMs
    |>.defaulted "strict_timing" (·.strictTiming) .bool true

def AlertPolicy.record : Record AlertPolicy AlertPolicy :=
  let standard := AlertPolicy.standard
  start AlertPolicy.mk
    |>.defaulted "enabled" (·.enabled) .bool true
    |>.defaulted "alert_on_block" (·.alertOnBlock) .bool true
    |>.defaulted "min_severity_for_alert" (·.minSeverityForAlert) .severity
      standard.minSeverityForAlert
    |>.defaulted "min_alert_interval_seconds" (·.minAlertIntervalSeconds) .uint64
      standard.minAlertIntervalSeconds
    |>.defaulted "max_alerts_per_hour" (·.maxAlertsPerHour) .uint32 standard.maxAlertsPerHour

def AlertPolicy.codec : Codec AlertPolicy := AlertPolicy.record.codec true

namespace Policy

def record : Record Policy Policy :=
  start Policy.mk
    |>.defaulted "system_integrity" (·.systemIntegrity) (IntegrityPolicy.record.codec true)
      .standard
    |>.defaulted "execution_safety" (·.executionSafety) (ExecutionPolicy.record.codec true)
      .standard
    |>.defaulted "state_consistency" (·.stateConsistency) (ConsistencyPolicy.record.codec true)
      .standard
    |>.defaulted "rules" (·.rules) (RulePolicy.record.codec true) .standard
    |>.defaulted "environmental" (·.environmental) (MarketPolicy.record.codec true) .standard
    |>.defaulted "timing" (·.timing) (TimingPolicy.record.codec true) .standard
    |>.defaulted "alerting" (·.alerting) AlertPolicy.codec .standard
    |>.defaulted "block_on_internal_error" (·.blockOnInternalError) .bool true
    |>.defaulted "block_on_missing_input" (·.blockOnMissingInput) .bool true

def codec : Codec Policy := record.codec true

def toJson (policy : Policy) : Json := codec.encode policy

end Policy

def Preset.codec : Codec Preset := .named Preset.all Preset.code

end TradeGate
