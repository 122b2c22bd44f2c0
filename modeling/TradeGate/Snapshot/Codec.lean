import TradeGate.Json.Reader
import TradeGate.Json.Record
import TradeGate.Snapshot.Basic

/-!
# The wire form of snapshots

Each section is an open record: members that it does not have are passed over. Most metrics may be
missing.
-/

namespace TradeGate

open Record

def Direction.codec : Codec Direction := .named Direction.all Direction.code

def TradeIntent.record : Record TradeIntent TradeIntent :=
  start TradeIntent.mk
    |>.required "request_id" (·.requestId) .string
    |>.required "symbol" (·.symbol) .string
    |>.required "direction" (·.direction) Direction.codec
    |>.required "requested_size" (·.requestedSize) .amount
    |>.required "timestamp" (·.timestamp) .instant
    |>.leftOut "strategy_id" (·.strategyId) .string

def SystemState.record : Record SystemState SystemState :=
  start SystemState.mk
    |>.required "market_data_available" (·.marketDataAvailable) .bool
    |>.required "market_data_timestamp" (·.marketDataTimestamp) .instant
    |>.optional "symbol_coverage_pct" (·.symbolCoveragePct) .binary64
    |>.required "feature_pipeline_synced" (·.featurePipelineSynced) .bool
    |>.optional "feature_pipeline_lag_seconds" (·.featurePipelineLagSeconds) .binary64
    |>.optional "clock_drift_ms" (·.clockDriftMs) .binary64
    |>.required "ntp_synced" (·.ntpSynced) .bool

def ExecutionHealth.record : Record ExecutionHealth ExecutionHealth :=
  start ExecutionHealth.mk
    |>.required "exchange_reachable" (·.exchangeReachable) .bool
    |>.optional "exchange_status" (·.exchangeStatus) .string
    |>.optional "exchange_latency_ms" (·.exchangeLatencyMs) .binary64
    |>.optional "rate_limit_remaining" (·.rateLimitRemaining) .uint32
    |>.optional "rate_limit_utilization" (·.rateLimitUtilization) .binary64
    |>.optional "order_success_rate_1h" (·.orderSuccessRate1h) .binary64
    |>.optional "order_failures_1h" (·.orderFailures1h) .uint32
    |>.optional "pending_order_count" (·.pendingOrderCount) .uint32
    |>.optional "pending_cancellation_count" (·.pendingCancellationCount) .uint32
    |>.optional "unknown_order_count" (·.unknownOrderCount) .uint32
    |>.optional "network_latency_ms" (·.networkLatencyMs) .binary64
    |>.optional "connection_stable" (·.connectionStable) .bool

def HaltState.record : Record HaltState HaltState :=
  start HaltState.mk
    |>.required "is_halted" (·.isHalted) .bool
    |>.optional "halt_reason" (·.haltReason) .string
    |>.optional "halt_timestamp" (·.haltTimestamp) .instant
    |>.defaulted "manual_intervention_active" (·.manualInterventionActive) .bool false
    |>.optional "intervention_reason" (·.interventionReason) .string
    |>.optional "intervention_timestamp" (·.interventionTimestamp) .instant
    |>.defaulted "maintenance_active" (·.maintenanceActive) .bool false
    |>.optional "maintenance_end" (·.maintenanceEnd) .instant
    |>.defaulted "cooldown_active" (·.cooldownActive) .bool false
    |>.optional "cooldown_end" (·.cooldownEnd) .instant
    |>.optional "cooldown_reason" (·.cooldownReason) .string

def AccountState.record : Record AccountState AccountState :=
  start AccountState.mk
    |>.optional "system_position_count" (·.systemPositionCount) .uint32
    |>.optional "exchange_position_count" (·.exchangePositionCount) .uint32
    |>.optional "system_equity" (·.systemEquity) .amount
    |>.optional "exchange_equity" (·.exchangeEquity) .amount
    |>.optional "available_balance" (·.availableBalance) .amount
    |>.optional "margin_mode" (·.marginMode) .string
    |>.optional "margin_ratio" (·.marginRatio) .binary64
    |>.optional "last_sync_timestamp" (·.lastSyncTimestamp) .instant

def MarketContext.record : Record MarketContext MarketContext :=
  start MarketContext.mk
    |>.optional "current_risk_level" (·.currentRiskLevel) .string
    |>.optional "risk_score" (·.riskScore) .binary64
    |>.optional "escalation_level" (·.escalationLevel) .uint8
    |>.optional "escalation_reason" (·.escalationReason) .string
    |>.defaulted "circuit_breaker_active" (·.circuitBreakerActive) .bool false
    |>.optional "circuit_breaker_triggered_at" (·.circuitBreakerTriggeredAt) .instant
    |>.optional "volatility_regime" (·.volatilityRegime) .string
    |>.optional "current_volatility" (·.currentVolatility) .binary64
    |>.optional "liquidity_score" (·.liquidityScore) .binary64
    |>.optional "current_spread_pct" (·.currentSpreadPct) .binary64
    |>.defaulted "near_support" (·.nearSupport) .bool false
    |>.defaulted "near_resistance" (·.nearResistance) .bool false

def TradeIntent.codec : Codec TradeIntent := TradeIntent.record.codec false

namespace Snapshot

def record : Record Snapshot Snapshot :=
  start Snapshot.mk
    |>.optional "trade_intent" (·.tradeIntent) TradeIntent.codec
    |>.optional "system_state" (·.systemState) (SystemState.record.codec false)
    |>.optional "execution_health" (·.executionHealth) (ExecutionHealth.record.codec false)
    |>.optional "halt_state" (·.haltState) (HaltState.record.codec false)
    |>.optional "account_state" (·.accountState) (AccountState.record.codec false)
    |>.optional "environmental_context" (·.environmentalContext)
      (MarketContext.record.codec false)

def codec : Codec Snapshot := record.codec false

/-- Reads a snapshot from a text that holds nothing else. -/
def readChars? (cs : List Char) : Option Snapshot :=
  (Json.readChars? cs).bind (codec.decode .json)

end Snapshot

end TradeGate
