/-!
# Verdicts and the reasons for a block

The gate has two verdicts. A block has a reason out of a closed list; the reason belongs to one
category, which the first two letters of its code name, and has a severity of its own that a check
may replace. Severity orders alerts and never changes a verdict.
-/

namespace TradeGate

/-- The answer of the gate. -/
inductive Verdict where
  | execute
  | block
  deriving DecidableEq, Repr

namespace Verdict

def all : List Verdict := [execute, block]

def code : Verdict → String
  | execute => "EXECUTE"
  | block => "BLOCK"

end Verdict

/-- How urgent a block is. -/
inductive Severity where
  | low
  | medium
  | high
  | critical
  | emergency
  deriving DecidableEq, Repr

namespace Severity

/-- The severities, ascending. -/
def all : List Severity := [low, medium, high, critical, emergency]

theorem mem_all (severity : Severity) : severity ∈ all := by
  cases severity <;> decide

/-- The place of a severity among them, from one. -/
def level : Severity → Nat
  | low => 1
  | medium => 2
  | high => 3
  | critical => 4
  | emergency => 5

def code : Severity → String
  | low => "LOW"
  | medium => "MEDIUM"
  | high => "HIGH"
  | critical => "CRITICAL"
  | emergency => "EMERGENCY"

/-- A sign at the head of an alert, so that severities are told apart at a glance. -/
def marker : Severity → String
  | low => "ℹ️"
  | medium => "⚠️"
  | high => "🟠"
  | critical => "🔴"
  | emergency => "🚨"

instance : LT Severity := ⟨fun a b => a.level < b.level⟩
instance : LE Severity := ⟨fun a b => a.level ≤ b.level⟩
instance (a b : Severity) : Decidable (a < b) := Nat.decLt a.level b.level
instance (a b : Severity) : Decidable (a ≤ b) := Nat.decLe a.level b.level

instance : Inhabited Severity := ⟨low⟩

end Severity

/-- The family of checks that a reason belongs to. -/
inductive Category where
  | systemIntegrity
  | executionSafety
  | stateConsistency
  | ruleViolation
  | environmental
  | internalError
  deriving DecidableEq, Repr

namespace Category

/-- The categories in their order. -/
def all : List Category :=
  [systemIntegrity, executionSafety, stateConsistency, ruleViolation, environmental, internalError]

theorem mem_all (category : Category) : category ∈ all := by
  cases category <;> decide

def code : Category → String
  | systemIntegrity => "SYSTEM_INTEGRITY"
  | executionSafety => "EXECUTION_SAFETY"
  | stateConsistency => "STATE_CONSISTENCY"
  | ruleViolation => "RULE_VIOLATION"
  | environmental => "ENVIRONMENTAL"
  | internalError => "INTERNAL_ERROR"

end Category

/-- Why a trade is blocked. -/
inductive Reason where
  | missingMarketData
  | staleMarketData
  | featurePipelineDesync
  | clockDrift
  | timestampInconsistency
  | duplicateRequest
  | invalidRequestSignature
  | exchangeApiUnstable
  | exchangeUnreachable
  | orderFailureThreshold
  | rateLimitExhausted
  | unconfirmedOrders
  | pendingCancellation
  | networkLatencyHigh
  | positionStateMismatch
  | unknownOpenOrders
  | balanceInconsistency
  | marginStateUndefined
  | equityMismatch
  | positionSyncPending
  | outsideTradingHours
  | cooldownActive
  | systemHaltState
  | manualInterventionLock
  | maintenanceWindow
  | symbolNotTradeable
  | directionRestricted
  | riskLevelCritical
  | systemEscalationActive
  | circuitBreakerTriggered
  | extremeVolatility
  | liquidityEmergency
  | guardInternalError
  | validatorException
  | timeout
  | missingInput
  deriving DecidableEq, Repr

namespace Reason

/-- The reasons in their order. -/
def all : List Reason :=
  [missingMarketData, staleMarketData, featurePipelineDesync, clockDrift, timestampInconsistency,
    duplicateRequest, invalidRequestSignature, exchangeApiUnstable, exchangeUnreachable,
    orderFailureThreshold, rateLimitExhausted, unconfirmedOrders, pendingCancellation,
    networkLatencyHigh, positionStateMismatch, unknownOpenOrders, balanceInconsistency,
    marginStateUndefined, equityMismatch, positionSyncPending, outsideTradingHours, cooldownActive,
    systemHaltState, manualInterventionLock, maintenanceWindow, symbolNotTradeable,
    directionRestricted, riskLevelCritical, systemEscalationActive, circuitBreakerTriggered,
    extremeVolatility, liquidityEmergency, guardInternalError, validatorException, timeout,
    missingInput]

def code : Reason → String
  | missingMarketData => "SI_MISSING_MARKET_DATA"
  | staleMarketData => "SI_STALE_MARKET_DATA"
  | featurePipelineDesync => "SI_FEATURE_PIPELINE_DESYNC"
  | clockDrift => "SI_CLOCK_DRIFT"
  | timestampInconsistency => "SI_TIMESTAMP_INCONSISTENCY"
  | duplicateRequest => "SI_DUPLICATE_REQUEST"
  | invalidRequestSignature => "SI_INVALID_REQUEST_SIGNATURE"
  | exchangeApiUnstable => "ES_EXCHANGE_API_UNSTABLE"
  | exchangeUnreachable => "ES_EXCHANGE_UNREACHABLE"
  | orderFailureThreshold => "ES_ORDER_FAILURE_THRESHOLD"
  | rateLimitExhausted => "ES_RATE_LIMIT_EXHAUSTED"
  | unconfirmedOrders => "ES_UNCONFIRMED_ORDERS"
  | pendingCancellation => "ES_PENDING_CANCELLATION"
  | networkLatencyHigh => "ES_NETWORK_LATENCY_HIGH"
  | positionStateMismatch => "SC_POSITION_STATE_MISMATCH"
  | unknownOpenOrders => "SC_UNKNOWN_OPEN_ORDERS"
  | balanceInconsistency => "SC_BALANCE_INCONSISTENCY"
  | marginStateUndefined => "SC_MARGIN_STATE_UNDEFINED"
  | equityMismatch => "SC_EQUITY_MISMATCH"
  | positionSyncPending => "SC_POSITION_SYNC_PENDING"
  | outsideTradingHours => "RV_OUTSIDE_TRADING_HOURS"
  | cooldownActive => "RV_COOLDOWN_ACTIVE"
  | systemHaltState => "RV_SYSTEM_HALT_STATE"
  | manualInterventionLock => "RV_MANUAL_INTERVENTION_LOCK"
  | maintenanceWindow => "RV_MAINTENANCE_WINDOW"
  | symbolNotTradeable => "RV_SYMBOL_NOT_TRADEABLE"
  | directionRestricted => "RV_DIRECTION_RESTRICTED"
  | riskLevelCritical => "EE_RISK_LEVEL_CRITICAL"
  | systemEscalationActive => "EE_SYSTEM_ESCALATION_ACTIVE"
  | circuitBreakerTriggered => "EE_CIRCUIT_BREAKER_TRIGGERED"
  | extremeVolatility => "EE_EXTREME_VOLATILITY"
  | liquidityEmergency => "EE_LIQUIDITY_EMERGENCY"
  | guardInternalError => "IE_GUARD_INTERNAL_ERROR"
  | validatorException => "IE_VALIDATOR_EXCEPTION"
  | timeout => "IE_TIMEOUT"
  | missingInput => "IE_MISSING_INPUT"

/-- The category that owns a reason. -/
def category : Reason → Category
  | missingMarketData | staleMarketData | featurePipelineDesync | clockDrift
  | timestampInconsistency | duplicateRequest | invalidRequestSignature => .systemIntegrity
  | exchangeApiUnstable | exchangeUnreachable | orderFailureThreshold | rateLimitExhausted
  | unconfirmedOrders | pendingCancellation | networkLatencyHigh => .executionSafety
  | positionStateMismatch | unknownOpenOrders | balanceInconsistency | marginStateUndefined
  | equityMismatch | positionSyncPending => .stateConsistency
  | outsideTradingHours | cooldownActive | systemHaltState | manualInterventionLock
  | maintenanceWindow | symbolNotTradeable | directionRestricted => .ruleViolation
  | riskLevelCritical | systemEscalationActive | circuitBreakerTriggered | extremeVolatility
  | liquidityEmergency => .environmental
  | guardInternalError | validatorException | timeout | missingInput => .internalError

/-- The severity of a reason where a check names none. -/
def defaultSeverity : Reason → Severity
  | riskLevelCritical | systemEscalationActive | systemHaltState | guardInternalError => .critical
  | positionStateMismatch | balanceInconsistency | exchangeUnreachable
  | circuitBreakerTriggered => .high
  | staleMarketData | orderFailureThreshold | unknownOpenOrders | cooldownActive => .medium
  | _ => .low

/-- The place of a reason in their order. -/
def index (reason : Reason) : Nat := all.idxOf reason

theorem mem_all (reason : Reason) : reason ∈ all := by
  cases reason <;> decide

/-- A reason is found by its code. -/
theorem find?_code (reason : Reason) : all.find? (·.code = reason.code) = some reason := by
  cases reason <;> decide

end Reason

end TradeGate
