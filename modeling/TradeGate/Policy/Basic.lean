import TradeGate.Number.Amount
import TradeGate.Number.Binary64
import TradeGate.Reason

/-!
# Policies

The thresholds and switches of the gate, one group for each family of checks, and three presets.
-/

namespace TradeGate

/-- How fresh data has to be, how far clocks may drift, and for how long a request id counts as
used. -/
structure IntegrityPolicy where
  maxMarketDataAgeSeconds : Binary64
  minSymbolCoveragePct : Binary64
  maxFeaturePipelineLagSeconds : Binary64
  requireFeatureSync : Bool
  maxClockDriftMs : Binary64
  requireNtpSync : Bool
  maxRequestAgeSeconds : Binary64
  maxFutureTimestampSeconds : Binary64
  duplicateWindowSeconds : UInt64
  deriving DecidableEq

/-- How well the exchange has to take orders. -/
structure ExecutionPolicy where
  requireExchangeReachable : Bool
  maxExchangeLatencyMs : Binary64
  allowedExchangeStatuses : List String
  minOrderSuccessRate1h : Binary64
  maxOrderFailures1h : UInt32
  maxPendingOrders : UInt32
  maxPendingCancellations : UInt32
  minRateLimitRemaining : UInt32
  maxRateLimitUtilization : Binary64
  maxNetworkLatencyMs : Binary64
  requireStableConnection : Bool
  maxUnknownOpenOrders : UInt32
  deriving DecidableEq

/-- How far the two views of the account may differ. -/
structure ConsistencyPolicy where
  requirePositionSync : Bool
  maxPositionSyncAgeSeconds : Binary64
  allowPositionMismatch : Bool
  /-- Percentage of the exchange's equity. -/
  equityMismatchTolerancePct : Amount
  requireEquityMatch : Bool
  minAvailableBalance : Amount
  requireMarginStateDefined : Bool
  allowedMarginModes : List String
  maxMarginRatio : Binary64
  deriving DecidableEq

/-- A part of the day in whole UTC hours. One whose start is after its end runs over midnight. -/
structure TradingWindow where
  startHour : UInt8
  endHour : UInt8
  deriving DecidableEq, Repr

namespace TradingWindow

/-- The hour lies in the window; the end hour does not. -/
def contains (window : TradingWindow) (hour : UInt8) : Bool :=
  if window.startHour ≤ window.endHour then window.startHour ≤ hour && hour < window.endHour
  else window.startHour ≤ hour || hour < window.endHour

/-- A full hour. -/
def hourText (hour : UInt8) : String :=
  String.ofList (Numeral.padded 2 hour.toNat ++ ":00".toList)

def text (window : TradingWindow) : String :=
  hourText window.startHour ++ "-" ++ hourText window.endHour

end TradingWindow

/-- Halts, locks, hours, symbols and directions. -/
structure RulePolicy where
  enforceTradingHours : Bool
  allowedTradingHoursUtc : List TradingWindow
  respectCooldown : Bool
  respectSystemHalt : Bool
  respectManualLock : Bool
  blockDuringMaintenance : Bool
  checkSymbolTradeable : Bool
  restrictedSymbols : List String
  allowLong : Bool
  allowShort : Bool
  deriving DecidableEq

/-- Which markets are traded in. -/
structure MarketPolicy where
  blockOnCriticalRisk : Bool
  criticalRiskLevels : List String
  maxRiskScore : Binary64
  blockOnEscalation : Bool
  /-- An escalation at this level or above blocks. -/
  minEscalationLevelToBlock : UInt8
  respectCircuitBreaker : Bool
  maxVolatilityForTrading : Binary64
  volatilityRegimesBlocked : List String
  minLiquidityScore : Binary64
  maxSpreadPct : Binary64
  deriving DecidableEq

/-- How long an evaluation may take. -/
structure TimingPolicy where
  /-- Looked at before each validator. -/
  maxEvaluationTimeMs : UInt64
  validatorTimeoutMs : UInt64
  /-- A validator that takes too long blocks. -/
  strictTiming : Bool
  deriving DecidableEq

/-- Which blocks are told, and how often. -/
structure AlertPolicy where
  enabled : Bool
  alertOnBlock : Bool
  minSeverityForAlert : Severity
  /-- The least distance of two alerts for one reason. -/
  minAlertIntervalSeconds : UInt64
  maxAlertsPerHour : UInt32
  deriving DecidableEq

/-- All thresholds and switches. -/
structure Policy where
  systemIntegrity : IntegrityPolicy
  executionSafety : ExecutionPolicy
  stateConsistency : ConsistencyPolicy
  rules : RulePolicy
  environmental : MarketPolicy
  timing : TimingPolicy
  alerting : AlertPolicy
  /-- Has to stay on. -/
  blockOnInternalError : Bool
  /-- Has to stay on. -/
  blockOnMissingInput : Bool
  deriving DecidableEq

/-! ## Standard values -/

namespace IntegrityPolicy

def standard : IntegrityPolicy where
  maxMarketDataAgeSeconds := .ofNat 30
  minSymbolCoveragePct := .ofNat 95
  maxFeaturePipelineLagSeconds := .ofNat 60
  requireFeatureSync := true
  maxClockDriftMs := .ofNat 1000
  requireNtpSync := true
  maxRequestAgeSeconds := .ofNat 300
  maxFutureTimestampSeconds := .ofNat 10
  duplicateWindowSeconds := 3600

end IntegrityPolicy

namespace ExecutionPolicy

def standard : ExecutionPolicy where
  requireExchangeReachable := true
  maxExchangeLatencyMs := .ofNat 2000
  allowedExchangeStatuses := ["OPERATIONAL", "NORMAL", "OK"]
  minOrderSuccessRate1h := .ofPlaces 90 2
  maxOrderFailures1h := 5
  maxPendingOrders := 3
  maxPendingCancellations := 2
  minRateLimitRemaining := 100
  maxRateLimitUtilization := .ofPlaces 80 2
  maxNetworkLatencyMs := .ofNat 1000
  requireStableConnection := true
  maxUnknownOpenOrders := 0

end ExecutionPolicy

namespace ConsistencyPolicy

def standard : ConsistencyPolicy where
  requirePositionSync := true
  maxPositionSyncAgeSeconds := .ofNat 120
  allowPositionMismatch := false
  equityMismatchTolerancePct := .ofUInt64 1
  requireEquityMatch := true
  minAvailableBalance := .ofUInt64 10
  requireMarginStateDefined := true
  allowedMarginModes := ["CROSS", "ISOLATED"]
  maxMarginRatio := .ofPlaces 80 2

end ConsistencyPolicy

namespace RulePolicy

def standard : RulePolicy where
  enforceTradingHours := false
  allowedTradingHoursUtc := [⟨0, 24⟩]
  respectCooldown := true
  respectSystemHalt := true
  respectManualLock := true
  blockDuringMaintenance := true
  checkSymbolTradeable := true
  restrictedSymbols := []
  allowLong := true
  allowShort := true

end RulePolicy

namespace MarketPolicy

def standard : MarketPolicy where
  blockOnCriticalRisk := true
  criticalRiskLevels := ["CRITICAL", "EXTREME", "EMERGENCY"]
  maxRiskScore := .ofPlaces 90 2
  blockOnEscalation := true
  minEscalationLevelToBlock := 2
  respectCircuitBreaker := true
  maxVolatilityForTrading := .ofPlaces 10 2
  volatilityRegimesBlocked := ["EXTREME", "CRISIS"]
  minLiquidityScore := .ofPlaces 3 1
  maxSpreadPct := .ofNat 1

end MarketPolicy

namespace TimingPolicy

def standard : TimingPolicy where
  maxEvaluationTimeMs := 100
  validatorTimeoutMs := 20
  strictTiming := true

end TimingPolicy

namespace AlertPolicy

def standard : AlertPolicy where
  enabled := true
  alertOnBlock := true
  minSeverityForAlert := .low
  minAlertIntervalSeconds := 60
  maxAlertsPerHour := 30

end AlertPolicy

namespace Policy

/-- The thresholds that hold where nothing else is said. -/
def standard : Policy where
  systemIntegrity := .standard
  executionSafety := .standard
  stateConsistency := .standard
  rules := .standard
  environmental := .standard
  timing := .standard
  alerting := .standard
  blockOnInternalError := true
  blockOnMissingInput := true

/-- Tighter thresholds. -/
def strict : Policy :=
  { standard with
    systemIntegrity := { IntegrityPolicy.standard with
      maxMarketDataAgeSeconds := .ofNat 15
      maxClockDriftMs := .ofNat 500 }
    executionSafety := { ExecutionPolicy.standard with
      maxExchangeLatencyMs := .ofNat 1000
      minOrderSuccessRate1h := .ofPlaces 95 2
      maxPendingOrders := 1 }
    stateConsistency := { ConsistencyPolicy.standard with
      maxPositionSyncAgeSeconds := .ofNat 60 }
    environmental := { MarketPolicy.standard with
      maxVolatilityForTrading := .ofPlaces 5 2
      minLiquidityScore := .ofPlaces 5 1 } }

/-- Looser thresholds and no alerts. -/
def testing : Policy :=
  { standard with
    systemIntegrity := { IntegrityPolicy.standard with
      maxMarketDataAgeSeconds := .ofNat 300
      requireNtpSync := false }
    executionSafety := { ExecutionPolicy.standard with
      requireExchangeReachable := false
      minOrderSuccessRate1h := .ofNat 0 }
    stateConsistency := { ConsistencyPolicy.standard with
      allowPositionMismatch := true
      requireEquityMatch := false }
    alerting := { AlertPolicy.standard with enabled := false } }

end Policy

/-- A policy by name. -/
inductive Preset where
  | standard
  | strict
  | testing
  deriving DecidableEq, Repr

namespace Preset

def all : List Preset := [standard, strict, testing]

def code : Preset → String
  | standard => "default"
  | strict => "strict"
  | testing => "testing"

/-- The preset of a name, in any ASCII case and with two other names. -/
def ofName? (name : String) : Option Preset :=
  match String.ofList (name.toList.map Char.toLower) with
  | "default" => some standard
  | "production" => some standard
  | "strict" => some strict
  | "testing" => some testing
  | "test" => some testing
  | _ => none

/-- The policy of a preset. -/
def policy : Preset → Policy
  | standard => .standard
  | strict => .strict
  | testing => .testing

end Preset

end TradeGate
