import TradeGate.Number.Amount
import TradeGate.Number.Binary64
import TradeGate.Time.Instant

/-!
# Snapshots

Everything that one evaluation looks at: the trade intent and five views of the system around it. A
snapshot may lack sections; the gate then blocks instead of filling them in. Main definitions:
`Snapshot`, `Sections`, `Snapshot.sections?`.
-/

namespace TradeGate

/-- The side of a trade. -/
inductive Direction where
  | long
  | short
  deriving DecidableEq, Repr

namespace Direction

def all : List Direction := [long, short]

def code : Direction → String
  | long => "LONG"
  | short => "SHORT"

end Direction

/-- A trade that somebody wants to make. -/
structure TradeIntent where
  /-- One per submission; a repeated one is a replay. -/
  requestId : String
  symbol : String
  direction : Direction
  requestedSize : Amount
  timestamp : Instant
  strategyId : Option String
  deriving DecidableEq

/-- How fresh market data and features are. -/
structure SystemState where
  marketDataAvailable : Bool
  marketDataTimestamp : Instant
  /-- Percentage of symbols with live data. -/
  symbolCoveragePct : Option Binary64
  featurePipelineSynced : Bool
  featurePipelineLagSeconds : Option Binary64
  /-- Signed drift from reference time. -/
  clockDriftMs : Option Binary64
  ntpSynced : Bool
  deriving DecidableEq

/-- How well the exchange takes orders. -/
structure ExecutionHealth where
  exchangeReachable : Bool
  exchangeStatus : Option String
  exchangeLatencyMs : Option Binary64
  rateLimitRemaining : Option UInt32
  /-- The part of the rate limit that is in use, from 0 to 1. -/
  rateLimitUtilization : Option Binary64
  /-- The part of the orders of an hour that went through, from 0 to 1. -/
  orderSuccessRate1h : Option Binary64
  orderFailures1h : Option UInt32
  pendingOrderCount : Option UInt32
  pendingCancellationCount : Option UInt32
  /-- Orders on the exchange that the system does not know of. -/
  unknownOrderCount : Option UInt32
  networkLatencyMs : Option Binary64
  connectionStable : Option Bool
  deriving DecidableEq

/-- Halts, locks, maintenance and cooldown. -/
structure HaltState where
  isHalted : Bool
  haltReason : Option String
  haltTimestamp : Option Instant
  manualInterventionActive : Bool
  interventionReason : Option String
  interventionTimestamp : Option Instant
  maintenanceActive : Bool
  maintenanceEnd : Option Instant
  cooldownActive : Bool
  cooldownEnd : Option Instant
  cooldownReason : Option String
  deriving DecidableEq

/-- The account as the system and as the exchange see it. -/
structure AccountState where
  systemPositionCount : Option UInt32
  exchangePositionCount : Option UInt32
  systemEquity : Option Amount
  exchangeEquity : Option Amount
  availableBalance : Option Amount
  marginMode : Option String
  marginRatio : Option Binary64
  lastSyncTimestamp : Option Instant
  deriving DecidableEq

/-- The state of the market. -/
structure MarketContext where
  currentRiskLevel : Option String
  riskScore : Option Binary64
  escalationLevel : Option UInt8
  escalationReason : Option String
  circuitBreakerActive : Bool
  circuitBreakerTriggeredAt : Option Instant
  volatilityRegime : Option String
  currentVolatility : Option Binary64
  liquidityScore : Option Binary64
  currentSpreadPct : Option Binary64
  nearSupport : Bool
  nearResistance : Bool
  deriving DecidableEq

/-- What one evaluation is given. -/
structure Snapshot where
  tradeIntent : Option TradeIntent
  systemState : Option SystemState
  executionHealth : Option ExecutionHealth
  haltState : Option HaltState
  accountState : Option AccountState
  environmentalContext : Option MarketContext
  deriving DecidableEq

/-- A snapshot with all its sections. -/
structure Sections where
  intent : TradeIntent
  system : SystemState
  execution : ExecutionHealth
  halt : HaltState
  account : AccountState
  market : MarketContext
  deriving DecidableEq

namespace Snapshot

/-- A snapshot without sections. -/
def empty : Snapshot := ⟨none, none, none, none, none, none⟩

/-- The section names that are missing, in order. -/
def missingSections (snapshot : Snapshot) : List String :=
  [("trade_intent", snapshot.tradeIntent.isNone), ("system_state", snapshot.systemState.isNone),
    ("execution_health", snapshot.executionHealth.isNone),
    ("halt_state", snapshot.haltState.isNone), ("account_state", snapshot.accountState.isNone),
    ("environmental_context", snapshot.environmentalContext.isNone)].filterMap
      fun (name, isMissing) => if isMissing then some name else none

/-- All sections, if none is missing. -/
def sections? : Snapshot → Option Sections
  | ⟨some intent, some system, some execution, some halt, some account, some market⟩ =>
    some ⟨intent, system, execution, halt, account, market⟩
  | _ => none

/-- The request id of the intent. -/
def requestId? (snapshot : Snapshot) : Option String :=
  snapshot.tradeIntent.map TradeIntent.requestId

/-- A snapshot has all its sections exactly if none is missing. -/
theorem sections?_isSome_iff (snapshot : Snapshot) :
    snapshot.sections?.isSome = true ↔ snapshot.missingSections = [] := by
  obtain ⟨intent, system, execution, halt, account, market⟩ := snapshot
  cases intent <;> cases system <;> cases execution <;> cases halt <;> cases account <;>
    cases market <;> simp [sections?, missingSections]

end Snapshot

end TradeGate
