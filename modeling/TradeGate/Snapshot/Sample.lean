import TradeGate.Snapshot.Basic

/-!
# Sample snapshots

A healthy snapshot as it looks at an instant, and the same under a halt.
-/

namespace TradeGate

namespace HaltState

/-- Nothing holds the system back. -/
def running : HaltState where
  isHalted := false
  haltReason := none
  haltTimestamp := none
  manualInterventionActive := false
  interventionReason := none
  interventionTimestamp := none
  maintenanceActive := false
  maintenanceEnd := none
  cooldownActive := false
  cooldownEnd := none
  cooldownReason := none

end HaltState

namespace Snapshot

/-- Everything is well. There is no such snapshot in the first seconds of time. -/
def healthy? (now : Instant) (requestId : String) : Option Snapshot := do
  let marketDataTimestamp ← now.sub? nanosPerSecond
  let lastSync ← now.sub? (5 * nanosPerSecond)
  some
    { tradeIntent := some
        { requestId
          symbol := "BTCUSDT"
          direction := .long
          requestedSize := ⟨false, 1, 2, by decide, by decide⟩
          timestamp := now
          strategyId := some "demo" }
      systemState := some
        { marketDataAvailable := true
          marketDataTimestamp
          symbolCoveragePct := some (.ofNat 100)
          featurePipelineSynced := true
          featurePipelineLagSeconds := some (.ofPlaces 5 1)
          clockDriftMs := some (.ofNat 3)
          ntpSynced := true }
      executionHealth := some
        { exchangeReachable := true
          exchangeStatus := some "OPERATIONAL"
          exchangeLatencyMs := some (.ofNat 80)
          rateLimitRemaining := some 1000
          rateLimitUtilization := some (.ofPlaces 1 1)
          orderSuccessRate1h := some (.ofNat 1)
          orderFailures1h := some 0
          pendingOrderCount := some 0
          pendingCancellationCount := some 0
          unknownOrderCount := some 0
          networkLatencyMs := some (.ofNat 40)
          connectionStable := some true }
      haltState := some .running
      accountState := some
        { systemPositionCount := some 0
          exchangePositionCount := some 0
          systemEquity := some (.ofUInt64 25000)
          exchangeEquity := some (.ofUInt64 25000)
          availableBalance := some (.ofUInt64 20000)
          marginMode := some "CROSS"
          marginRatio := some (.ofPlaces 1 1)
          lastSyncTimestamp := some lastSync }
      environmentalContext := some
        { currentRiskLevel := some "LOW"
          riskScore := some (.ofPlaces 1 1)
          escalationLevel := some 0
          escalationReason := none
          circuitBreakerActive := false
          circuitBreakerTriggeredAt := none
          volatilityRegime := some "NORMAL"
          currentVolatility := some (.ofPlaces 15 3)
          liquidityScore := some (.ofPlaces 9 1)
          currentSpreadPct := some (.ofPlaces 2 2)
          nearSupport := false
          nearResistance := false } }

/-- Everything is well, but the system has been halted for two minutes. -/
def halted? (now : Instant) (requestId : String) : Option Snapshot := do
  let snapshot ← healthy? now requestId
  let haltTimestamp ← now.sub? (120 * nanosPerSecond)
  let halt : HaltState :=
    { HaltState.running with
      isHalted := true
      haltReason := some "Operator halt"
      haltTimestamp := some haltTimestamp }
  some { snapshot with haltState := some halt }

end Snapshot

end TradeGate
