import TradeGate.Check.Basic

/-!
# The state of the market

Risk level, escalation, circuit breaker, volatility, liquidity and spread.
-/

namespace TradeGate

namespace MarketPolicy

/-- The risk level is one of the critical ones. -/
def riskCritical (policy : MarketPolicy) (market : MarketContext) : Option Violation :=
  market.currentRiskLevel.bind fun level =>
    ((Violation.of .riskLevelCritical .emergency ("Risk level critical: " ++ level))
      |>.detail "risk_level" (.str level)
      |>.detail "risk_score" (Codec.binary64.option.encode market.riskScore)).when
        (policy.blockOnCriticalRisk && Text.containsIgnoringCase policy.criticalRiskLevels level)

/-- The risk score is too high. -/
def riskHigh (policy : MarketPolicy) (market : MarketContext) : Option Violation :=
  market.riskScore.bind fun score =>
    ((Violation.of .riskLevelCritical .high ("Risk score too high: " ++ score.fixed 2))
      |>.detail "risk_score" (.ofBinary64 score)
      |>.detail "max_risk_score" (.ofBinary64 policy.maxRiskScore)).when
        (policy.blockOnCriticalRisk && score.exceeds policy.maxRiskScore)

/-- An escalation has reached the level that blocks. -/
def escalated (policy : MarketPolicy) (market : MarketContext) : Option Violation :=
  market.escalationLevel.bind fun level =>
    ((Violation.of .systemEscalationActive .high
        ("System escalation active: level " ++ toString level.toNat))
      |>.detail "escalation_level" (Codec.uint8.encode level)
      |>.detail "escalation_reason" (.ofOption .str market.escalationReason)
      |>.detail "min_level_to_block" (Codec.uint8.encode policy.minEscalationLevelToBlock)).when
        (policy.blockOnEscalation && policy.minEscalationLevelToBlock ≤ level)

/-- The circuit breaker has been triggered. -/
def broken (policy : MarketPolicy) (market : MarketContext) : Option Violation :=
  ((Violation.of .circuitBreakerTriggered .critical "Circuit breaker triggered")
    |>.detail "triggered_at" (Codec.instant.option.encode market.circuitBreakerTriggeredAt)).when
      (policy.respectCircuitBreaker && market.circuitBreakerActive)

/-- The volatility regime is one of those that block. -/
def regimeBlocked (policy : MarketPolicy) (market : MarketContext) : Option Violation :=
  market.volatilityRegime.bind fun regime =>
    ((Violation.of .extremeVolatility .high ("Volatility regime blocked: " ++ regime))
      |>.detail "volatility_regime" (.str regime)).when
        (Text.containsIgnoringCase policy.volatilityRegimesBlocked regime)

/-- The volatility is too high. -/
def volatilityHigh (policy : MarketPolicy) (market : MarketContext) : Option Violation :=
  market.currentVolatility.bind fun volatility =>
    ((Violation.of .extremeVolatility .high
        ("Volatility too high: " ++ (volatility * .ofNat 100).fixed 1 ++ "%"))
      |>.detail "current_volatility" (.ofBinary64 volatility)
      |>.detail "max_volatility" (.ofBinary64 policy.maxVolatilityForTrading)).when
        (volatility.exceeds policy.maxVolatilityForTrading)

/-- The market is not liquid enough. -/
def liquidityLow (policy : MarketPolicy) (market : MarketContext) : Option Violation :=
  market.liquidityScore.bind fun liquidity =>
    ((Violation.of .liquidityEmergency .medium ("Liquidity too low: " ++ liquidity.fixed 2))
      |>.detail "liquidity_score" (.ofBinary64 liquidity)
      |>.detail "min_liquidity_score" (.ofBinary64 policy.minLiquidityScore)).when
        (liquidity.fallsBelow policy.minLiquidityScore)

/-- The spread is too wide. -/
def spreadWide (policy : MarketPolicy) (market : MarketContext) : Option Violation :=
  market.currentSpreadPct.bind fun spread =>
    ((Violation.of .liquidityEmergency .medium ("Spread too wide: " ++ spread.fixed 2 ++ "%"))
      |>.detail "spread_pct" (.ofBinary64 spread)
      |>.detail "max_spread_pct" (.ofBinary64 policy.maxSpreadPct)).when
        (spread.exceeds policy.maxSpreadPct)

/-- What the checks object to, in order. -/
def violations (policy : MarketPolicy) (s : Sections) : List (Option Violation) :=
  let market := s.market
  [policy.riskCritical market, policy.riskHigh market, policy.escalated market,
    policy.broken market, policy.regimeBlocked market, policy.volatilityHigh market,
    policy.liquidityLow market, policy.spreadWide market]

/-- What is reported when no check objects. -/
def passDetails (s : Sections) : Details :=
  .ofList [("risk_level", .ofOption .str s.market.currentRiskLevel),
    ("volatility_regime", .ofOption .str s.market.volatilityRegime),
    ("liquidity_score", Codec.binary64.option.encode s.market.liquidityScore),
    ("near_support", .bool s.market.nearSupport),
    ("near_resistance", .bool s.market.nearResistance)]

/-- Applies the checks. -/
def check (policy : MarketPolicy) (s : Sections) : Except Violation Details :=
  judge (policy.violations s) (passDetails s)

end MarketPolicy

end TradeGate
