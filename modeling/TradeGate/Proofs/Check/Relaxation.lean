import TradeGate.Proofs.Check.Table

/-!
# Looser policies

One policy `Relaxes` another if its ceilings are no lower and its floors no higher, it checks nothing
that the other does not check, it allows all that the other allows, and it bars nothing that the
other does not bar. Family by family, what the looser one objects to the tighter one objects to as
well (`implies_of_relaxes` in each namespace).
-/

namespace TradeGate

open Binary64 (le Above Below)
open Text (Lists)

/-- Where the first condition holds, the second one does. -/
def Condition.Implies (first second : Condition) : Prop := first.holds → second.holds

theorem not_holds_of_implies {looser tighter : List Condition}
    (h : List.Forall₂ Condition.Implies looser tighter)
    (htighter : ∀ condition ∈ tighter, ¬ condition.holds) :
    ∀ condition ∈ looser, ¬ condition.holds := by
  induction h with
  | nil => exact htighter
  | cons himplies _ ih =>
    rw [List.forall_mem_cons] at htighter ⊢
    obtain ⟨hfirst, hrest⟩ := htighter
    exact ⟨fun hholds => hfirst (himplies hholds), ih hrest⟩

theorem exists_above_of_le {value : Option Binary64} {ceiling lower : Binary64}
    (hle : le lower ceiling = true) (h : ∃ v ∈ value, v.Above ceiling) :
    ∃ v ∈ value, v.Above lower := by
  obtain ⟨v, hv, habove⟩ := h
  exact ⟨v, hv, habove.of_le hle⟩

theorem exists_below_of_le {value : Option Binary64} {floor higher : Binary64}
    (hle : le floor higher = true) (h : ∃ v ∈ value, v.Below floor) :
    ∃ v ∈ value, v.Below higher := by
  obtain ⟨v, hv, hbelow⟩ := h
  exact ⟨v, hv, hbelow.of_le hle⟩

theorem exists_lt_of_le {value : Option UInt32} {ceiling lower : UInt32} (hle : lower ≤ ceiling)
    (h : ∃ n ∈ value, ceiling < n) : ∃ n ∈ value, lower < n := by
  obtain ⟨n, hn, hlt⟩ := h
  exact ⟨n, hn, UInt32.lt_of_le_of_lt hle hlt⟩

theorem Amount.lt_of_le_of_lt {x y z : Amount} (hxy : x.le y = true) (hyz : y.lt z = true) :
    x.lt z = true := by
  unfold Amount.le Amount.lt at *
  rw [decide_eq_true_iff] at *
  exact Int.lt_of_le_of_lt hxy hyz

theorem Amount.lt_of_lt_of_le {x y z : Amount} (hxy : x.lt y = true) (hyz : y.le z = true) :
    x.lt z = true := by
  unfold Amount.le Amount.lt at *
  rw [decide_eq_true_iff] at *
  exact Int.lt_of_lt_of_le hxy hyz

variable (s : Sections) (now : Instant)

/-! ## Rules -/

namespace RulePolicy

/-- The first policy is no tighter than the second, and has the same trading windows. -/
structure Relaxes (looser tighter : RulePolicy) : Prop where
  enforceTradingHours : looser.enforceTradingHours → tighter.enforceTradingHours
  allowedTradingHoursUtc : looser.allowedTradingHoursUtc = tighter.allowedTradingHoursUtc
  respectCooldown : looser.respectCooldown → tighter.respectCooldown
  respectSystemHalt : looser.respectSystemHalt → tighter.respectSystemHalt
  respectManualLock : looser.respectManualLock → tighter.respectManualLock
  blockDuringMaintenance : looser.blockDuringMaintenance → tighter.blockDuringMaintenance
  checkSymbolTradeable : looser.checkSymbolTradeable → tighter.checkSymbolTradeable
  restrictedSymbols : ∀ symbol ∈ looser.restrictedSymbols, Lists tighter.restrictedSymbols symbol
  allowLong : tighter.allowLong → looser.allowLong
  allowShort : tighter.allowShort → looser.allowShort

variable {looser tighter : RulePolicy}

theorem forbidsDirection_of_relaxes (h : looser.Relaxes tighter) {direction : Direction}
    (hforbids : looser.ForbidsDirection direction) : tighter.ForbidsDirection direction := by
  rcases hforbids with ⟨hlong, hoff⟩ | ⟨hshort, hoff⟩
  · refine Or.inl ⟨hlong, Bool.eq_false_iff.2 fun hon => ?_⟩
    rw [h.allowLong hon] at hoff
    exact nomatch hoff
  · refine Or.inr ⟨hshort, Bool.eq_false_iff.2 fun hon => ?_⟩
    rw [h.allowShort hon] at hoff
    exact nomatch hoff

theorem implies_of_relaxes (h : looser.Relaxes tighter) :
    List.Forall₂ Condition.Implies (looser.conditions s now) (tighter.conditions s now) := by
  refine .cons ?halted <| .cons ?locked <| .cons ?maintenance <| .cons ?hours <|
    .cons ?cooldown <| .cons ?symbol <| .cons ?direction .nil
  case halted => exact And.imp_left h.respectSystemHalt
  case locked => exact And.imp_left h.respectManualLock
  case maintenance => exact And.imp_left h.blockDuringMaintenance
  case hours =>
    rintro ⟨hflag, houtside⟩
    unfold OutsideWindows at houtside
    rw [h.allowedTradingHoursUtc] at houtside
    exact ⟨h.enforceTradingHours hflag, houtside⟩
  case cooldown => exact And.imp_left h.respectCooldown
  case symbol =>
    rintro ⟨hflag, hlists⟩
    exact ⟨h.checkSymbolTradeable hflag, hlists.of_forall h.restrictedSymbols⟩
  case direction => exact forbidsDirection_of_relaxes h

end RulePolicy

/-! ## System integrity -/

namespace IntegrityPolicy

/-- The first policy is no tighter than the second, and has the same replay window. -/
structure Relaxes (looser tighter : IntegrityPolicy) : Prop where
  maxMarketDataAgeSeconds : le tighter.maxMarketDataAgeSeconds looser.maxMarketDataAgeSeconds
  minSymbolCoveragePct : le looser.minSymbolCoveragePct tighter.minSymbolCoveragePct
  maxFeaturePipelineLagSeconds :
    le tighter.maxFeaturePipelineLagSeconds looser.maxFeaturePipelineLagSeconds
  requireFeatureSync : looser.requireFeatureSync → tighter.requireFeatureSync
  maxClockDriftMs : le tighter.maxClockDriftMs looser.maxClockDriftMs
  requireNtpSync : looser.requireNtpSync → tighter.requireNtpSync
  maxRequestAgeSeconds : le tighter.maxRequestAgeSeconds looser.maxRequestAgeSeconds
  maxFutureTimestampSeconds :
    le tighter.maxFutureTimestampSeconds looser.maxFutureTimestampSeconds
  duplicateWindowSeconds : looser.duplicateWindowSeconds = tighter.duplicateWindowSeconds

variable {looser tighter : IntegrityPolicy}

theorem implies_of_relaxes (h : looser.Relaxes tighter) :
    List.Forall₂ Condition.Implies (looser.conditions s now) (tighter.conditions s now) := by
  refine .cons ?stale <| .cons ?future <| .cons ?missing <| .cons ?old <| .cons ?coverage <|
    .cons ?desynced <| .cons ?lag <| .cons ?unsynced <| .cons ?drift .nil
  case stale => exact fun habove => habove.of_le h.maxRequestAgeSeconds
  case future => exact fun hbelow => hbelow.of_le (Binary64.neg_le_neg h.maxFutureTimestampSeconds)
  case missing => exact id
  case old => exact fun habove => habove.of_le h.maxMarketDataAgeSeconds
  case coverage => exact exists_below_of_le h.minSymbolCoveragePct
  case desynced => exact And.imp_left h.requireFeatureSync
  case lag =>
    rintro ⟨lag, hlag, hflag, habove⟩
    exact ⟨lag, hlag, h.requireFeatureSync hflag, habove.of_le h.maxFeaturePipelineLagSeconds⟩
  case unsynced => exact And.imp_left h.requireNtpSync
  case drift =>
    rintro ⟨drift, hdrift, hflag, habove⟩
    exact ⟨drift, hdrift, h.requireNtpSync hflag, habove.of_le h.maxClockDriftMs⟩

end IntegrityPolicy

/-! ## Execution safety -/

namespace ExecutionPolicy

/-- The first policy is no tighter than the second. -/
structure Relaxes (looser tighter : ExecutionPolicy) : Prop where
  requireExchangeReachable : looser.requireExchangeReachable → tighter.requireExchangeReachable
  maxExchangeLatencyMs : le tighter.maxExchangeLatencyMs looser.maxExchangeLatencyMs
  allowedExchangeStatuses :
    ∀ status ∈ tighter.allowedExchangeStatuses, Lists looser.allowedExchangeStatuses status
  minOrderSuccessRate1h : le looser.minOrderSuccessRate1h tighter.minOrderSuccessRate1h
  maxOrderFailures1h : tighter.maxOrderFailures1h ≤ looser.maxOrderFailures1h
  maxPendingOrders : tighter.maxPendingOrders ≤ looser.maxPendingOrders
  maxPendingCancellations : tighter.maxPendingCancellations ≤ looser.maxPendingCancellations
  minRateLimitRemaining : looser.minRateLimitRemaining ≤ tighter.minRateLimitRemaining
  maxRateLimitUtilization : le tighter.maxRateLimitUtilization looser.maxRateLimitUtilization
  maxNetworkLatencyMs : le tighter.maxNetworkLatencyMs looser.maxNetworkLatencyMs
  requireStableConnection : looser.requireStableConnection → tighter.requireStableConnection
  maxUnknownOpenOrders : tighter.maxUnknownOpenOrders ≤ looser.maxUnknownOpenOrders

variable {looser tighter : ExecutionPolicy}

theorem implies_of_relaxes (h : looser.Relaxes tighter) :
    List.Forall₂ Condition.Implies (looser.conditions s) (tighter.conditions s) := by
  refine .cons ?unreachable <| .cons ?noStatus <| .cons ?status <| .cons ?noLatency <|
    .cons ?latency <| .cons ?network <| .cons ?unstable <| .cons ?remaining <|
    .cons ?utilization <| .cons ?failures <| .cons ?rate <| .cons ?orders <|
    .cons ?cancellations <| .cons ?unknown .nil
  case unreachable => exact And.imp_left h.requireExchangeReachable
  case noStatus | noLatency => exact id
  case status =>
    rintro ⟨status, hstatus, hnot⟩
    exact ⟨status, hstatus, fun hlists => hnot (hlists.of_forall h.allowedExchangeStatuses)⟩
  case latency => exact exists_above_of_le h.maxExchangeLatencyMs
  case network => exact exists_above_of_le h.maxNetworkLatencyMs
  case unstable => exact And.imp_left h.requireStableConnection
  case remaining =>
    rintro ⟨remaining, hremaining, hlt⟩
    exact ⟨remaining, hremaining, UInt32.lt_of_lt_of_le hlt h.minRateLimitRemaining⟩
  case utilization => exact exists_above_of_le h.maxRateLimitUtilization
  case failures => exact exists_lt_of_le h.maxOrderFailures1h
  case rate => exact exists_below_of_le h.minOrderSuccessRate1h
  case orders => exact exists_lt_of_le h.maxPendingOrders
  case cancellations => exact exists_lt_of_le h.maxPendingCancellations
  case unknown => exact exists_lt_of_le h.maxUnknownOpenOrders

end ExecutionPolicy

/-! ## State consistency -/

namespace ConsistencyPolicy

/-- The first policy is no tighter than the second. -/
structure Relaxes (looser tighter : ConsistencyPolicy) : Prop where
  requirePositionSync : looser.requirePositionSync → tighter.requirePositionSync
  maxPositionSyncAgeSeconds :
    le tighter.maxPositionSyncAgeSeconds looser.maxPositionSyncAgeSeconds
  allowPositionMismatch : tighter.allowPositionMismatch → looser.allowPositionMismatch
  equityMismatchTolerancePct :
    tighter.equityMismatchTolerancePct.le looser.equityMismatchTolerancePct
  requireEquityMatch : looser.requireEquityMatch → tighter.requireEquityMatch
  minAvailableBalance : looser.minAvailableBalance.le tighter.minAvailableBalance
  requireMarginStateDefined :
    looser.requireMarginStateDefined → tighter.requireMarginStateDefined
  allowedMarginModes : ∀ mode ∈ tighter.allowedMarginModes, Lists looser.allowedMarginModes mode
  maxMarginRatio : le tighter.maxMarginRatio looser.maxMarginRatio

variable {looser tighter : ConsistencyPolicy}

theorem equitiesDiffer_of_relaxes (h : looser.Relaxes tighter) {system exchange : Amount}
    (hdiffer : looser.EquitiesDiffer system exchange) : tighter.EquitiesDiffer system exchange := by
  unfold EquitiesDiffer at hdiffer ⊢
  split
  · rename_i hzero
    rwa [if_pos hzero] at hdiffer
  · rename_i hzero
    rw [if_neg hzero] at hdiffer
    intro pct hpct
    exact Amount.lt_of_le_of_lt h.equityMismatchTolerancePct (hdiffer pct hpct)

theorem implies_of_relaxes (h : looser.Relaxes tighter) :
    List.Forall₂ Condition.Implies (looser.conditions s now) (tighter.conditions s now) := by
  refine .cons ?never <| .cons ?stale <| .cons ?positions <| .cons ?equities <|
    .cons ?noBalance <| .cons ?balance <| .cons ?noMode <| .cons ?mode <| .cons ?ratio .nil
  case never => exact And.imp_left h.requirePositionSync
  case stale =>
    rintro ⟨lastSync, hlastSync, hflag, habove⟩
    exact ⟨lastSync, hlastSync, h.requirePositionSync hflag,
      habove.of_le h.maxPositionSyncAgeSeconds⟩
  case positions =>
    rintro ⟨system, hsystem, exchange, hexchange, hoff, hne⟩
    refine ⟨system, hsystem, exchange, hexchange, Bool.eq_false_iff.2 fun hon => ?_, hne⟩
    rw [h.allowPositionMismatch hon] at hoff
    exact nomatch hoff
  case equities =>
    rintro ⟨system, hsystem, exchange, hexchange, hflag, hdiffer⟩
    exact ⟨system, hsystem, exchange, hexchange, h.requireEquityMatch hflag,
      equitiesDiffer_of_relaxes h hdiffer⟩
  case noBalance => exact id
  case balance =>
    rintro ⟨balance, hbalance, hlt⟩
    exact ⟨balance, hbalance, Amount.lt_of_lt_of_le hlt h.minAvailableBalance⟩
  case noMode => exact And.imp_left h.requireMarginStateDefined
  case mode =>
    rintro ⟨mode, hmode, hflag, hnot⟩
    exact ⟨mode, hmode, h.requireMarginStateDefined hflag,
      fun hlists => hnot (hlists.of_forall h.allowedMarginModes)⟩
  case ratio =>
    rintro ⟨ratio, hratio, hflag, habove⟩
    exact ⟨ratio, hratio, h.requireMarginStateDefined hflag, habove.of_le h.maxMarginRatio⟩

end ConsistencyPolicy

/-! ## The state of the market -/

namespace MarketPolicy

/-- The first policy is no tighter than the second. -/
structure Relaxes (looser tighter : MarketPolicy) : Prop where
  blockOnCriticalRisk : looser.blockOnCriticalRisk → tighter.blockOnCriticalRisk
  criticalRiskLevels : ∀ level ∈ looser.criticalRiskLevels, Lists tighter.criticalRiskLevels level
  maxRiskScore : le tighter.maxRiskScore looser.maxRiskScore
  blockOnEscalation : looser.blockOnEscalation → tighter.blockOnEscalation
  minEscalationLevelToBlock : tighter.minEscalationLevelToBlock ≤ looser.minEscalationLevelToBlock
  respectCircuitBreaker : looser.respectCircuitBreaker → tighter.respectCircuitBreaker
  maxVolatilityForTrading : le tighter.maxVolatilityForTrading looser.maxVolatilityForTrading
  volatilityRegimesBlocked :
    ∀ regime ∈ looser.volatilityRegimesBlocked, Lists tighter.volatilityRegimesBlocked regime
  minLiquidityScore : le looser.minLiquidityScore tighter.minLiquidityScore
  maxSpreadPct : le tighter.maxSpreadPct looser.maxSpreadPct

variable {looser tighter : MarketPolicy}

theorem implies_of_relaxes (h : looser.Relaxes tighter) :
    List.Forall₂ Condition.Implies (looser.conditions s) (tighter.conditions s) := by
  refine .cons ?risk <| .cons ?score <| .cons ?escalation <| .cons ?breaker <| .cons ?regime <|
    .cons ?volatility <| .cons ?liquidity <| .cons ?spread .nil
  case risk =>
    rintro ⟨level, hlevel, hflag, hlists⟩
    exact ⟨level, hlevel, h.blockOnCriticalRisk hflag, hlists.of_forall h.criticalRiskLevels⟩
  case score =>
    rintro ⟨score, hscore, hflag, habove⟩
    exact ⟨score, hscore, h.blockOnCriticalRisk hflag, habove.of_le h.maxRiskScore⟩
  case escalation =>
    rintro ⟨level, hlevel, hflag, hle⟩
    exact ⟨level, hlevel, h.blockOnEscalation hflag,
      UInt8.le_trans h.minEscalationLevelToBlock hle⟩
  case breaker => exact And.imp_left h.respectCircuitBreaker
  case regime =>
    rintro ⟨regime, hregime, hlists⟩
    exact ⟨regime, hregime, hlists.of_forall h.volatilityRegimesBlocked⟩
  case volatility => exact exists_above_of_le h.maxVolatilityForTrading
  case liquidity => exact exists_below_of_le h.minLiquidityScore
  case spread => exact exists_above_of_le h.maxSpreadPct

end MarketPolicy

/-! ## Whole policies -/

namespace Policy

/-- The first policy is no tighter than the second in any family of checks. -/
structure Relaxes (looser tighter : Policy) : Prop where
  rules : looser.rules.Relaxes tighter.rules
  systemIntegrity : looser.systemIntegrity.Relaxes tighter.systemIntegrity
  executionSafety : looser.executionSafety.Relaxes tighter.executionSafety
  stateConsistency : looser.stateConsistency.Relaxes tighter.stateConsistency
  environmental : looser.environmental.Relaxes tighter.environmental

variable {looser tighter : Policy}

theorem implies_of_relaxes (h : looser.Relaxes tighter) :
    List.Forall₂ Condition.Implies (looser.standing s now) (tighter.standing s now) :=
  List.rel_flatten <|
    .cons (RulePolicy.implies_of_relaxes s now h.rules) <|
    .cons (IntegrityPolicy.implies_of_relaxes s now h.systemIntegrity) <|
    .cons (ExecutionPolicy.implies_of_relaxes s h.executionSafety) <|
    .cons (ConsistencyPolicy.implies_of_relaxes s now h.stateConsistency) <|
    .cons (MarketPolicy.implies_of_relaxes s h.environmental) .nil

end Policy

end TradeGate
