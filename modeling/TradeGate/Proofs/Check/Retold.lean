import TradeGate.Proofs.Check.Relaxation
import TradeGate.Proofs.Number.AmountText

/-!
# Metrics that are retold

What is told of a snapshot may differ from it: an optional metric may be told as another one, or not
at all (`Snapshot.retold`). A metric is lost in it if it is outside its limit and what is told of it is
not (`Lost`). Family by family, what the checks object to they object to in what is told as well,
unless a metric is lost (`implies_of_not_loses` in each namespace); so where nothing is objected to in
what is told, nothing is objected to at all exactly if no metric is lost
(`Policy.forall_not_holds_iff`).
-/

namespace TradeGate

open Binary64 (Above Below)

variable (tell : Binary64 → Option Binary64)

/-! ## What is told -/

def SystemState.retold (system : SystemState) : SystemState :=
  { system with
    symbolCoveragePct := system.symbolCoveragePct.bind tell
    featurePipelineLagSeconds := system.featurePipelineLagSeconds.bind tell
    clockDriftMs := system.clockDriftMs.bind tell }

def ExecutionHealth.retold (execution : ExecutionHealth) : ExecutionHealth :=
  { execution with
    exchangeLatencyMs := execution.exchangeLatencyMs.bind tell
    rateLimitUtilization := execution.rateLimitUtilization.bind tell
    orderSuccessRate1h := execution.orderSuccessRate1h.bind tell
    networkLatencyMs := execution.networkLatencyMs.bind tell }

def AccountState.retold (account : AccountState) : AccountState :=
  { account with
    systemEquity := account.systemEquity.map Amount.unsignedZero
    exchangeEquity := account.exchangeEquity.map Amount.unsignedZero
    availableBalance := account.availableBalance.map Amount.unsignedZero
    marginRatio := account.marginRatio.bind tell }

def MarketContext.retold (market : MarketContext) : MarketContext :=
  { market with
    riskScore := market.riskScore.bind tell
    currentVolatility := market.currentVolatility.bind tell
    liquidityScore := market.liquidityScore.bind tell
    currentSpreadPct := market.currentSpreadPct.bind tell }

def TradeIntent.retold (intent : TradeIntent) : TradeIntent :=
  { intent with requestedSize := intent.requestedSize.unsignedZero }

/-- All sections as they are told. -/
def Sections.retold (s : Sections) : Sections where
  intent := s.intent.retold
  system := s.system.retold tell
  execution := s.execution.retold tell
  halt := s.halt
  account := s.account.retold tell
  market := s.market.retold tell

/-- A snapshot as it is told: its metrics as `tell` says, and amounts of zero without a sign. -/
def Snapshot.retold (snapshot : Snapshot) : Snapshot where
  tradeIntent := snapshot.tradeIntent.map TradeIntent.retold
  systemState := snapshot.systemState.map (SystemState.retold tell)
  executionHealth := snapshot.executionHealth.map (ExecutionHealth.retold tell)
  haltState := snapshot.haltState
  accountState := snapshot.accountState.map (AccountState.retold tell)
  environmentalContext := snapshot.environmentalContext.map (MarketContext.retold tell)

theorem Snapshot.sections?_retold (snapshot : Snapshot) :
    (snapshot.retold tell).sections? = snapshot.sections?.map (Sections.retold tell) := by
  obtain ⟨intent, system, execution, halt, account, market⟩ := snapshot
  cases intent <;> cases system <;> cases execution <;> cases halt <;> cases account <;>
    cases market <;> rfl

/-! ## Lost metrics -/

/-- The metric is outside its limit, and what is told of it is not. -/
def Lost (metric : Option Binary64) (outside : Binary64 → Prop) : Prop :=
  (∃ x ∈ metric, outside x) ∧ ¬ ∃ x ∈ metric.bind tell, outside x

variable {tell} {s : Sections} {now : Instant}

theorem exists_of_not_lost {metric : Option Binary64} {outside : Binary64 → Prop}
    (h : ¬ Lost tell metric outside) (houtside : ∃ x ∈ metric, outside x) :
    ∃ x ∈ metric.bind tell, outside x :=
  Classical.not_not.1 fun hnone => h ⟨houtside, hnone⟩

/-! ## System integrity -/

namespace IntegrityPolicy

/-- A metric of the system is lost. -/
inductive Loses (policy : IntegrityPolicy) (tell : Binary64 → Option Binary64)
    (system : SystemState) : Prop
  | coverage (h : Lost tell system.symbolCoveragePct (·.Below policy.minSymbolCoveragePct))
  | lag (h : Lost tell system.featurePipelineLagSeconds fun lag =>
      policy.requireFeatureSync ∧ lag.Above policy.maxFeaturePipelineLagSeconds)
  | drift (h : Lost tell system.clockDriftMs fun drift =>
      policy.requireNtpSync ∧ drift.abs.Above policy.maxClockDriftMs)

variable {policy : IntegrityPolicy}

theorem implies_of_not_loses (h : ¬ policy.Loses tell s.system) :
    List.Forall₂ Condition.Implies (policy.conditions s now)
      (policy.conditions (s.retold tell) now) := by
  refine .cons ?stale <| .cons ?future <| .cons ?missing <| .cons ?old <| .cons ?coverage <|
    .cons ?desynced <| .cons ?lag <| .cons ?unsynced <| .cons ?drift .nil
  case stale | future | missing | old | desynced | unsynced => exact id
  case coverage => exact exists_of_not_lost fun hlost => h (.coverage hlost)
  case lag => exact exists_of_not_lost fun hlost => h (.lag hlost)
  case drift => exact exists_of_not_lost fun hlost => h (.drift hlost)

theorem not_loses_of_forall (h : ∀ condition ∈ policy.conditions s now, ¬ condition.holds) :
    ¬ policy.Loses tell s.system := by
  simp only [conditions, List.forall_mem_cons] at h
  obtain ⟨-, -, -, -, hcoverage, -, hlag, -, hdrift, -⟩ := h
  rintro (hlost | hlost | hlost)
  · exact hcoverage hlost.1
  · exact hlag hlost.1
  · exact hdrift hlost.1

end IntegrityPolicy

/-! ## Execution safety -/

namespace ExecutionPolicy

/-- A metric of execution is lost. -/
inductive Loses (policy : ExecutionPolicy) (tell : Binary64 → Option Binary64)
    (execution : ExecutionHealth) : Prop
  | latency (h : Lost tell execution.exchangeLatencyMs (·.Above policy.maxExchangeLatencyMs))
  | network (h : Lost tell execution.networkLatencyMs (·.Above policy.maxNetworkLatencyMs))
  | utilization
      (h : Lost tell execution.rateLimitUtilization (·.Above policy.maxRateLimitUtilization))
  | rate (h : Lost tell execution.orderSuccessRate1h (·.Below policy.minOrderSuccessRate1h))

variable {policy : ExecutionPolicy}

theorem implies_of_not_loses (h : ¬ policy.Loses tell s.execution) :
    List.Forall₂ Condition.Implies (policy.conditions s) (policy.conditions (s.retold tell)) := by
  refine .cons ?unreachable <| .cons ?noStatus <| .cons ?status <| .cons ?noLatency <|
    .cons ?latency <| .cons ?network <| .cons ?unstable <| .cons ?remaining <|
    .cons ?utilization <| .cons ?failures <| .cons ?rate <| .cons ?orders <|
    .cons ?cancellations <| .cons ?unknown .nil
  case unreachable | noStatus | status | unstable | remaining | failures | orders | cancellations
      | unknown => exact id
  case noLatency =>
    intro hnone
    show s.execution.exchangeLatencyMs.bind tell = none
    rw [show s.execution.exchangeLatencyMs = none from hnone, Option.bind_none]
  case latency => exact exists_of_not_lost fun hlost => h (.latency hlost)
  case network => exact exists_of_not_lost fun hlost => h (.network hlost)
  case utilization => exact exists_of_not_lost fun hlost => h (.utilization hlost)
  case rate => exact exists_of_not_lost fun hlost => h (.rate hlost)

theorem not_loses_of_forall (h : ∀ condition ∈ policy.conditions s, ¬ condition.holds) :
    ¬ policy.Loses tell s.execution := by
  simp only [conditions, List.forall_mem_cons] at h
  obtain ⟨-, -, -, -, hlatency, hnetwork, -, -, hutilization, -, hrate, -⟩ := h
  rintro (hlost | hlost | hlost | hlost)
  · exact hlatency hlost.1
  · exact hnetwork hlost.1
  · exact hutilization hlost.1
  · exact hrate hlost.1

end ExecutionPolicy

/-! ## State consistency -/

namespace Amount

theorem isZero_unsignedZero (x : Amount) : x.unsignedZero.isZero = x.isZero := rfl

theorem unsignedZero_of_not_isZero {x : Amount} (h : ¬ x.isZero = true) : x.unsignedZero = x := by
  have hne : (x.coefficient != 0) = true := by
    simpa [isZero] using h
  unfold unsignedZero
  rw [hne, Bool.and_true]

theorem signed_unsignedZero (x : Amount) : x.unsignedZero.signed = x.signed := by
  by_cases h : x.isZero = true
  · have hzero : x.coefficient = 0 := beq_iff_eq.1 h
    unfold unsignedZero signed
    simp [hzero]
  · rw [unsignedZero_of_not_isZero h]

/-- A sign of zero is not seen in a difference. -/
theorem unsignedZero_sub? (x y : Amount) : x.unsignedZero.sub? y = x.sub? y := by
  unfold sub?
  rw [signed_unsignedZero]
  rfl

end Amount

namespace ConsistencyPolicy

/-- The metric of the account is lost. -/
def Loses (policy : ConsistencyPolicy) (tell : Binary64 → Option Binary64)
    (account : AccountState) : Prop :=
  Lost tell account.marginRatio fun ratio =>
    policy.requireMarginStateDefined ∧ ratio.Above policy.maxMarginRatio

variable {policy : ConsistencyPolicy}

/-- A sign of zero does not count between equities. -/
theorem equitiesDiffer_unsignedZero (system exchange : Amount) :
    policy.EquitiesDiffer system.unsignedZero exchange.unsignedZero ↔
      policy.EquitiesDiffer system exchange := by
  unfold EquitiesDiffer
  rw [Amount.isZero_unsignedZero, Amount.isZero_unsignedZero]
  split
  · exact Iff.rfl
  · rename_i hzero
    have hpct : equityMismatchPct? system.unsignedZero exchange.unsignedZero =
        equityMismatchPct? system exchange := by
      rw [Amount.unsignedZero_of_not_isZero hzero]
      unfold equityMismatchPct?
      rw [Amount.unsignedZero_sub?]
    rw [hpct]

theorem implies_of_not_loses (h : ¬ policy.Loses tell s.account) :
    List.Forall₂ Condition.Implies (policy.conditions s now)
      (policy.conditions (s.retold tell) now) := by
  refine .cons ?never <| .cons ?stale <| .cons ?positions <| .cons ?equities <|
    .cons ?noBalance <| .cons ?balance <| .cons ?noMode <| .cons ?mode <| .cons ?ratio .nil
  case never | stale | positions | noMode | mode => exact id
  case equities =>
    rintro ⟨system, hsystem, exchange, hexchange, hflag, hdiffer⟩
    exact ⟨_, Option.mem_map_of_mem _ hsystem, _, Option.mem_map_of_mem _ hexchange, hflag,
      (equitiesDiffer_unsignedZero system exchange).2 hdiffer⟩
  case noBalance => exact Option.map_eq_none_iff.2
  case balance =>
    rintro ⟨balance, hbalance, hlt⟩
    refine ⟨_, Option.mem_map_of_mem _ hbalance, ?_⟩
    unfold Amount.lt at hlt ⊢
    rwa [Amount.units_unsignedZero]
  case ratio => exact exists_of_not_lost h

theorem not_loses_of_forall (h : ∀ condition ∈ policy.conditions s now, ¬ condition.holds) :
    ¬ policy.Loses tell s.account := by
  simp only [conditions, List.forall_mem_cons] at h
  obtain ⟨-, -, -, -, -, -, -, -, hratio, -⟩ := h
  exact fun hlost => hratio hlost.1

end ConsistencyPolicy

/-! ## The state of the market -/

namespace MarketPolicy

/-- A metric of the market is lost. -/
inductive Loses (policy : MarketPolicy) (tell : Binary64 → Option Binary64)
    (market : MarketContext) : Prop
  | score (h : Lost tell market.riskScore fun score =>
      policy.blockOnCriticalRisk ∧ score.Above policy.maxRiskScore)
  | volatility (h : Lost tell market.currentVolatility (·.Above policy.maxVolatilityForTrading))
  | liquidity (h : Lost tell market.liquidityScore (·.Below policy.minLiquidityScore))
  | spread (h : Lost tell market.currentSpreadPct (·.Above policy.maxSpreadPct))

variable {policy : MarketPolicy}

theorem implies_of_not_loses (h : ¬ policy.Loses tell s.market) :
    List.Forall₂ Condition.Implies (policy.conditions s) (policy.conditions (s.retold tell)) := by
  refine .cons ?risk <| .cons ?score <| .cons ?escalation <| .cons ?breaker <| .cons ?regime <|
    .cons ?volatility <| .cons ?liquidity <| .cons ?spread .nil
  case risk | escalation | breaker | regime => exact id
  case score => exact exists_of_not_lost fun hlost => h (.score hlost)
  case volatility => exact exists_of_not_lost fun hlost => h (.volatility hlost)
  case liquidity => exact exists_of_not_lost fun hlost => h (.liquidity hlost)
  case spread => exact exists_of_not_lost fun hlost => h (.spread hlost)

theorem not_loses_of_forall (h : ∀ condition ∈ policy.conditions s, ¬ condition.holds) :
    ¬ policy.Loses tell s.market := by
  simp only [conditions, List.forall_mem_cons] at h
  obtain ⟨-, hscore, -, -, -, hvolatility, hliquidity, hspread, -⟩ := h
  rintro (hlost | hlost | hlost | hlost)
  · exact hscore hlost.1
  · exact hvolatility hlost.1
  · exact hliquidity hlost.1
  · exact hspread hlost.1

end MarketPolicy

/-! ## Whole policies -/

namespace Policy

/-- Some metric is lost: it is outside its limit, and what is told of it is not. -/
inductive Loses (policy : Policy) (tell : Binary64 → Option Binary64) (s : Sections) : Prop
  | systemIntegrity (h : policy.systemIntegrity.Loses tell s.system)
  | executionSafety (h : policy.executionSafety.Loses tell s.execution)
  | stateConsistency (h : policy.stateConsistency.Loses tell s.account)
  | environmental (h : policy.environmental.Loses tell s.market)

variable {policy : Policy}

theorem implies_of_not_loses (h : ¬ policy.Loses tell s) :
    List.Forall₂ Condition.Implies (policy.standing s now) (policy.standing (s.retold tell) now) :=
  List.rel_flatten <|
    -- the rules do not look at metrics
    .cons (List.forall₂_same.2 fun _ _ => id) <|
    .cons (IntegrityPolicy.implies_of_not_loses fun hlost => h (.systemIntegrity hlost)) <|
    .cons (ExecutionPolicy.implies_of_not_loses fun hlost => h (.executionSafety hlost)) <|
    .cons (ConsistencyPolicy.implies_of_not_loses fun hlost => h (.stateConsistency hlost)) <|
    .cons (MarketPolicy.implies_of_not_loses fun hlost => h (.environmental hlost)) .nil

theorem not_loses_of_forall (h : ∀ condition ∈ policy.standing s now, ¬ condition.holds) :
    ¬ policy.Loses tell s := by
  unfold standing at h
  simp only [List.forall_mem_flatten, List.forall_mem_cons] at h
  obtain ⟨-, hintegrity, hexecution, hconsistency, hmarket, -⟩ := h
  rintro (hlost | hlost | hlost | hlost)
  · exact IntegrityPolicy.not_loses_of_forall hintegrity hlost
  · exact ExecutionPolicy.not_loses_of_forall hexecution hlost
  · exact ConsistencyPolicy.not_loses_of_forall hconsistency hlost
  · exact MarketPolicy.not_loses_of_forall hmarket hlost

/-- Where nothing is objected to in what is told, nothing is objected to exactly if no metric is
lost. -/
theorem forall_not_holds_iff
    (h : ∀ condition ∈ policy.standing (s.retold tell) now, ¬ condition.holds) :
    (∀ condition ∈ policy.standing s now, ¬ condition.holds) ↔ ¬ policy.Loses tell s :=
  ⟨not_loses_of_forall, fun hkept => not_holds_of_implies (implies_of_not_loses hkept) h⟩

end Policy

end TradeGate
