import TradeGate.Check.Consistency
import TradeGate.Check.Execution
import TradeGate.Check.Integrity
import TradeGate.Check.Market
import TradeGate.Check.Rule

/-!
# Validators

A validator is a family of checks with a name, run on the sections of a snapshot. It may keep state
from one evaluation to the next, and it may break down instead of coming to an outcome. Main
definitions: `Validator`, `Policy.validators` and `Validator.report`.
-/

namespace TradeGate

/-- What operators are told about a validator. -/
structure ValidatorInfo where
  name : String
  category : Category
  description : String
  isCritical : Bool
  deriving DecidableEq

namespace ValidatorInfo

def record : Record ValidatorInfo ValidatorInfo :=
  Record.start ValidatorInfo.mk
    |>.required "name" (·.name) .string
    |>.required "category" (·.category) .category
    |>.required "description" (·.description) .string
    |>.required "is_critical" (·.isCritical) .bool

def toJson (info : ValidatorInfo) : Json := (record.codec false).encode info

end ValidatorInfo

/-- How a validator ends. One that breaks down may leave a message. -/
inductive Outcome where
  | passed (details : Details)
  | failed (violation : Violation)
  | broken (message : Option String)

/-- The outcome of a check that cannot break down. -/
def Outcome.ofCheck : Except Violation Details → Outcome
  | .ok details => passed details
  | .error violation => failed violation

/-- A family of checks over the sections of a snapshot and a state. -/
structure Validator (σ : Type) where
  info : ValidatorInfo
  run : Sections → Instant → σ → Outcome × σ

namespace Validator

/-- A validator without state of its own. -/
def stateless {σ : Type} (info : ValidatorInfo) (check : Sections → Instant → Outcome) :
    Validator σ where
  info
  run s now state := (check s now, state)

/-- A validator took longer than it may. -/
def overran (info : ValidatorInfo) (timing : TimingPolicy) (taken : Binary64) : Violation :=
  (Violation.of .timeout .high (info.name ++ " exceeded its time budget"))
    |>.detail "elapsed_ms" (.ofBinary64 taken)
    |>.detail "timeout_ms" (Codec.uint64.encode timing.validatorTimeoutMs)

/-- The finding on an outcome that took `taken` milliseconds to reach. Under strict timing a
validator that overran its time fails, whatever its outcome. A breakdown has no finding. -/
def report (info : ValidatorInfo) (timing : TimingPolicy) (taken : Binary64) :
    Outcome → Except (Option String) Finding :=
  let late := timing.strictTiming && Binary64.lt (.ofNat timing.validatorTimeoutMs.toNat) taken
  let inTime (finding : Finding) : Finding :=
    if late then (overran info timing taken).toFinding info.name taken else finding
  fun
  | .broken message => .error message
  | .passed details => .ok (inTime (.pass info.name details taken))
  | .failed violation => .ok (inTime (violation.toFinding info.name taken))

end Validator

/-! ## The five validators -/

namespace RulePolicy

def info : ValidatorInfo where
  name := "RuleValidator"
  category := .ruleViolation
  description := "Halt, manual lock, maintenance, trading hours, cooldown and symbol rules"
  isCritical := true

def validator {σ : Type} (policy : RulePolicy) : Validator σ :=
  .stateless info fun s now => .ofCheck (policy.check s now)

end RulePolicy

namespace IntegrityPolicy

def info : ValidatorInfo where
  name := "SystemIntegrityValidator"
  category := .systemIntegrity
  description := "Replay, request age, market data, feature pipeline and clock checks"
  isCritical := true

def validator (policy : IntegrityPolicy) : Validator ReplayWindow where
  info
  run s now window :=
    let (outcome, window) := policy.check s now window
    (.ofCheck outcome, window)

end IntegrityPolicy

namespace ExecutionPolicy

def info : ValidatorInfo where
  name := "ExecutionSafetyValidator"
  category := .executionSafety
  description := "Exchange reachability, latency, rate limits, order health and pending work"
  isCritical := true

def validator {σ : Type} (policy : ExecutionPolicy) : Validator σ :=
  .stateless info fun s _ => .ofCheck (policy.check s)

end ExecutionPolicy

namespace ConsistencyPolicy

def info : ValidatorInfo where
  name := "StateConsistencyValidator"
  category := .stateConsistency
  description := "Position sync, position count, equity, balance and margin reconciliation"
  isCritical := true

def validator {σ : Type} (policy : ConsistencyPolicy) : Validator σ :=
  .stateless info fun s now => .ofCheck (policy.check s now)

end ConsistencyPolicy

namespace MarketPolicy

def info : ValidatorInfo where
  name := "EnvironmentValidator"
  category := .environmental
  description := "Risk level, escalation, circuit breaker, volatility and liquidity checks"
  isCritical := true

def validator {σ : Type} (policy : MarketPolicy) : Validator σ :=
  .stateless info fun s _ => .ofCheck (policy.check s)

end MarketPolicy

/-- The validators of a policy, in the order in which they run. -/
def Policy.validators (policy : Policy) : List (Validator ReplayWindow) :=
  [policy.rules.validator, policy.systemIntegrity.validator, policy.executionSafety.validator,
    policy.stateConsistency.validator, policy.environmental.validator]

end TradeGate
