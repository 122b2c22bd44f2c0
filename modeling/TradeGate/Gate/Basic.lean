import TradeGate.Gate.Run
import TradeGate.Policy.Override

/-!
# The gate

The gate answers every snapshot with a decision. A snapshot that lacks a section is blocked before
any validator runs; otherwise the validators run in order. All that is carried from one evaluation
to the next is the state that the validators share. Main definitions: `Gate`, `Gate.evaluate`,
`Gate.allows`.
-/

namespace TradeGate

/-- Why there is no gate: its policy is not accepted. -/
structure GateError where
  cause : PolicyError
  deriving DecidableEq, Repr

def GateError.message (error : GateError) : String :=
  "Invalid guard configuration: " ++ error.cause.message

/-- A policy that is accepted, and validators over a shared state. -/
structure Gate (σ : Type) where
  policy : Policy
  accepted : policy.Accepted
  validators : List (Validator σ)

/-- What operators are told about a gate. -/
structure GateHealth where
  validators : List String
  blockOnInternalError : Bool
  blockOnMissingInput : Bool
  maxEvaluationTimeMs : UInt64
  validatorTimeoutMs : UInt64
  replayWindowSize : Nat

namespace GateHealth

def toJson (health : GateHealth) : Json :=
  .obj [("status", .str "healthy"), ("validator_count", .int health.validators.length),
    ("validators", .ofStrings health.validators),
    ("block_on_internal_error", .bool health.blockOnInternalError),
    ("block_on_missing_input", .bool health.blockOnMissingInput),
    ("max_evaluation_time_ms", Codec.uint64.encode health.maxEvaluationTimeMs),
    ("validator_timeout_ms", Codec.uint64.encode health.validatorTimeoutMs),
    ("duplicate_cache_entries", .int health.replayWindowSize)]

end GateHealth

/-- One evaluation: the decision, and the findings of the validators that came to one. -/
structure Evaluation where
  decision : Decision
  measured : List Finding

namespace Gate

variable {σ : Type}

/-- A gate with validators of the caller's choice, run in their order. -/
def withValidators (policy : Policy) (validators : List (Validator σ)) :
    Except GateError (Gate σ) :=
  if h : policy.Accepted then .ok ⟨policy, h, validators⟩
  else .error ⟨.rejected policy.problems⟩

/-- The gate of a policy. -/
def ofPolicy (policy : Policy) : Except GateError (Gate ReplayWindow) :=
  withValidators policy policy.validators

/-- The empty replay window of a policy. -/
def window (policy : Policy) : ReplayWindow :=
  .ofSeconds policy.systemIntegrity.duplicateWindowSeconds

/-- The run of the validators on a snapshot, and the state after it. A snapshot that lacks sections
fails before the first one. -/
def run (gate : Gate σ) (snapshot : Snapshot) (now : Instant) (watch : Stopwatch) (state : σ) :
    Run × σ :=
  match snapshot.sections? with
  | none => (⟨[], .stopped (inputIncomplete snapshot.missingSections)⟩, state)
  | some s => runFrom gate.policy.timing watch s now 0 gate.validators state

/-- Evaluates a snapshot at an instant. -/
def evaluate (gate : Gate σ) (snapshot : Snapshot) (now : Instant) (watch : Stopwatch)
    (state : σ) : Evaluation × σ :=
  let (run, state) := gate.run snapshot now watch state
  let decision :=
    run.decision (evaluationId now snapshot.requestId?) snapshot.tradeIntent watch.total now
  (⟨decision, run.measured⟩, state)

/-- Whether a trade may go through, and the state after the evaluation. -/
def allows (gate : Gate σ) (snapshot : Snapshot) (now : Instant) (watch : Stopwatch) (state : σ) :
    Bool × σ :=
  let (evaluation, state) := gate.evaluate snapshot now watch state
  (evaluation.decision.isExecute, state)

/-- What is known of the validators, in order. -/
def validatorInfos (gate : Gate σ) : List ValidatorInfo := gate.validators.map Validator.info

/-- The state of the gate for operators. -/
def health (gate : Gate σ) (window : ReplayWindow) : GateHealth where
  validators := gate.validatorInfos.map ValidatorInfo.name
  blockOnInternalError := gate.policy.blockOnInternalError
  blockOnMissingInput := gate.policy.blockOnMissingInput
  maxEvaluationTimeMs := gate.policy.timing.maxEvaluationTimeMs
  validatorTimeoutMs := gate.policy.timing.validatorTimeoutMs
  replayWindowSize := window.size

/-- The name of a category in a description. -/
def categoryName : Category → String
  | .systemIntegrity => "SystemIntegrity"
  | .executionSafety => "ExecutionSafety"
  | .stateConsistency => "StateConsistency"
  | .ruleViolation => "RuleViolation"
  | .environmental => "Environmental"
  | .internalError => "InternalError"

/-- A validator in a description; its texts hold nothing that would have to be escaped. -/
def describeInfo (info : ValidatorInfo) : String :=
  "ValidatorMeta \x7b name: \"" ++ info.name ++ "\", category: " ++ categoryName info.category ++
    ", description: \"" ++ info.description ++ "\", is_critical: " ++
    (if info.isCritical then "true" else "false") ++ " \x7d"

/-- A description for operators. -/
def describe (gate : Gate σ) (window : ReplayWindow) : String :=
  "TradeGuard \x7b validators: [" ++ ", ".intercalate (gate.validatorInfos.map describeInfo) ++
    "], duplicate_cache: " ++ window.describe ++ " \x7d"

end Gate

end TradeGate
