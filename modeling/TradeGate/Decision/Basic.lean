import TradeGate.Decision.Finding
import TradeGate.Snapshot.Codec

/-!
# Decisions

The verdict of one evaluation with everything that led to it. Reason, severity and category are
those of a block. Main definitions: `Decision`, its three constructors `execute`, `block` and
`internalError`, and `evaluationId`.
-/

namespace TradeGate

/-- The id of an evaluation: its instant to the microsecond and the first eight characters of the
request id. -/
def evaluationId (now : Instant) (requestId : Option String) : String :=
  let front := match requestId with
    | some id => if id = "" then "UNKNOWN".toList else id.toList.take 8
    | none => "UNKNOWN".toList
  String.ofList ("GUARD-".toList ++ now.stampChars ++ '-' :: front)

/-- The verdict of one evaluation. -/
structure Decision where
  evaluationId : String
  verdict : Verdict
  tradeIntent : Option TradeIntent
  reason : Option Reason
  severity : Option Severity
  category : Option Category
  details : Details
  findings : List Finding
  evaluationTimeMs : Binary64
  timestamp : Instant

namespace Decision

/-- All validators passed. -/
def execute (evaluationId : String) (tradeIntent : Option TradeIntent) (findings : List Finding)
    (timeMs : Binary64) (timestamp : Instant) : Decision where
  evaluationId
  verdict := .execute
  tradeIntent
  reason := none
  severity := none
  category := none
  details := .ofList [("status", .str "All validators passed")]
  findings
  evaluationTimeMs := timeMs
  timestamp

/-- Blocked by a failed finding. One without a reason is an internal error. -/
def block (evaluationId : String) (tradeIntent : Option TradeIntent) (failure : Finding)
    (findings : List Finding) (timeMs : Binary64) (timestamp : Instant) : Decision :=
  let reason := failure.reason.getD .guardInternalError
  { evaluationId
    verdict := .block
    tradeIntent
    reason := some reason
    severity := some (failure.severity.getD reason.defaultSeverity)
    category := some reason.category
    details := failure.details
    findings
    evaluationTimeMs := timeMs
    timestamp }

/-- Blocked because the evaluation itself broke down. -/
def internalError (evaluationId : String) (tradeIntent : Option TradeIntent)
    (errorType errorMessage : String) (timeMs : Binary64) (timestamp : Instant) : Decision where
  evaluationId
  verdict := .block
  tradeIntent
  reason := some .guardInternalError
  severity := some .critical
  category := some .internalError
  details := .ofList [("error_type", .str errorType), ("error_message", .str errorMessage),
    ("message", .str "Internal error in trade guard, defaulting to BLOCK")]
  findings := []
  evaluationTimeMs := timeMs
  timestamp

def isExecute (decision : Decision) : Bool := decision.verdict = .execute

def isBlock (decision : Decision) : Bool := decision.verdict = .block

/-- The request id of the intent. -/
def requestId? (decision : Decision) : Option String :=
  decision.tradeIntent.map TradeIntent.requestId

def message? (decision : Decision) : Option String := decision.details.message?

def record : Record Decision Decision :=
  Record.start Decision.mk
    |>.required "evaluation_id" (·.evaluationId) .string
    |>.required "decision" (·.verdict) .verdict
    |>.nullable "trade_intent" (·.tradeIntent) TradeIntent.codec
    |>.nullable "reason" (·.reason) .reason
    |>.nullable "severity" (·.severity) .severity
    |>.nullable "category" (·.category) .category
    |>.required "details" (·.details) Details.codec
    |>.required "validation_results" (·.findings) (.list Finding.codec)
    |>.required "evaluation_time_ms" (·.evaluationTimeMs) .binary64
    |>.required "timestamp" (·.timestamp) .instant

def codec : Codec Decision := record.codec false

def toJson (decision : Decision) : Json := codec.encode decision

end Decision

end TradeGate
