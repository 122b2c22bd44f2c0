import TradeGate.Decision.Details
import TradeGate.Json.Record
import TradeGate.Json.Vocabulary

/-!
# Findings and violations

A violation is what a check objects to: a reason, a severity and a message, with details. A finding
is the outcome of one validator; a failed one carries the violation, its message among the details.
-/

namespace TradeGate

/-- What a check objects to. -/
structure Violation where
  reason : Reason
  severity : Severity
  message : String
  details : Details

namespace Violation

/-- A violation without details. -/
def of (reason : Reason) (severity : Severity) (message : String) : Violation :=
  ⟨reason, severity, message, .empty⟩

/-- A violation at the severity that its reason has of itself. -/
def ofReason (reason : Reason) (message : String) : Violation :=
  of reason reason.defaultSeverity message

/-- Adds a detail. -/
def detail (violation : Violation) (name : String) (value : Json) : Violation :=
  { violation with details := violation.details.set name value }

/-- The details with the message among them. -/
def allDetails (violation : Violation) : Details :=
  violation.details.set "message" (.str violation.message)

/-- The violation on one line. -/
def text (violation : Violation) : String :=
  violation.reason.code ++ " (" ++ violation.severity.code ++ "): " ++ violation.message

end Violation

/-- The outcome of one validator. -/
structure Finding where
  isValid : Bool
  reason : Option Reason
  severity : Option Severity
  details : Details
  validatorName : String
  validationTimeMs : Binary64

namespace Finding

/-- A validator passed. -/
def pass (validatorName : String) (details : Details) (timeMs : Binary64) : Finding :=
  ⟨true, none, none, details, validatorName, timeMs⟩

/-- A validator failed; without a severity that of the reason counts. -/
def block (validatorName : String) (reason : Reason) (severity : Option Severity)
    (details : Details) (timeMs : Binary64) : Finding :=
  ⟨false, some reason, some (severity.getD reason.defaultSeverity), details, validatorName, timeMs⟩

/-- The category of the reason. -/
def category? (finding : Finding) : Option Category := finding.reason.map Reason.category

def message? (finding : Finding) : Option String := finding.details.message?

def record : Record Finding Finding :=
  Record.start Finding.mk
    |>.required "is_valid" (·.isValid) .bool
    |>.nullable "reason" (·.reason) .reason
    |>.nullable "severity" (·.severity) .severity
    |>.required "details" (·.details) Details.codec
    |>.required "validator_name" (·.validatorName) .string
    |>.required "validation_time_ms" (·.validationTimeMs) .binary64

def codec : Codec Finding := record.codec false

end Finding

/-- The finding of a violation. -/
def Violation.toFinding (violation : Violation) (validatorName : String) (timeMs : Binary64) :
    Finding :=
  .block validatorName violation.reason (some violation.severity) violation.allDetails timeMs

end TradeGate
