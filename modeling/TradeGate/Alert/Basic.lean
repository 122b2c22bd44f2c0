import TradeGate.Decision.Text

/-!
# Alerts

What is told about a blocked trade, and its text: eleven labelled lines.
-/

namespace TradeGate

/-- What is told about a blocked trade. -/
structure Alert where
  evaluationId : String
  severity : Severity
  category : Category
  reason : Reason
  title : String
  message : String
  symbol : String
  direction : String
  evaluationTimeMs : Binary64
  timestamp : Instant

namespace Alert

/-- The alert of a block that has a reason. Severity and category follow from the reason where the
decision lacks them, and so does the message. -/
def ofDecision? (decision : Decision) : Option Alert := do
  let reason ← if decision.isBlock then decision.reason else none
  let severity := decision.severity.getD reason.defaultSeverity
  some
    { evaluationId := decision.evaluationId
      severity
      category := decision.category.getD reason.category
      reason
      title := "TRADE BLOCKED [" ++ severity.code ++ "]"
      message := decision.message?.getD reason.code
      symbol := TradeIntent.symbolText decision.tradeIntent
      direction := TradeIntent.directionText decision.tradeIntent
      evaluationTimeMs := decision.evaluationTimeMs
      timestamp := decision.timestamp }

/-- The lines of the text. -/
def lines (alert : Alert) : List String :=
  [alert.severity.marker ++ " " ++ alert.title,
    "Decision: " ++ Verdict.block.code,
    "Symbol: " ++ alert.symbol,
    "Direction: " ++ alert.direction,
    "Reason: " ++ alert.reason.code,
    "Category: " ++ alert.category.code,
    "Severity: " ++ alert.severity.code,
    "Message: " ++ alert.message,
    "Eval Time: " ++ millisText alert.evaluationTimeMs,
    "Time: " ++ alert.timestamp.legible,
    "ID: " ++ alert.evaluationId]

/-- The text that is sent. -/
def text (alert : Alert) : String := "\n".intercalate alert.lines

def record : Record Alert Alert :=
  Record.start Alert.mk
    |>.required "evaluation_id" (·.evaluationId) .string
    |>.required "severity" (·.severity) .severity
    |>.required "category" (·.category) .category
    |>.required "reason" (·.reason) .reason
    |>.required "title" (·.title) .string
    |>.required "message" (·.message) .string
    |>.required "symbol" (·.symbol) .string
    |>.required "direction" (·.direction) .string
    |>.required "evaluation_time_ms" (·.evaluationTimeMs) .binary64
    |>.required "timestamp" (·.timestamp) .instant

def toJson (alert : Alert) : Json := (record.codec false).encode alert

end Alert

end TradeGate
