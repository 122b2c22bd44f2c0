import TradeGate.Decision.Basic
import TradeGate.Number.Shortest

/-!
# Texts of decisions

A summary on one line, and a message of labelled lines.
-/

namespace TradeGate

namespace TradeIntent

/-- The symbol of an intent that may be missing. -/
def symbolText (intent : Option TradeIntent) : String :=
  (intent.map TradeIntent.symbol).getD "UNKNOWN"

/-- The direction of an intent that may be missing. -/
def directionText (intent : Option TradeIntent) : String :=
  (intent.map (·.direction.code)).getD "UNKNOWN"

end TradeIntent

/-- A time span with two places. -/
def millisText (timeMs : Binary64) : String := timeMs.fixed 2 ++ "ms"

namespace Decision

/-- The decision on one line. -/
def summary (decision : Decision) : String :=
  let trade := TradeIntent.symbolText decision.tradeIntent ++ " " ++
    TradeIntent.directionText decision.tradeIntent
  let time := millisText decision.evaluationTimeMs
  match decision.verdict, decision.reason, decision.severity with
  | .block, some reason, some severity =>
    " | ".intercalate ["BLOCK", trade, reason.code ++ " (" ++ severity.code ++ ")", time]
  | verdict, _, _ => " | ".intercalate [verdict.code, trade, time]

/-- The decision as labelled lines; what it lacks has no line. -/
def alertMessage (decision : Decision) : String :=
  let line (label : String) (value : Option String) : List String :=
    (value.map (label ++ ·)).toList
  "\n".intercalate <|
    ["Trade Guard " ++ decision.verdict.code,
      "Symbol: " ++ TradeIntent.symbolText decision.tradeIntent,
      "Direction: " ++ TradeIntent.directionText decision.tradeIntent] ++
    line "Reason: " (decision.reason.map Reason.code) ++
    line "Category: " (decision.category.map Category.code) ++
    line "Severity: " (decision.severity.map Severity.code) ++
    line "Message: " decision.message? ++
    ["Eval Time: " ++ millisText decision.evaluationTimeMs,
      "Time: " ++ decision.timestamp.legible,
      "ID: " ++ decision.evaluationId]

end Decision

end TradeGate
