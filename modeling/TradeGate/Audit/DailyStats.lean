import TradeGate.Audit.AlertRecord

/-!
# Daily statistics

One row for a day: how many evaluations, executions and blocks there were, the blocks by category
and severity, the mean and the greatest time, and the alerts. Main definitions: `DailyStats`,
`DailyStats.addDecision`, `DailyStats.addAlert`.
-/

namespace TradeGate

/-- Adds one to the number of a key. -/
def countUp {α : Type} [DecidableEq α] (key : α) (counts : List (α × Nat)) : List (α × Nat) :=
  counts.map fun (other, n) => if other = key then (other, n + 1) else (other, n)

/-- What happened on a day. -/
structure DailyStats where
  date : Date
  totalEvaluations : Nat
  executeCount : Nat
  blockCount : Nat
  /-- A number for every category, in their order. -/
  blocksByCategory : List (Category × Nat)
  /-- A number for every severity, ascending. -/
  blocksBySeverity : List (Severity × Nat)
  avgEvaluationTimeMs : Binary64
  maxEvaluationTimeMs : Binary64
  alertsSent : Nat
  alertsRateLimited : Nat
  deriving DecidableEq

namespace DailyStats

/-- A day on which nothing has happened. -/
def empty (date : Date) : DailyStats where
  date
  totalEvaluations := 0
  executeCount := 0
  blockCount := 0
  blocksByCategory := Category.all.map (·, 0)
  blocksBySeverity := Severity.all.map (·, 0)
  avgEvaluationTimeMs := .ofNat 0
  maxEvaluationTimeMs := .ofNat 0
  alertsSent := 0
  alertsRateLimited := 0

/-- Counts the verdict. -/
def countVerdict (stats : DailyStats) (decision : Decision) : DailyStats :=
  match decision.verdict with
  | .execute => { stats with executeCount := stats.executeCount + 1 }
  | .block =>
    { stats with
      blockCount := stats.blockCount + 1
      blocksByCategory := match decision.category with
        | some category => countUp category stats.blocksByCategory
        | none => stats.blocksByCategory
      blocksBySeverity := match decision.severity with
        | some severity => countUp severity stats.blocksBySeverity
        | none => stats.blocksBySeverity }

/-- Adds a decision: its verdict, and its time to the running mean. -/
def addDecision (stats : DailyStats) (decision : Decision) : DailyStats :=
  let total := stats.totalEvaluations + 1
  let time := decision.evaluationTimeMs
  let mean := stats.avgEvaluationTimeMs
  { stats.countVerdict decision with
    totalEvaluations := total
    avgEvaluationTimeMs := mean + (time - mean) / .ofNat total
    maxEvaluationTimeMs :=
      if Binary64.lt stats.maxEvaluationTimeMs time then time else stats.maxEvaluationTimeMs }

/-- Adds an alert. -/
def addAlert (stats : DailyStats) (alert : AlertRecord) : DailyStats :=
  { stats with
    alertsSent := stats.alertsSent + (if alert.sent then 1 else 0)
    alertsRateLimited := stats.alertsRateLimited + (if alert.rateLimited then 1 else 0) }

/-- The blocks as a percentage of the evaluations; zero without any. -/
def blockRate (stats : DailyStats) : Binary64 :=
  if stats.totalEvaluations = 0 then .ofNat 0
  else .ofNat stats.blockCount / .ofNat stats.totalEvaluations * .ofNat 100

def toJson (stats : DailyStats) : Json :=
  .obj [("date", .str stats.date.text), ("total_evaluations", .int stats.totalEvaluations),
    ("execute_count", .int stats.executeCount), ("block_count", .int stats.blockCount),
    ("blocks_by_category", .obj (stats.blocksByCategory.map fun (c, n) => (c.code, .int n))),
    ("blocks_by_severity", .obj (stats.blocksBySeverity.map fun (s, n) => (s.code, .int n))),
    ("avg_evaluation_time_ms", .ofBinary64 stats.avgEvaluationTimeMs),
    ("max_evaluation_time_ms", .ofBinary64 stats.maxEvaluationTimeMs),
    ("alerts_sent", .int stats.alertsSent),
    ("alerts_rate_limited", .int stats.alertsRateLimited)]

end DailyStats

end TradeGate
