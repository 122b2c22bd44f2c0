import TradeGate.Audit.DailyStats

/-!
# The audit store

Decisions and alerts, newest first, and a row of statistics for each day with activity. Queries look
back from an instant that the caller gives. Main definitions: `Store`, its queries, and
`Store.cleanup`.
-/

namespace TradeGate

/-- Decisions and alerts, newest first, and the days in ascending order. -/
structure Store where
  decisions : List Decision
  alerts : List AlertRecord
  days : List DailyStats

namespace Store

def empty : Store := ⟨[], [], []⟩

/-- Nanoseconds in an hour, a minute and a day. -/
def hours (n : UInt32) : Int := n.toNat * 3600 * nanosPerSecond

def minutes (n : UInt32) : Int := n.toNat * 60 * nanosPerSecond

def daySpan (n : UInt32) : Int := n.toNat * secondsPerDay * nanosPerSecond

/-! ## Recording -/

/-- Changes the row of a date, which is made if there is none. -/
def changeDay (date : Date) (change : DailyStats → DailyStats) : List DailyStats → List DailyStats
  | [] => [change (.empty date)]
  | row :: rest =>
    if row.date = date then change row :: rest
    else if date < row.date then change (.empty date) :: row :: rest
    else row :: changeDay date change rest

def logDecision (store : Store) (decision : Decision) : Store :=
  { store with decisions := decision :: store.decisions }

/-- Adds a decision to the row of its day. -/
def countDecision (store : Store) (decision : Decision) : Store :=
  { store with days := changeDay decision.timestamp.date (·.addDecision decision) store.days }

/-- Keeps an alert and adds it to the row of its day. -/
def logAlert (store : Store) (alert : AlertRecord) : Store :=
  { store with
    alerts := alert :: store.alerts
    days := changeDay alert.createdAt.date (·.addAlert alert) store.days }

/-! ## Queries -/

/-- The latest decision under an evaluation id. -/
def findDecision? (store : Store) (evaluationId : String) : Option Decision :=
  store.decisions.find? (·.evaluationId = evaluationId)

/-- The decisions on a request, newest first. -/
def decisionsOn (store : Store) (requestId : String) : List Decision :=
  store.decisions.filter (·.requestId? = some requestId)

/-- The blocks of the last hours, newest first, of one category or of all. -/
def recentBlocks (store : Store) (now : Instant) (within : UInt32) (limit : Nat)
    (category : Option Category) : List Decision :=
  let cutoff := now.subOrEarliest (hours within)
  (store.decisions.filter fun decision =>
    decision.isBlock && cutoff ≤ decision.timestamp &&
      (category.isNone || decision.category = category)).take limit

/-- How often each reason was given in the last hours; reasons in their order, those never given
left out. -/
def blockCounts (store : Store) (now : Instant) (within : UInt32) : List (Reason × Nat) :=
  let cutoff := now.subOrEarliest (hours within)
  let given := (store.decisions.filter fun decision => cutoff ≤ decision.timestamp).filterMap
    Decision.reason
  Reason.all.filterMap fun reason =>
    let n := given.countP (· = reason)
    if n = 0 then none else some (reason, n)

/-- The alerts of the last hours, newest first. -/
def recentAlerts (store : Store) (now : Instant) (within : UInt32) (limit : Nat) :
    List AlertRecord :=
  let cutoff := now.subOrEarliest (hours within)
  (store.alerts.filter fun alert => cutoff ≤ alert.createdAt).take limit

/-- How many alerts were delivered in the last minutes. -/
def countAlerts (store : Store) (now : Instant) (within : UInt32) : Nat :=
  let cutoff := now.subOrEarliest (minutes within)
  store.alerts.countP fun alert => alert.sent && cutoff ≤ alert.createdAt

/-- The row of a date. -/
def day? (store : Store) (date : Date) : Option DailyStats :=
  store.days.find? (·.date = date)

/-- The row of a date, which is made if there is none. -/
def dayOrNew (store : Store) (date : Date) : DailyStats × Store :=
  let store := { store with days := changeDay date id store.days }
  ((store.day? date).getD (.empty date), store)

/-- The rows of the last days, today among them, in ascending order. -/
def recentDays (store : Store) (now : Instant) (count : UInt32) : List DailyStats :=
  let today := now.date
  let first := today.addDays (-((count.toNat - 1 : Nat) : Int))
  store.days.filter fun row => first ≤ row.date && row.date ≤ today

/-! ## Cleanup -/

/-- How much the store holds. -/
def size (store : Store) : Nat :=
  store.decisions.length + store.alerts.length + store.days.length

/-- Drops what is older than a number of days, and returns how much that was. -/
def cleanup (store : Store) (now : Instant) (retentionDays : UInt32) : Nat × Store :=
  let cutoff := now.subOrEarliest (daySpan retentionDays)
  let kept : Store :=
    { decisions := store.decisions.filter fun decision => cutoff ≤ decision.timestamp
      alerts := store.alerts.filter fun alert => cutoff ≤ alert.createdAt
      days := store.days.filter fun row => cutoff.date ≤ row.date }
  (store.size - kept.size, kept)

end Store

end TradeGate
