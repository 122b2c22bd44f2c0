import TradeGate.Audit.Journal
import TradeGate.Proofs.History

/-!
# The operations of a repository

One call of a repository is an `Operation` at an instant. `Store.perform` is what a store makes of
it, and `Journal.perform` what a journal does, which may fail where a batch of lines falls due.
-/

namespace TradeGate

/-- What a caller asks of a repository. -/
inductive Operation where
  | logDecision (decision : Decision)
  | countDecision (decision : Decision)
  | logAlert (alert : AlertRecord)
  | findDecision (evaluationId : String)
  | decisionsOn (requestId : String)
  | recentBlocks (within : UInt32) (limit : Nat) (category : Option Category)
  | blockCounts (within : UInt32)
  | recentAlerts (within : UInt32) (limit : Nat)
  | countAlerts (within : UInt32)
  | dayOrNew (date : Date) (known : Date.earliest ≤ date)
  | recentDays (count : UInt32)
  | cleanup (retentionDays : UInt32)

/-- What a repository answers. -/
inductive Answer where
  | done
  | decision (found : Option Decision)
  | decisions (found : List Decision)
  | counts (counts : List (Reason × Nat))
  | alerts (found : List AlertRecord)
  | number (n : Nat)
  | day (row : DailyStats)
  | days (rows : List DailyStats)

/-- An operation at an instant. -/
structure Event where
  operation : Operation
  now : Instant

namespace Store

/-- What a store answers to an operation, and the store behind it. -/
def perform (event : Event) (store : Store) : Answer × Store :=
  let now := event.now
  match event.operation with
  | .logDecision decision => (.done, store.logDecision decision)
  | .countDecision decision => (.done, store.countDecision decision)
  | .logAlert alert => (.done, store.logAlert alert)
  | .findDecision evaluationId => (.decision (store.findDecision? evaluationId), store)
  | .decisionsOn requestId => (.decisions (store.decisionsOn requestId), store)
  | .recentBlocks within limit category =>
    (.decisions (store.recentBlocks now within limit category), store)
  | .blockCounts within => (.counts (store.blockCounts now within), store)
  | .recentAlerts within limit => (.alerts (store.recentAlerts now within limit), store)
  | .countAlerts within => (.number (store.countAlerts now within), store)
  | .dayOrNew date _ =>
    let (row, store) := store.dayOrNew date
    (.day row, store)
  | .recentDays count => (.days (store.recentDays now count), store)
  | .cleanup retentionDays =>
    let (removed, store) := store.cleanup now retentionDays
    (.number removed, store)

/-- The store behind operations on an empty one. -/
def behind (events : List Event) : Store := History.stateBehind perform .empty events

theorem behind_append_singleton (events : List Event) (event : Event) :
    behind (events ++ [event]) = (perform event (behind events)).2 :=
  History.stateBehind_append_singleton perform _ _ _

end Store

namespace Journal

/-- What a journal answers to an operation, and the journal behind it. Only what is logged is also
written to files; all else is up to the store. -/
def perform (event : Event) (fault : Option Nat) (journal : Journal) :
    Except DiskError Answer × Journal :=
  match event.operation with
  | .logDecision decision =>
    let (answer, journal) := journal.logDecision decision event.now fault
    (answer.map fun () => .done, journal)
  | .logAlert alert =>
    let (answer, journal) := journal.logAlert alert event.now fault
    (answer.map fun () => .done, journal)
  | _ =>
    let (answer, store) := journal.store.perform event
    (.ok answer, { journal with store })

end Journal

end TradeGate
