import TradeGate.Audit.LineWriter
import TradeGate.Audit.Store
import TradeGate.Json.Printer

/-!
# The journal

A store whose decisions and alerts are also written to files, one decision or alert a line. Every
record reaches the store, even if it cannot be written. Queries are those of the store. Main
definitions: `Journal`, `Journal.logDecision`, `Journal.logAlert`, `Journal.flush`.
-/

namespace TradeGate

/-- A store, the two writers beside it, and the directory that they write in. -/
structure Journal where
  store : Store
  decisions : LineWriter Decision
  alerts : LineWriter AlertRecord
  directory : Directory

namespace Journal

/-- A decision as a line. -/
def decisionLine (decision : Decision) : String := decision.toJson.compact

/-- An alert as a line. -/
def alertLine (alert : AlertRecord) : String := alert.toJson.compact

/-- An empty journal in a directory, which is made if it is not there. -/
def openIn (directory : Directory) (bufferSize : Nat) : Journal where
  store := .empty
  decisions := .fresh "decisions" bufferSize
  alerts := .fresh "alerts" bufferSize
  directory := directory.make

/-- Keeps a decision and writes it when its turn comes. -/
def logDecision (journal : Journal) (decision : Decision) (now : Instant) (fault : Option Nat) :
    Except DiskError Unit × Journal :=
  let (answer, decisions, directory) :=
    journal.decisions.add decisionLine decision now fault journal.directory
  (answer, { journal with store := journal.store.logDecision decision, decisions, directory })

/-- Keeps an alert and writes it when its turn comes. -/
def logAlert (journal : Journal) (alert : AlertRecord) (now : Instant) (fault : Option Nat) :
    Except DiskError Unit × Journal :=
  let (answer, alerts, directory) :=
    journal.alerts.add alertLine alert now fault journal.directory
  (answer, { journal with store := journal.store.logAlert alert, alerts, directory })

/-- Writes the decisions that wait and, if that succeeded, the alerts that wait. -/
def flush (journal : Journal) (now : Instant) (decisionFault alertFault : Option Nat) :
    Except DiskError Unit × Journal :=
  match journal.decisions.flush decisionLine now decisionFault journal.directory with
  | (.error cause, decisions, directory) =>
    (.error cause, { journal with decisions, directory })
  | (.ok (), decisions, directory) =>
    let (answer, alerts, directory) := journal.alerts.flush alertLine now alertFault directory
    (answer, { journal with decisions, alerts, directory })

/-- Writes what waits and starts with an empty store in the same directory, which is made if it is
gone. What waits is lost in that case. -/
def reopen (journal : Journal) (now : Instant) : Journal :=
  let (decisions, directory) := journal.decisions.restart decisionLine now none journal.directory
  let (alerts, directory) := journal.alerts.restart alertLine now none directory
  { store := .empty, decisions, alerts, directory := directory.make }

end Journal

/-- Where decisions and alerts are kept. -/
inductive Repository where
  | store (store : Store)
  | journal (journal : Journal)

namespace Repository

/-- The store that queries look at. -/
def view : Repository → Store
  | store s => s
  | journal j => j.store

/-- Changes the store that queries look at. -/
def changeView (change : Store → Store) : Repository → Repository
  | store s => store (change s)
  | journal j => journal { j with store := change j.store }

def logDecision (repository : Repository) (decision : Decision) (now : Instant) :
    Except DiskError Unit × Repository :=
  match repository with
  | store s => (.ok (), store (s.logDecision decision))
  | journal j =>
    let (answer, j) := j.logDecision decision now none
    (answer, journal j)

def logAlert (repository : Repository) (alert : AlertRecord) (now : Instant) :
    Except DiskError Unit × Repository :=
  match repository with
  | store s => (.ok (), store (s.logAlert alert))
  | journal j =>
    let (answer, j) := j.logAlert alert now none
    (answer, journal j)

/-- Adds a decision to the row of its day. -/
def countDecision (repository : Repository) (decision : Decision) : Repository :=
  repository.changeView (·.countDecision decision)

/-- Writes what waits to be written. -/
def flush (repository : Repository) (now : Instant) : Except DiskError Unit × Repository :=
  match repository with
  | store s => (.ok (), store s)
  | journal j =>
    let (answer, j) := j.flush now none none
    (answer, journal j)

end Repository

end TradeGate
