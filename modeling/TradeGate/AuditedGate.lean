import TradeGate.Audit.Journal
import TradeGate.Metrics.Basic

/-!
# The audited gate

The gate with what stands around it: a repository that keeps its decisions, a notifier that tells of
its blocks, and metrics. None of them has a say in a decision; what fails in them is counted. A fault
in telling of a block is not counted: it takes the answer away and ends the run (`untilFault`). Main
definitions: `AuditedGate`, `AuditedGate.evaluate`.
-/

namespace TradeGate

/-- A gate with its state, and what stands around it. -/
structure AuditedGate (σ : Type) where
  gate : Gate σ
  state : σ
  repository : Option Repository
  notifier : Option Notifier
  metrics : Metrics

namespace AuditedGate

variable {σ : Type}

/-- Counts a failure to record, if there was one. -/
def countFailure (metrics : Metrics) (operation : String) :
    Except DiskError Unit → Metrics
  | .ok () => metrics
  | .error _ => metrics.persistenceFailure operation

/-- Keeps a decision and adds it to the statistics of its day. -/
def persist (audited : AuditedGate σ) (decision : Decision) (now : Instant) : AuditedGate σ :=
  match audited.repository with
  | none => audited
  | some repository =>
    let (answer, repository) := repository.logDecision decision now
    { audited with
      repository := some (repository.countDecision decision)
      metrics := countFailure audited.metrics "log_decision" answer }

/-- Keeps the record of an outcome. -/
def keepAlert (audited : AuditedGate σ) (outcome : AlertOutcome) (id : RecordId) (now : Instant) :
    AuditedGate σ :=
  match audited.repository, AlertRecord.ofOutcome? id outcome now with
  | some repository, some record =>
    let (answer, repository) := repository.logAlert record now
    { audited with
      repository := some repository
      metrics := countFailure audited.metrics "log_alert" answer }
  | _, _ => audited

section Frame

variable (audited : AuditedGate σ) (decision : Decision) (outcome : AlertOutcome) (id : RecordId)
  (now : Instant)

@[simp] theorem gate_persist : (audited.persist decision now).gate = audited.gate := by
  unfold persist
  split <;> rfl

@[simp] theorem notifier_persist : (audited.persist decision now).notifier = audited.notifier := by
  unfold persist
  split <;> rfl

@[simp] theorem gate_keepAlert : (audited.keepAlert outcome id now).gate = audited.gate := by
  unfold keepAlert
  split <;> rfl

@[simp] theorem notifier_keepAlert :
    (audited.keepAlert outcome id now).notifier = audited.notifier := by
  unfold keepAlert
  split <;> rfl

end Frame

/-- Tells of a block and keeps the alert; returns what became of it. Behind a fault nothing is
kept. -/
def alert (audited : AuditedGate σ) (decision : Decision) (id : RecordId) (now : Instant) :
    Except SpanFault (Option AlertOutcome) × AuditedGate σ :=
  match audited.notifier with
  | none => (.ok none, audited)
  | some notifier =>
    let (answer, notifier) := notifier.notify decision now
    let audited := { audited with notifier := some notifier }
    match answer with
    | .error fault => (.error fault, audited)
    | .ok outcome =>
      let audited := { audited with metrics := audited.metrics.alert outcome.label }
      (.ok (some outcome), audited.keepAlert outcome id now)

/-- A decision, and what became of the alert about it if one was tried. -/
structure Answer where
  decision : Decision
  outcome : Option AlertOutcome

/-- Evaluates with the gate alone and counts the evaluation. -/
def decide (audited : AuditedGate σ) (size : σ → Nat) (snapshot : Snapshot) (now : Instant)
    (watch : Stopwatch) : Decision × AuditedGate σ :=
  let (evaluation, state) := audited.gate.evaluate snapshot now watch audited.state
  (evaluation.decision,
    { audited with state, metrics := audited.metrics.observe evaluation (size state) })

/-- Evaluates a snapshot at `now`, keeps the decision and tells of a block. The clock is read again
behind the decision, and reads `later` then. `size` is the number of ids in the replay window of the
state, and `id` is the id of the record of an alert. Where telling of the block faults there is no
answer, although the decision has been kept by then. -/
def evaluateAt (audited : AuditedGate σ) (size : σ → Nat) (snapshot : Snapshot)
    (now later : Instant) (watch : Stopwatch) (id : RecordId) :
    Except SpanFault Answer × AuditedGate σ :=
  let (decision, audited) := audited.decide size snapshot now watch
  let audited := audited.persist decision later
  if decision.isBlock then
    let (answer, audited) := audited.alert decision id later
    (answer.map fun outcome => ⟨decision, outcome⟩, audited)
  else (.ok ⟨decision, none⟩, audited)

/-- Evaluates a snapshot while the clock stands still. -/
def evaluate (audited : AuditedGate σ) (size : σ → Nat) (snapshot : Snapshot) (now : Instant)
    (watch : Stopwatch) (id : RecordId) : Except SpanFault Answer × AuditedGate σ :=
  audited.evaluateAt size snapshot now now watch id

end AuditedGate

end TradeGate
