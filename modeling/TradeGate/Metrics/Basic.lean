import TradeGate.Alert.Notifier
import TradeGate.Gate.Basic

/-!
# Metrics

What the gate has done so far, counted: evaluations by verdict, blocks by reason, category and
severity, faults, alerts and failures to record by kind, and the times of evaluations and of each
validator. Main definitions: `Tally`, `Histogram`, `Metrics`, `Metrics.observe`.
-/

namespace TradeGate

-- Powers are those of the core library.
attribute [local instance (high)] instPowNat

/-- Counts by the values of some labels. -/
abbrev Tally := List (List String × Nat)

namespace Tally

/-- One more under these values. -/
def add (labels : List String) : Tally → Tally
  | [] => [(labels, 1)]
  | (other, n) :: rest =>
    if other = labels then (other, n + 1) :: rest else (other, n) :: add labels rest

end Tally

/-- Observed values sorted into buckets: for each bound how many values it was the first to hold,
how many values there were, and their sum. -/
structure Histogram where
  buckets : List (Binary64 × Nat)
  count : Nat
  sum : Binary64

namespace Histogram

/-- No values, and buckets with these upper bounds. -/
def ofBounds (bounds : List Binary64) : Histogram where
  buckets := bounds.map fun bound => (bound, 0)
  count := 0
  sum := .ofNat 0

/-- One more in the first bucket that holds the value. -/
def fill (value : Binary64) : List (Binary64 × Nat) → List (Binary64 × Nat)
  | [] => []
  | (bound, n) :: rest =>
    if Binary64.le value bound then (bound, n + 1) :: rest else (bound, n) :: fill value rest

def observe (histogram : Histogram) (value : Binary64) : Histogram where
  buckets := fill value histogram.buckets
  count := histogram.count + 1
  sum := histogram.sum + value

/-- The buckets with their numbers added up, from a number on. -/
def addUp (total : Nat) : List (Binary64 × Nat) → List (Binary64 × Nat)
  | [] => []
  | (bound, n) :: rest => (bound, total + n) :: addUp (total + n) rest

/-- For each bound how many values were at most that. -/
def cumulative (histogram : Histogram) : List (Binary64 × Nat) := addUp 0 histogram.buckets

end Histogram

/-- Everything that is counted. -/
structure Metrics where
  evaluations : Tally
  blocks : Tally
  internalErrors : Tally
  alerts : Tally
  persistenceFailures : Tally
  replayWindowSize : Nat
  evaluationMs : Histogram
  validatorMs : List (String × Histogram)

namespace Metrics

/-- The bounds for the time of an evaluation, in milliseconds. -/
def evaluationBounds : List Binary64 :=
  [.ofPlaces 5 2, .ofPlaces 1 1, .ofPlaces 25 2, .ofPlaces 5 1, .ofNat 1, .ofNat 2, .ofNat 5,
    .ofNat 10, .ofNat 25, .ofNat 50, .ofNat 100]

/-- The bounds for the time of a validator, in milliseconds. -/
def validatorBounds : List Binary64 :=
  [.ofPlaces 1 2, .ofPlaces 5 2, .ofPlaces 1 1, .ofPlaces 5 1, .ofNat 1, .ofNat 5, .ofNat 10,
    .ofNat 20, .ofNat 50]

/-- Nothing has happened. -/
def zero : Metrics where
  evaluations := []
  blocks := []
  internalErrors := []
  alerts := []
  persistenceFailures := []
  replayWindowSize := 0
  evaluationMs := .ofBounds evaluationBounds
  validatorMs := []

/-- An evaluation came to a verdict. -/
def evaluation (metrics : Metrics) (verdict : Verdict) (timeMs : Binary64) : Metrics :=
  { metrics with
    evaluations := metrics.evaluations.add [verdict.code]
    evaluationMs := metrics.evaluationMs.observe timeMs }

/-- A trade was blocked. -/
def block (metrics : Metrics) (reason : Reason) (category : Category) (severity : Severity) :
    Metrics :=
  { metrics with blocks := metrics.blocks.add [category.code, reason.code, severity.code] }

/-- A fault became a block. -/
def internalError (metrics : Metrics) (kind : String) : Metrics :=
  { metrics with internalErrors := metrics.internalErrors.add [kind] }

/-- An alert came to an outcome. -/
def alert (metrics : Metrics) (outcome : String) : Metrics :=
  { metrics with alerts := metrics.alerts.add [outcome] }

/-- Something could not be recorded. -/
def persistenceFailure (metrics : Metrics) (operation : String) : Metrics :=
  { metrics with persistenceFailures := metrics.persistenceFailures.add [operation] }

/-- How many ids the replay window holds; the number is kept within 63 bits. -/
def cacheEntries (metrics : Metrics) (entries : Nat) : Metrics :=
  { metrics with replayWindowSize := min entries (2 ^ (63 : Nat) - 1) }

/-- Observes a time under a validator's name. -/
def observeNamed (name : String) (timeMs : Binary64) :
    List (String × Histogram) → List (String × Histogram)
  | [] => [(name, (Histogram.ofBounds validatorBounds).observe timeMs)]
  | (other, histogram) :: rest =>
    if other = name then (other, histogram.observe timeMs) :: rest
    else (other, histogram) :: observeNamed name timeMs rest

/-- A validator took a time. -/
def validatorTime (metrics : Metrics) (name : String) (timeMs : Binary64) : Metrics :=
  { metrics with validatorMs := observeNamed name timeMs metrics.validatorMs }

/-- The kind of fault that a block stands for. -/
def faultKind? (decision : Decision) : Option String :=
  match decision.reason with
  | some .timeout => some "timeout"
  | some .guardInternalError => some ((decision.details.text? "error_type").getD "unknown")
  | _ => none

/-- A block with reason, category and severity, and the fault that it may stand for. -/
def countBlock (metrics : Metrics) (decision : Decision) : Metrics :=
  match decision.verdict, decision.reason, decision.category, decision.severity with
  | .block, some reason, some category, some severity =>
    let metrics := metrics.block reason category severity
    match faultKind? decision with
    | some kind => metrics.internalError kind
    | none => metrics
  | _, _, _, _ => metrics

/-- Counts an evaluation, after which the replay window holds `entries` ids. -/
def observe (metrics : Metrics) (evaluation : Evaluation) (entries : Nat) : Metrics :=
  let metrics := evaluation.measured.foldl
    (fun metrics finding => metrics.validatorTime finding.validatorName finding.validationTimeMs)
    metrics
  let decision := evaluation.decision
  ((metrics.evaluation decision.verdict decision.evaluationTimeMs).cacheEntries
    entries).countBlock decision

end Metrics

end TradeGate
