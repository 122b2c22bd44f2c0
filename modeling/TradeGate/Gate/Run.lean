import TradeGate.Decision.Basic
import TradeGate.Gate.Validator

/-!
# Runs

A run takes the validators in order until one of them does not pass, and looks at the total time
before each. It yields the findings that passed and how it ended. The times are readings that the
caller supplies, so a run is a function of its arguments. Main definitions: `Stopwatch`, `Run`,
`runFrom`.
-/

namespace TradeGate

/-- Readings of elapsed milliseconds: the total before the `k`-th validator, what the `k`-th
validator took, and the total at the end. -/
structure Stopwatch where
  before : Nat → Binary64
  taken : Nat → Binary64
  total : Binary64

namespace Stopwatch

/-- No time passes. -/
def still : Stopwatch where
  before _ := .ofNat 0
  taken _ := .ofNat 0
  total := .ofNat 0

/-- The `k`-th validator takes the `k`-th of a list of times, or none, and nothing else takes
any. -/
def ofDurations (durations : List Binary64) : Stopwatch where
  before k := (durations.take k).foldl (· + ·) (.ofNat 0)
  taken k := durations.getD k (.ofNat 0)
  total := durations.foldl (· + ·) (.ofNat 0)

end Stopwatch

/-- How a run ended. -/
inductive Ending where
  /-- All validators passed. -/
  | passed
  /-- A validator did not pass. -/
  | failed (finding : Finding)
  /-- The run was stopped before a validator. -/
  | stopped (finding : Finding)
  /-- A validator broke down. -/
  | broken (message : Option String)

/-- The findings that passed, in order, and the end. -/
structure Run where
  findings : List Finding
  ending : Ending

/-- Puts a finding before those of a run. -/
def Run.cons (finding : Finding) (run : Run) : Run :=
  { run with findings := finding :: run.findings }

/-- The name on the finding that sections are missing. -/
def inputCheckName : String := "TradeGuard.InputCheck"

/-- The name on the finding that the total time is up. -/
def totalTimeName : String := "TradeGuard"

/-- The total time was up before the next validator. -/
def outOfTime (timing : TimingPolicy) (elapsed : Binary64) (completed : Nat) (next : String) :
    Finding :=
  ((Violation.of .timeout .high
      ("Evaluation exceeded " ++ toString timing.maxEvaluationTimeMs.toNat ++ "ms budget"))
    |>.detail "elapsed_ms" (.ofBinary64 elapsed)
    |>.detail "max_evaluation_time_ms" (Codec.uint64.encode timing.maxEvaluationTimeMs)
    |>.detail "validators_completed" (.int completed)
    |>.detail "next_validator" (.str next)).toFinding totalTimeName (.ofNat 0)

/-- Sections are missing. -/
def inputIncomplete (missing : List String) : Finding :=
  ((Violation.of .guardInternalError .critical
      ("Missing required input: " ++ ", ".intercalate missing))
    |>.detail "error_type" (.str "missing_input")
    |>.detail "missing_sections" (.ofStrings missing)).toFinding inputCheckName (.ofNat 0)

/-- The time is above the total that an evaluation may take. -/
def TimingPolicy.isOver (timing : TimingPolicy) (elapsed : Binary64) : Bool :=
  Binary64.lt (.ofNat timing.maxEvaluationTimeMs.toNat) elapsed

/-- Runs the validators from the `k`-th one on. -/
def runFrom {σ : Type} (timing : TimingPolicy) (watch : Stopwatch) (s : Sections) (now : Instant) :
    (k : Nat) → List (Validator σ) → σ → Run × σ
  | _, [], state => (⟨[], .passed⟩, state)
  | k, validator :: rest, state =>
    if timing.isOver (watch.before k) then
      (⟨[], .stopped (outOfTime timing (watch.before k) k validator.info.name)⟩, state)
    else
      let (outcome, state) := validator.run s now state
      match Validator.report validator.info timing (watch.taken k) outcome with
      | .error message => (⟨[], .broken message⟩, state)
      | .ok finding =>
        if finding.isValid then
          let (run, state) := runFrom timing watch s now (k + 1) rest state
          (run.cons finding, state)
        else (⟨[], .failed finding⟩, state)

namespace Run

/-- The findings of the validators that came to one, in order. -/
def measured (run : Run) : List Finding :=
  match run.ending with
  | .failed finding => run.findings ++ [finding]
  | _ => run.findings

/-- The text that a breakdown is reported under. -/
def breakdownText (message : Option String) : String :=
  message.getD "unknown panic payload"

/-- The decision that a run comes to. -/
def decision (run : Run) (evaluationId : String) (intent : Option TradeIntent) (total : Binary64)
    (now : Instant) : Decision :=
  let blockedBy (finding : Finding) : Decision :=
    .block evaluationId intent finding (run.findings ++ [finding]) total now
  match run.ending with
  | .passed => .execute evaluationId intent run.findings total now
  | .failed finding => blockedBy finding
  | .stopped finding => blockedBy finding
  | .broken message => .internalError evaluationId intent "panic" (breakdownText message) total now

end Run

end TradeGate
