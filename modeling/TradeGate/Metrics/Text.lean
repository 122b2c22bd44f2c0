import TradeGate.Metrics.Basic
import TradeGate.Number.Shortest

/-!
# The text of metrics

Each family is a line of help, a line that names its kind, and its samples, one a line: the name,
labels in braces, and a binary64 number. Families come in the order of their names, samples in that
of their label values. A family without samples is left out.
-/

namespace TradeGate

/-- A number under a name with labels. -/
structure Sample where
  name : String
  labels : List (String × String)
  value : Binary64

namespace Sample

/-- A character of a label value. -/
def escape (c : Char) : List Char :=
  if c = '\\' then ['\\', '\\']
  else if c = '\n' then ['\\', 'n']
  else if c = '"' then ['\\', '"']
  else [c]

/-- A label with its value between quotes. -/
def labelText (label : String × String) : String :=
  label.1 ++ "=\"" ++ String.ofList (label.2.toList.flatMap escape) ++ "\""

/-- The name with the labels. -/
def heading (sample : Sample) : String :=
  if sample.labels.isEmpty then sample.name
  else sample.name ++ "\x7b" ++ ",".intercalate (sample.labels.map labelText) ++ "\x7d"

/-- The number as it is written. -/
def valueText (sample : Sample) : String := sample.value.text .plain

def line (sample : Sample) : String := sample.heading ++ " " ++ sample.valueText

end Sample

/-- Samples of one name and kind. -/
structure Family where
  name : String
  help : String
  kind : String
  samples : List Sample

namespace Family

/-- The lines of a family. -/
def lines (family : Family) : List String :=
  if family.samples.isEmpty then []
  else
    ["# HELP " ++ family.name ++ " " ++ family.help,
      "# TYPE " ++ family.name ++ " " ++ family.kind] ++ family.samples.map Sample.line

/-- The order of lists of label values: the first value that differs decides. -/
def valuesLe : List String → List String → Bool
  | [], _ => true
  | _ :: _, [] => false
  | a :: as, b :: bs => if a = b then valuesLe as bs else a < b

/-- A family of counts; `labels` names the values that they are counted by. -/
def counter (name help : String) (labels : List String) (tally : Tally) : Family where
  name
  help
  kind := "counter"
  samples :=
    (tally.mergeSort fun a b => valuesLe a.1 b.1).map fun (values, n) =>
      ⟨name, labels.zip values, .ofNat n⟩

/-- The samples of a histogram under some labels. -/
def histogramSamples (name : String) (labels : List (String × String)) (histogram : Histogram) :
    List Sample :=
  let bucket (bound : String) (n : Nat) : Sample :=
    ⟨name ++ "_bucket", labels ++ [("le", bound)], .ofNat n⟩
  histogram.cumulative.map (fun (bound, n) => bucket (bound.text .plain) n) ++
    [bucket "+Inf" histogram.count,
      ⟨name ++ "_sum", labels, histogram.sum⟩,
      ⟨name ++ "_count", labels, .ofNat histogram.count⟩]

end Family

namespace Metrics

/-- The families in the order of their names. -/
def families (metrics : Metrics) : List Family :=
  [.counter "guard_alerts_total" "Alert dispatch outcomes" ["outcome"] metrics.alerts,
    .counter "guard_blocks_total" "Total blocked trade intents" ["category", "reason", "severity"]
      metrics.blocks,
    ⟨"guard_duplicate_cache_entries", "Request ids inside the duplicate window", "gauge",
      [⟨"guard_duplicate_cache_entries", [], .ofNat metrics.replayWindowSize⟩]⟩,
    ⟨"guard_evaluation_ms", "Trade guard evaluation time in milliseconds", "histogram",
      if metrics.evaluationMs.count = 0 then []
      else Family.histogramSamples "guard_evaluation_ms" [] metrics.evaluationMs⟩,
    .counter "guard_evaluations_total" "Total trade guard evaluations" ["decision"]
      metrics.evaluations,
    .counter "guard_internal_errors_total" "Internal faults converted into BLOCK decisions"
      ["kind"] metrics.internalErrors,
    .counter "guard_persistence_failures_total" "Repository write failures" ["op"]
      metrics.persistenceFailures,
    ⟨"guard_validator_ms", "Validator execution time in milliseconds", "histogram",
      (metrics.validatorMs.mergeSort fun a b => a.1 ≤ b.1).flatMap fun (validator, histogram) =>
        Family.histogramSamples "guard_validator_ms" [("validator", validator)] histogram⟩]

/-- All lines. -/
def lines (metrics : Metrics) : List String := metrics.families.flatMap Family.lines

/-- The text of all lines. -/
def text (metrics : Metrics) : String := String.join (metrics.lines.map (· ++ "\n"))

end Metrics

end TradeGate
