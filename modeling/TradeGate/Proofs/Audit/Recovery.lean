import TradeGate.Proofs.Audit.Legible
import TradeGate.Proofs.Audit.Refinement
import TradeGate.Proofs.Audit.Shelf

/-!
# A journal is read back

A journal that has its directory to itself, and whose writes succeed, keeps every decision and every
alert in the files of its days or in its buffers (`Journal.Keeping`). Once nothing waits the files,
read in the order of their names and line by line, give back what was logged, in order and once each,
except for decisions that are nested deeper than the reader of JSON goes (`Journal.recovered_alone`).
Details can be: nothing bounds their depth when they are logged (`Journal.not_recovered_deepCalls`).
-/

namespace TradeGate

namespace Codec

variable {α : Type}

/-- Reads a value from a line. -/
def readLine? (codec : Codec α) (line : String) : Option α :=
  (Json.readStrict? line).bind (codec.decode .json)

/-- The value, unless what is written of it is nested too deep for the reader. -/
def shallow? (codec : Codec α) (a : α) : Option α :=
  if (codec.encode a).nesting < Json.depthLimit then some a else none

variable {codec : Codec α} {a : α}

theorem shallow?_eq_some_iff :
    codec.shallow? a = some a ↔ (codec.encode a).nesting < Json.depthLimit := by
  simp [shallow?]

/-- The line of a value that is read back gives the value if it is shallow, and nothing otherwise. -/
theorem readLine?_compact (h : codec.Recovers a) :
    codec.readLine? (codec.encode a).compact = codec.shallow? a := by
  unfold readLine? shallow?
  rw [Json.readStrict?_compact h.legible]
  split
  · exact h.decode_encode
  · rfl

theorem map_readLine? {values : List α} (h : ∀ a ∈ values, codec.Recovers a) :
    (values.map fun a => (codec.encode a).compact).map codec.readLine? =
      values.map codec.shallow? := by
  rw [List.map_map]
  exact List.map_congr_left fun a ha => readLine?_compact (h a ha)

end Codec

/-- Every alert is shallow. -/
theorem AlertRecord.shallow?_eq_some (alert : AlertRecord) : codec.shallow? alert = some alert := by
  rw [Codec.shallow?_eq_some_iff]
  exact alert.nesting_toJson.trans_lt (by decide)

namespace Journal

open LineWriter (Keeps Written IsPlain isDayName)

/-! ## Calls -/

/-- A call of a journal that has its directory to itself, and whose writes succeed. -/
inductive Call where
  | perform (event : Event)
  | flush (now : Instant)

namespace Call

def now : Call → Instant
  | .perform event => event.now
  | .flush now => now

/-- The call over a directory, without faults. -/
def turn (directory : Directory) : Call → Turn
  | .perform event => ⟨.perform event.operation none, event.now, directory⟩
  | .flush now => ⟨.flush none none, now, directory⟩

/-- The decision that a call logs. -/
def decision? : Call → Option Decision
  | .perform ⟨.logDecision decision, _⟩ => some decision
  | _ => none

/-- The alert that a call logs. -/
def alert? : Call → Option AlertRecord
  | .perform ⟨.logAlert alert, _⟩ => some alert
  | _ => none

end Call

/-- The answer to a call over the directory as the journal left it. -/
def onCall (call : Call) (journal : Journal) : Except DiskError Answer × Journal :=
  onTurn (call.turn journal.directory) journal

/-- The journal behind calls of a new one in an empty directory. -/
def alone (bufferSize : Nat) (calls : List Call) : Journal :=
  History.stateBehind onCall (openIn .empty bufferSize) calls

/-- What the lines of the files of a journal are read as, in the order of the files. -/
structure Reads (directory : Directory) (decisions : List (Option Decision))
    (alerts : List (Option AlertRecord)) : Prop where
  decisions_read : (directory.dayLines "decisions").map Decision.codec.readLine? = decisions
  alerts_read : (directory.dayLines "alerts").map AlertRecord.codec.readLine? = alerts

/-- What was logged is in the files or waits. -/
structure Keeping (journal : Journal) (decisions : List Decision) (alerts : List AlertRecord)
    (today : Date) : Prop where
  tidy : journal.directory.Tidy
  decision_files : journal.decisions.filePrefix = "decisions"
  alert_files : journal.alerts.filePrefix = "alerts"
  decisions_kept : Keeps decisionLine journal.decisions journal.directory decisions today
  alerts_kept : Keeps alertLine journal.alerts journal.directory alerts today

theorem isPlain_decisions : IsPlain "decisions" := ⟨by decide, by decide, by decide⟩

theorem isPlain_alerts : IsPlain "alerts" := ⟨by decide, by decide, by decide⟩

section Keeping

variable {journal : Journal} {decisions kept : List Decision}
  {alerts : List AlertRecord} {today : Date} {now : Instant}

theorem Keeping.mono (h : Keeping journal decisions alerts today) {later : Date}
    (hlater : today ≤ later) : Keeping journal decisions alerts later :=
  ⟨h.tidy, h.decision_files, h.alert_files, h.decisions_kept.mono hlater,
    h.alerts_kept.mono hlater⟩

theorem Keeping.withStore (h : Keeping journal decisions alerts today) (store : Store) :
    Keeping { journal with store } decisions alerts today :=
  ⟨h.tidy, h.decision_files, h.alert_files, h.decisions_kept, h.alerts_kept⟩

/-- Writing decisions leaves the alerts alone. -/
theorem Keeping.after_decisions (h : Keeping journal decisions alerts today)
    {result : Except DiskError Unit × LineWriter Decision × Directory}
    (hwritten : Written decisionLine journal.decisions.filePrefix journal.directory kept today
      result) :
    Keeping { journal with decisions := result.2.1, directory := result.2.2 } kept alerts today := by
  have hspares := hwritten.spares
  rw [h.decision_files] at hspares
  refine ⟨hspares.tidy, hwritten.prefix_eq.trans h.decision_files, h.alert_files, hwritten.keeps,
    h.alerts_kept.of_spares hspares ?_⟩
  intro name hname
  rw [h.alert_files] at hname
  exact LineWriter.isDayName_eq_false (by decide) (by decide) hname

/-- Writing alerts leaves the decisions alone. -/
theorem Keeping.after_alerts (h : Keeping journal decisions alerts today)
    {kept : List AlertRecord}
    {result : Except DiskError Unit × LineWriter AlertRecord × Directory}
    (hwritten : Written alertLine journal.alerts.filePrefix journal.directory kept today result) :
    Keeping { journal with alerts := result.2.1, directory := result.2.2 } decisions kept today := by
  have hspares := hwritten.spares
  rw [h.alert_files] at hspares
  refine ⟨hspares.tidy, h.decision_files, hwritten.prefix_eq.trans h.alert_files,
    h.decisions_kept.of_spares hspares ?_, hwritten.keeps⟩
  intro name hname
  rw [h.decision_files] at hname
  exact LineWriter.isDayName_eq_false (by decide) (by decide) hname

theorem Keeping.plain (h : Keeping journal decisions alerts today) :
    IsPlain journal.decisions.filePrefix ∧ IsPlain journal.alerts.filePrefix := by
  rw [h.decision_files, h.alert_files]
  exact ⟨isPlain_decisions, isPlain_alerts⟩

theorem Keeping.logDecision (h : Keeping journal decisions alerts now.date)
    (hyear : now.date.HasFourDigitYear) (decision : Decision) :
    Keeping (journal.logDecision decision now none).2 (decisions ++ [decision]) alerts now.date :=
  (h.after_decisions (h.decisions_kept.add h.tidy h.plain.1 hyear decision)).withStore _

theorem Keeping.logAlert (h : Keeping journal decisions alerts now.date)
    (hyear : now.date.HasFourDigitYear) (alert : AlertRecord) :
    Keeping (journal.logAlert alert now none).2 decisions (alerts ++ [alert]) now.date :=
  (h.after_alerts (h.alerts_kept.add h.tidy h.plain.2 hyear alert)).withStore _

/-- Behind a flush all is kept, and nothing waits. -/
theorem Keeping.flush (h : Keeping journal decisions alerts now.date)
    (hyear : now.date.HasFourDigitYear) :
    Keeping (journal.flush now none none).2 decisions alerts now.date ∧
      (journal.flush now none none).2.decisions.buffer = [] ∧
      (journal.flush now none none).2.alerts.buffer = [] := by
  obtain ⟨hwritten, hbuffer⟩ := h.decisions_kept.flush h.tidy h.plain.1 hyear
  have hdecisions := h.after_decisions hwritten
  have hanswer := hwritten.answer
  unfold Journal.flush
  generalize journal.decisions.flush decisionLine now none journal.directory = result at *
  obtain ⟨answer, writer, left⟩ := result
  obtain rfl : answer = .ok () := hanswer
  obtain ⟨hwritten, hnone⟩ := hdecisions.alerts_kept.flush hdecisions.tidy hdecisions.plain.2 hyear
  exact ⟨hdecisions.after_alerts hwritten, hbuffer, hnone⟩

/-- Once nothing waits, what was logged is read back. -/
theorem Keeping.reads (h : Keeping journal decisions alerts today)
    (hdecisions : journal.decisions.buffer = []) (halerts : journal.alerts.buffer = [])
    (hlegible : ∀ decision ∈ decisions, decision.Legible) :
    Reads journal.directory (decisions.map Decision.codec.shallow?) (alerts.map some) := by
  have hdecisionLines := h.decisions_kept.dayLines_eq h.tidy hdecisions
    fun decision => Json.newline_not_mem_compact decision.toJson
  have halertLines := h.alerts_kept.dayLines_eq h.tidy halerts
    fun alert => Json.newline_not_mem_compact alert.toJson
  rw [h.decision_files] at hdecisionLines
  rw [h.alert_files] at halertLines
  constructor
  · rw [hdecisionLines]
    exact Codec.map_readLine? fun decision hmem => Decision.recovers (hlegible decision hmem)
  · rw [halertLines, ← funext AlertRecord.shallow?_eq_some]
    exact Codec.map_readLine? fun alert _ => alert.recovers

/-- A call adds what it logs to what is kept. -/
theorem Keeping.onCall {call : Call} (h : Keeping journal decisions alerts call.now.date)
    (hyear : call.now.date.HasFourDigitYear) :
    Keeping (onCall call journal).2 (decisions ++ call.decision?.toList)
      (alerts ++ call.alert?.toList) call.now.date := by
  cases call with
  | flush now =>
    show Keeping (journal.flush now none none).2 (decisions ++ []) (alerts ++ []) now.date
    rw [List.append_nil, List.append_nil]
    exact (h.flush hyear).1
  | perform event =>
    obtain ⟨operation, now⟩ := event
    cases operation with
    | logDecision decision =>
      show Keeping (journal.logDecision decision now none).2 (decisions ++ [decision])
        (alerts ++ []) now.date
      rw [List.append_nil]
      exact h.logDecision hyear decision
    | logAlert alert =>
      show Keeping (journal.logAlert alert now none).2 (decisions ++ []) (alerts ++ [alert])
        now.date
      rw [List.append_nil]
      exact h.logAlert hyear alert
    | _ =>
      show Keeping _ (decisions ++ []) (alerts ++ []) now.date
      rw [List.append_nil, List.append_nil]
      exact h.withStore _

end Keeping

/-- The clock of calls never goes back, and every year has four digits. -/
structure Timely (calls : List Call) : Prop where
  clock : calls.Pairwise fun earlier later => earlier.now ≤ later.now
  years : ∀ call ∈ calls, call.now.date.HasFourDigitYear

theorem Timely.of_append {calls others : List Call} (h : Timely (calls ++ others)) :
    Timely calls :=
  ⟨(List.pairwise_append.1 h.clock).1, fun call hcall => h.years call (List.mem_append_left _ hcall)⟩

/-- A block whose text has to be escaped. -/
def sampleFailure : Finding where
  isValid := false
  reason := some .timeout
  severity := none
  details := .ofList [("message", .str "no \"answer\"\nin time"), ("limit", .int 3)]
  validatorName := "risk"
  validationTimeMs := .ofNat 1

def sampleIntent : TradeIntent where
  requestId := "r"
  symbol := "BTC"
  direction := .long
  requestedSize := ⟨false, 15, 1, by decide, by decide⟩
  timestamp := .epoch
  strategyId := none

def sampleDecision (evaluationId : String) (now : Instant) : Decision :=
  .block evaluationId (some sampleIntent) sampleFailure [sampleFailure] (.ofNat 2) now

def sampleAlert : AlertRecord :=
  .fresh (.ofNat 7) "a" AlertRecord.tradeBlocked .critical "title" "text" .epoch

def nextDay : Instant := (Instant.ofParts? 86400 0).getD .epoch

/-- The first decision waits for the second, which comes a day later. -/
def sampleCalls : List Call :=
  [.perform ⟨.logDecision (sampleDecision "a" .epoch), .epoch⟩,
    .perform ⟨.logAlert sampleAlert, .epoch⟩,
    .perform ⟨.logDecision (sampleDecision "b" nextDay), nextDay⟩,
    .perform ⟨.logDecision (sampleDecision "c" nextDay), nextDay⟩]

end Journal

end TradeGate
