import TradeGate.AuditedGate
import TradeGate.Series
import TradeGate.Service.Settings
import TradeGate.Snapshot.Sample
import TradeGate.Text.Lines

/-!
# The service

An audited gate set up from settings. It evaluates documents: one snapshot, or one snapshot a line.
A line that holds no snapshot is evaluated as an empty one, which blocks. A whole text is answered
with decisions (`Service.evaluateText`), and a stream of lines with lines, each written when its
line has been read (`Service.evaluateStream`).
-/

namespace TradeGate

/-- Why there is no service, or why it did not finish. -/
inductive ServiceError where
  | unreadableSettings
  | policy (cause : PolicyError)
  | gate (cause : GateError)
  | disk (cause : DiskError)
  deriving DecidableEq, Repr

/-- The text of an error; that of unreadable settings and of the disk is not fixed. -/
def ServiceError.message : ServiceError → String
  | unreadableSettings => "Configuration error: Failed to parse config"
  | policy cause => "Guard configuration error: " ++ cause.message
  | gate cause => "Engine error: " ++ cause.message
  | disk _ => "Persistence error: IO error"

/-- A gate with what stands around it, and the settings that it was set up from. -/
structure Service where
  settings : Settings
  audited : AuditedGate ReplayWindow

namespace Service

/-- The version that is told to operators. -/
def version : String := "0.1.0"

/-- The repository that settings ask for. -/
def repository (settings : PersistenceSettings) (directory : Directory) : Repository :=
  if settings.enabled then .journal (.openIn directory settings.bufferSize.toNat)
  else .store .empty

/-- The sender that settings ask for. A log takes everything. -/
def sender (settings : SenderSettings) : Option Sender :=
  if settings.logSender then some .delivering else none

/-- Sets up a service. A preset that is given goes before that of the settings. -/
def start (settings : Settings) (preset : Option Preset) (directory : Directory) :
    Except ServiceError Service := do
  let settings := { settings with preset := preset.getD settings.preset }
  let policy ← settings.policy.mapError .policy
  let gate ← (Gate.ofPolicy policy).mapError .gate
  .ok
    { settings
      audited :=
        { gate
          state := Gate.window policy
          repository := some (repository settings.persistence directory)
          notifier := some (.ofPolicy policy.alerting (sender settings.alerts))
          metrics := .zero } }

/-- What the surroundings supply to one evaluation: two readings of the clock, before the decision
and behind it, the readings of elapsed time, and an id for the record of an alert. -/
structure Moment where
  now : Instant
  later : Instant
  watch : Stopwatch
  id : RecordId

/-- Evaluates a snapshot. -/
def evaluate (service : Service) (snapshot : Snapshot) (moment : Moment) :
    Except SpanFault Decision × Service :=
  let (answer, audited) :=
    service.audited.evaluateAt ReplayWindow.size snapshot moment.now moment.later moment.watch
      moment.id
  (answer.map AuditedGate.Answer.decision, { service with audited })

/-- Evaluates snapshots in order, each at its moment. A fault ends the evaluation. -/
def evaluateAll : List (Snapshot × Moment) → Service → Except SpanFault (List Decision) × Service :=
  untilFault fun (snapshot, moment) service => service.evaluate snapshot moment

theorem evaluateAll_cons (snapshot : Snapshot) (moment : Moment) (rest : List (Snapshot × Moment))
    (service : Service) : evaluateAll ((snapshot, moment) :: rest) service =
      match service.evaluate snapshot moment with
      | (.error fault, next) => (.error fault, next)
      | (.ok decision, next) =>
        ((evaluateAll rest next).1.map (decision :: ·), (evaluateAll rest next).2) := by
  unfold evaluateAll
  rw [untilFault]
  dsimp only
  generalize service.evaluate snapshot moment = result
  obtain ⟨answer, next⟩ := result
  cases answer <;> rfl

/-! ## Documents -/

/-- The snapshot of a line. A line that holds none stands for an empty one. -/
def snapshotOfLine (line : List Char) : Snapshot := (Snapshot.readChars? line).getD .empty

/-- The snapshots of a text with one snapshot a line. Lines of blanks are passed over. -/
def snapshotsOfLines (text : List Char) : List Snapshot :=
  (Text.filledLines text).map snapshotOfLine

/-- The snapshots of a text that is one snapshot, or has one a line. -/
def snapshotsOfText (text : List Char) : List Snapshot :=
  match Snapshot.readChars? text with
  | some snapshot => [snapshot]
  | none => snapshotsOfLines text

/-- Gives each snapshot its moment. -/
def timed (moments : Nat → Moment) (snapshots : List Snapshot) : List (Snapshot × Moment) :=
  snapshots.mapIdx fun i snapshot => (snapshot, moments i)

/-- Evaluates a text that is one snapshot, or has one a line. -/
def evaluateText (service : Service) (text : String) (moments : Nat → Moment) :
    Except SpanFault (List Decision) × Service :=
  evaluateAll (timed moments (snapshotsOfText text.toList)) service

/-- What has been written in answer to a stream: the text, and how many decisions it holds. -/
structure Written where
  text : String
  count : Nat

/-- Nothing has been written. -/
def Written.nothing : Written := ⟨"", 0⟩

/-- Writes a decision on a line of its own. -/
def Written.add (written : Written) (decision : Decision) : Written :=
  ⟨written.text ++ decision.toJson.compact ++ "\n", written.count + 1⟩

/-- Evaluates the lines of a stream one after the other behind what has been written. Lines of
blanks are passed over. A fault ends the evaluation. -/
def answerLines (moments : Nat → Moment) (written : Written) (stream : List Char)
    (service : Service) : Except SpanFault Written × Service :=
  match _h : Text.nextLine? stream with
  | none => (.ok written, service)
  | some (line, rest) =>
    if Text.isBlankText line then answerLines moments written rest service
    else
      match service.evaluate (snapshotOfLine line) (moments written.count) with
      | (.error fault, service) => (.error fault, service)
      | (.ok decision, service) => answerLines moments (written.add decision) rest service
termination_by stream.length
decreasing_by all_goals exact Text.length_lt_of_nextLine? _h

/-- Evaluates a stream with one snapshot a line. -/
def evaluateStream (service : Service) (stream : String) (moments : Nat → Moment) :
    Except SpanFault Written × Service :=
  answerLines moments .nothing stream.toList service

/-! ## Operation -/

/-- Validators, health and the policy in force. -/
def info (service : Service) : Json :=
  let gate := service.audited.gate
  .obj [("version", .str version), ("preset", Preset.codec.encode service.settings.preset),
    ("validators", .arr (gate.validatorInfos.map ValidatorInfo.toJson)),
    ("health", (gate.health service.audited.state).toJson),
    ("config", gate.policy.toJson)]

/-- The samples of a demonstration: a healthy one twice, so that the second is a replay, and a
halted one. -/
def demoSnapshots? (now : Instant) : Option (List Snapshot) := do
  let requestId := "demo-" ++ toString now.millis
  let healthy ← Snapshot.healthy? now requestId
  let halted ← Snapshot.halted? now (requestId ++ "-halt")
  some [healthy, healthy, halted]

/-- Drops old records from the view of queries and writes what waits to be written. -/
def shutdown (service : Service) (now : Instant) : Except ServiceError Unit × Service :=
  match service.audited.repository with
  | none => (.ok (), service)
  | some repository =>
    let retention := service.settings.persistence.retentionDays
    let cleaned := repository.changeView fun store => (store.cleanup now retention).2
    let (answer, repository) := cleaned.flush now
    (answer.mapError .disk,
      { service with audited := { service.audited with repository := some repository } })

end Service

end TradeGate
