import Std.Time.DateTime.Timestamp
import TradeGate.Service.Basic
import TradeGate.Service.Invocation

/-!
# The command line

Reads settings and snapshots, runs the service, prints decisions, and writes what the journal has
added to the files on disk. The times that validators take are not measured; they read as zero.
-/

namespace TradeGate.CommandLine

/-- The instant that the system clock shows. -/
def now : IO Instant := do
  let stamp ← Std.Time.Timestamp.now
  return (Instant.epoch.add? stamp.toNanosecondsSinceUnixEpoch.val).getD .epoch

/-- What one evaluation is supplied with. -/
def moment : IO Service.Moment := do
  let bytes ← IO.getRandomBytes 16
  let bits := bytes.toList.foldl (fun n byte => n * 256 + byte.toNat) 0
  let now ← now
  return ⟨now, now, .still, .ofRandom bits⟩

/-- The files of the journal of a service. -/
def files (service : Service) : Directory :=
  match service.audited.repository with
  | some (.journal journal) => journal.directory
  | _ => .empty

/-- Writes what the files have gained since an earlier state of the service. -/
def writeFiles (earlier service : Service) : IO Unit := do
  let folder := service.settings.persistence.directory
  for (name, added) in (files service).growth (files earlier) do
    try
      IO.FS.createDirAll folder
      IO.FS.withFile (folder ++ "/" ++ name) .append fun file => file.putStr added
    catch error => IO.eprintln ("Persistence error: " ++ error.toString)

/-- What so many evaluations are supplied with. -/
def moments (count : Nat) : IO (Nat → Service.Moment) := do
  let read ← (List.range count).mapM fun _ => moment
  return fun k => read.getD k ⟨.epoch, .epoch, .still, .ofNat 0⟩

/-- Writes what an evaluation has added to the files, and prints its answer. -/
def report {α : Type} (print : α → IO Unit) (earlier : Service) :
    Except SpanFault α × Service → IO Service
  | (answer, service) => do
    writeFiles earlier service
    match answer with
    | .ok a => print a
    | .error .overflow => throw (IO.userError "an alert could not be timed")
    return service

def printDecisions (decisions : List Decision) : IO Unit :=
  decisions.forM fun decision => IO.println decision.toJson.compact

/-- Evaluates the lines of the standard input as they come, each as a stream of its own: a stream is
answered like its lines one after the other (`Service.evaluateStream_append`). -/
partial def evaluateStream (service : Service) (input : IO.FS.Stream) : IO Service := do
  let line ← input.getLine
  if line.isEmpty then return service
  let moment ← moment
  let service ← report (fun written => IO.print written.text) service
    (service.evaluateStream line fun _ => moment)
  (← IO.getStdout).flush
  evaluateStream service input

/-- Carries out a command. -/
def carryOut (service : Service) : Command → IO Service
  | .evaluate "-" => do evaluateStream service (← IO.getStdin)
  | .evaluate path => do
    let content ← IO.FS.readFile path
    let moments ← moments (Service.snapshotsOfText content.toList).length
    report printDecisions service (service.evaluateText content moments)
  | .info => do
    IO.println service.info.pretty
    return service
  | .demo => do
    let samples := (Service.demoSnapshots? (← now)).getD []
    let moments ← moments samples.length
    report printDecisions service (service.evaluateAll (Service.timed moments samples))

/-- Reads the settings and sets up the service. -/
def setUp (invocation : Invocation) : IO Service := do
  let path := Settings.path invocation.settings (← IO.getEnv "GUARD_CONFIG")
  let document ← try IO.FS.readFile path
    catch error =>
      throw (IO.userError ("Configuration error: Failed to read config " ++ path ++ ": " ++
        error.toString))
  let started : Except ServiceError Service := do
    let some settings := Settings.ofToml? document | .error .unreadableSettings
    Service.start settings invocation.preset .empty
  match started with
  | .error error => throw (IO.userError error.message)
  | .ok service => return service

/-- Runs a command line from start to end. -/
def run (invocation : Invocation) : IO Unit := do
  let service ← setUp invocation
  let service ← carryOut service invocation.command
  let (answer, closed) := service.shutdown (← now)
  writeFiles service closed
  match answer with
  | .error error => throw (IO.userError error.message)
  | .ok () => return

end TradeGate.CommandLine

/-- The exit code is 2 for a command line that is not understood and 1 for any other error. -/
def main (words : List String) : IO UInt32 := do
  match TradeGate.Invocation.ofWords words with
  | .error error =>
    IO.eprintln ("error: " ++ error.message)
    return 2
  | .ok invocation =>
    try
      TradeGate.CommandLine.run invocation
      return 0
    catch error =>
      IO.eprintln ("Error: " ++ error.toString)
      return 1
