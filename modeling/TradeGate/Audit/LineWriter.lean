import TradeGate.Audit.Directory
import TradeGate.Time.Instant

/-!
# Line writers

A line writer puts records into a file for each UTC day, one record a line. Records wait until there
are enough of them, or until somebody asks; then the whole batch is written at once. A batch that
cannot be written is dropped, and the file is cut back to what it was. Main definitions:
`LineWriter`, `LineWriter.add`, `LineWriter.flush`.
-/

namespace TradeGate

/-- A file that is held open: its number, its day, and its length after the last whole batch. -/
structure OpenFile where
  number : Nat
  date : Date
  length : Nat
  deriving DecidableEq

/-- Records that wait, and the file that is held open. -/
structure LineWriter (ρ : Type) where
  filePrefix : String
  /-- How many records wait before they are written. -/
  capacity : Nat
  buffer : List ρ
  active : Option OpenFile

namespace LineWriter

variable {ρ : Type}

/-- A writer without records; it holds at least one before it writes. -/
def fresh (filePrefix : String) (capacity : Nat) : LineWriter ρ where
  filePrefix
  capacity := max capacity 1
  buffer := []
  active := none

/-- The path of the file for a date, written as the caller writes dates. -/
def filePath (writer : LineWriter ρ) (date : String) : String :=
  writer.filePrefix ++ "_" ++ date ++ ".jsonl"

/-- The name of the file for a date. -/
def fileName (writer : LineWriter ρ) (date : String) : String :=
  Path.lastName (writer.filePath date)

/-- How many records wait. -/
def pending (writer : LineWriter ρ) : Nat := writer.buffer.length

/-- The lines of a batch. -/
def batch (render : ρ → String) (records : List ρ) : String :=
  String.join (records.map fun record => render record ++ "\n")

/-- The file of a day: the one that is open, or the one of that day's name. -/
def openFor (writer : LineWriter ρ) (today : Date) (directory : Directory) :
    Except DiskError OpenFile × Directory :=
  match writer.active with
  | some file => (.ok file, directory)
  | none =>
    let (answer, directory) := directory.openFile (writer.filePath today.text)
    (answer.map fun number => ⟨number, today, (directory.read number).length⟩, directory)

/-- Writes a text at the end of a file. With a fault only that many of its characters get there;
they are cut off again, and the write fails. -/
def append (file : OpenFile) (text : String) (fault : Option Nat) (directory : Directory) :
    Except DiskError OpenFile × Directory :=
  let before := directory.read file.number
  match fault with
  | none =>
    (.ok { file with length := file.length + text.length },
      directory.write file.number (before ++ text))
  | some written =>
    let partly := before ++ (text.take written).toString
    (.error .writeFailed,
      directory.write file.number (partly.take file.length).toString)

/-- Writes the waiting records into the file of the day. They no longer wait afterwards, whether the
write succeeded or not. -/
def flush (render : ρ → String) (writer : LineWriter ρ) (now : Instant) (fault : Option Nat)
    (directory : Directory) : Except DiskError Unit × LineWriter ρ × Directory :=
  if writer.buffer.isEmpty then (.ok (), writer, directory)
  else
    let today := now.date
    let writer := { writer with active := writer.active.filter (·.date = today) }
    let text := batch render writer.buffer
    let done (active : Option OpenFile) : LineWriter ρ := { writer with buffer := [], active }
    match writer.openFor today directory with
    | (.error cause, directory) => (.error cause, done none, directory)
    | (.ok file, directory) =>
      match append file text fault directory with
      | (.ok file, directory) => (.ok (), done (some file), directory)
      | (.error cause, directory) => (.error cause, done none, directory)

/-- Takes a record, and writes all that wait once there are enough of them. -/
def add (render : ρ → String) (writer : LineWriter ρ) (record : ρ) (now : Instant)
    (fault : Option Nat) (directory : Directory) :
    Except DiskError Unit × LineWriter ρ × Directory :=
  let writer := { writer with buffer := writer.buffer ++ [record] }
  if writer.capacity ≤ writer.buffer.length then writer.flush render now fault directory
  else (.ok (), writer, directory)

/-- Writes what waits, and closes the file if that succeeded. -/
def close (render : ρ → String) (writer : LineWriter ρ) (now : Instant) (fault : Option Nat)
    (directory : Directory) : Except DiskError Unit × LineWriter ρ × Directory :=
  match writer.flush render now fault directory with
  | (.ok (), writer, directory) => (.ok (), { writer with active := none }, directory)
  | failed => failed

/-- Writes what waits and starts anew. -/
def restart (render : ρ → String) (writer : LineWriter ρ) (now : Instant) (fault : Option Nat)
    (directory : Directory) : LineWriter ρ × Directory :=
  let (_, writer, directory) := writer.flush render now fault directory
  (fresh writer.filePrefix writer.capacity, directory)

/-- Writes what waits and starts anew, in a directory that is made if it is gone. -/
def reopen (render : ρ → String) (writer : LineWriter ρ) (now : Instant) (fault : Option Nat)
    (directory : Directory) : LineWriter ρ × Directory :=
  let (writer, directory) := writer.restart render now fault directory
  (writer, directory.make)

end LineWriter

end TradeGate
