import TradeGate.Audit.LineWriter
import TradeGate.Proofs.Audit.Directory
import TradeGate.Text.Lines

/-!
# Writing what waits

`LineWriter.Flush` lists how writing what waits can end, and all that is proved of the calls of a
writer goes through it: a batch is refused and every file is as it was, or it stands whole at the
end of the file of the day. Behind a whole text its records are lines
(`LineWriter.lines_append_batch`).
-/

namespace TradeGate

namespace LineWriter

variable {ρ : Type}

/-! ## Writing what waits -/

/-- What the writer holds open is the file of its day, and as long as the writer remembers. -/
def Synced (writer : LineWriter ρ) (directory : Directory) : Prop :=
  ∀ file, writer.active = some file →
    directory.fileAt? (writer.filePath file.date.text) = some file.number ∧
      file.length = (directory.read file.number).length

/-- What becomes of a batch for a path: an error if the file cannot be opened or the write fails. -/
def outcome (found : Directory) (path : String) (fault : Option Nat) : Except DiskError Unit :=
  match (found.openFile path).1 with
  | .error cause => .error cause
  | .ok _ => if fault.isSome then .error .writeFailed else .ok ()

/-- How writing what waits can end. -/
inductive Flush (render : ρ → String) (writer : LineWriter ρ) (now : Instant) (fault : Option Nat)
    (found : Directory) : Except DiskError Unit × LineWriter ρ × Directory → Prop
  | idle (hbuffer : writer.buffer = []) : Flush render writer now fault found (.ok (), writer, found)
  | refused {cause : DiskError} {left : Directory} (hbuffer : writer.buffer ≠ [])
    (houtcome : outcome found (writer.filePath now.date.text) fault = .error cause)
    (hread : ∀ number, left.read number = found.read number) (hholds : left.Holds found)
    (hsound : left.Sound) :
    Flush render writer now fault found
      (.error cause, { writer with buffer := [], active := none }, left)
  | written {number : Nat} {left : Directory} (hbuffer : writer.buffer ≠ [])
    (houtcome : outcome found (writer.filePath now.date.text) fault = .ok ())
    (hfile : left.fileAt? (writer.filePath now.date.text) = some number)
    (hread : left.read number = found.read number ++ batch render writer.buffer)
    (hothers : ∀ other, other ≠ number → left.read other = found.read other)
    (hholds : left.Holds found) (hsound : left.Sound) :
    Flush render writer now fault found
      (.ok (), { writer with
        buffer := []
        active := some ⟨number, now.date, (left.read number).length⟩ }, left)

variable {render : ρ → String} {writer : LineWriter ρ} {found : Directory}

/-- Whether the file of the day is held open or has to be opened makes no difference. -/
theorem openFor_eq (hsynced : writer.Synced found) (today : Date) :
    openFor { writer with active := writer.active.filter (·.date = today) } today found =
      ((found.openFile (writer.filePath today.text)).1.map fun number =>
        ⟨number, today,
          ((found.openFile (writer.filePath today.text)).2.read number).length⟩,
        (found.openFile (writer.filePath today.text)).2) := by
  unfold openFor
  cases hactive : writer.active with
  | none => rfl
  | some file =>
    by_cases hdate : file.date = today
    · obtain ⟨hfile, hlength⟩ := hsynced file hactive
      rw [hdate] at hfile
      rw [Option.filter_some, if_pos (by simpa using hdate), Directory.openFile_of_fileAt? hfile]
      show (Except.ok file, found) = (.ok ⟨file.number, today, _⟩, found)
      rw [← hlength, ← hdate]
    · rw [Option.filter_some, if_neg (by simpa using hdate)]
      rfl

theorem take_length_append (before after : String) :
    ((before ++ after).take before.length).toString = before := by
  apply String.toList_inj.1
  show ((before ++ after).take before.length).copy.toList = before.toList
  rw [String.toList_copy_take, String.toList_append, ← String.length_toList, List.take_left]

/-- A partial write is cut off again. -/
theorem append_some {file : OpenFile} {directory : Directory}
    (hlength : file.length = (directory.read file.number).length) (text : String) (written : Nat) :
    append file text (some written) directory =
      (.error .writeFailed, directory.write file.number (directory.read file.number)) := by
  unfold append
  dsimp only
  rw [hlength, take_length_append]

theorem flush_step (hsynced : writer.Synced found) (hsound : found.Sound) (now : Instant)
    (fault : Option Nat) :
    Flush render writer now fault found (writer.flush render now fault found) := by
  unfold flush
  by_cases hbuffer : writer.buffer = []
  · rw [if_pos (by simpa using hbuffer)]
    exact .idle hbuffer
  · rw [if_neg (by simpa using hbuffer)]
    dsimp only
    rw [openFor_eq hsynced]
    generalize hopen : found.openFile (writer.filePath now.date.text) = opened
    obtain ⟨answer, opened⟩ := opened
    cases answer with
    | error cause =>
      obtain rfl := Directory.openFile_of_error hopen
      refine .refused hbuffer ?_ (fun _ => rfl) (.refl _) hsound
      unfold outcome
      rw [hopen]
    | ok number =>
      have hopens := Directory.opens_of_ok hopen
      have hsound := hopens.sound hsound
      dsimp only [Except.map]
      cases fault with
      | some written =>
        rw [append_some rfl]
        refine .refused hbuffer ?_ ?_ ?_ (Directory.sound_write hsound _ _)
        · unfold outcome
          rw [hopen]
          rfl
        · intro other
          rw [Directory.read_write_read, hopens.read_eq]
        · exact (Directory.holds_write _ _ _).trans hopens.holds
      | none =>
        have hlt := hsound.lt_of_fileAt? hopens.fileAt?_eq
        have hread : (opened.write number (opened.read number ++ batch render writer.buffer)).read
            number = found.read number ++ batch render writer.buffer := by
          rw [Directory.read_write_self hlt, hopens.read_eq]
        have hwritten : Flush render writer now none found _ := .written hbuffer
          (by unfold outcome; rw [hopen]; rfl)
          ((Directory.holds_write _ _ _).fileAt?_eq_some hopens.fileAt?_eq) hread
          (fun other hne => by rw [Directory.read_write_of_ne hne, hopens.read_eq])
          ((Directory.holds_write _ _ _).trans hopens.holds) (Directory.sound_write hsound _ _)
        rw [hread, String.length_append, ← hopens.read_eq] at hwritten
        exact hwritten

theorem Flush.answer_eq {now : Instant} {fault : Option Nat}
    {result : Except DiskError Unit × LineWriter ρ × Directory}
    (h : Flush render writer now fault found result) (hbuffer : writer.buffer ≠ []) :
    result.1 = outcome found (writer.filePath now.date.text) fault := by
  cases h with
  | idle hnone => exact absurd hnone hbuffer
  | refused _ houtcome | written _ houtcome => exact houtcome.symm

theorem Flush.settings {now : Instant} {fault : Option Nat}
    {result : Except DiskError Unit × LineWriter ρ × Directory}
    (h : Flush render writer now fault found result) :
    result.2.1.buffer = [] ∧ result.2.1.filePrefix = writer.filePrefix ∧
      result.2.1.capacity = writer.capacity := by
  cases h with
  | idle hbuffer => exact ⟨hbuffer, rfl, rfl⟩
  | refused | written => exact ⟨rfl, rfl, rfl⟩

/-! ## Batches as text -/

theorem toList_batch (render : ρ → String) (records : List ρ) :
    (batch render records).toList =
      (records.map fun record => (render record).toList).flatMap (· ++ ['\n']) := by
  unfold batch
  simp [String.toList_join, List.flatMap_map]

theorem batch_append (render : ρ → String) (records others : List ρ) :
    batch render (records ++ others) = batch render records ++ batch render others := by
  apply String.toList_inj.1
  rw [String.toList_append, toList_batch, toList_batch, toList_batch, List.map_append,
    List.flatMap_append]

/-- Behind a whole text the records of a batch are lines. -/
theorem lines_append_batch {text : String} (htext : Text.IsWhole text.toList)
    (hrender : ∀ record, '\n' ∉ (render record).toList) (records : List ρ) :
    Text.lines (text ++ batch render records).toList =
      Text.lines text.toList ++ records.map fun record => (render record).toList := by
  rw [String.toList_append, Text.lines_append htext, toList_batch, Text.lines_flatMap]
  exact List.forall_mem_map.2 fun record _ => hrender record

end LineWriter

end TradeGate
