import Mathlib.Data.List.Chain
import TradeGate.Proofs.Audit.Flush
import TradeGate.Proofs.History
import TradeGate.Proofs.Json.Printer

/-!
# The journal of a line writer

A line writer is called again and again, over a directory that others may change between the
calls. `LineWriter.Integrity` says what a run leaves behind, as long as nobody else touches the
files that the writer has written (`LineWriter.Undisturbed`): each of them is what it was at first
and then the lines of the batches that were written to it. What carries the run is that the file
that is held open is the one of its day, as long as the writer remembers (`LineWriter.Invariant`).
-/

namespace TradeGate

open History (answered stateBehind)

namespace LineWriter

variable {ρ : Type} {render : ρ → String} {writer : LineWriter ρ}

/-! ## Calls -/

/-- What a caller asks of a writer. To reopen it is to drop it and to make it anew. -/
inductive Request (ρ : Type) where
  | add (record : ρ)
  | flush
  | close
  | reopen

/-- A call: the request, the directory as the call finds it, the time, and the fault of a write if
there is one. -/
structure Visit (ρ : Type) where
  request : Request ρ
  found : Directory
  now : Instant
  fault : Option Nat

/-- The path of the file of a day. -/
def dayPath (filePrefix : String) (date : Date) : String :=
  filePrefix ++ "_" ++ date.text ++ ".jsonl"

/-- The path of the file of the day. -/
def Visit.path (filePrefix : String) (visit : Visit ρ) : String :=
  dayPath filePrefix visit.now.date

/-- The record that a call brings. -/
def Visit.record? (visit : Visit ρ) : Option ρ :=
  match visit.request with
  | .add record => some record
  | _ => none

/-- The call of a writer. What is answered when a writer is dropped is told to nobody. -/
def handle (render : ρ → String) (visit : Visit ρ) (writer : LineWriter ρ) :
    Except DiskError Unit × LineWriter ρ × Directory :=
  match visit.request with
  | .add record => writer.add render record visit.now visit.fault visit.found
  | .flush => writer.flush render visit.now visit.fault visit.found
  | .close => writer.close render visit.now visit.fault visit.found
  | .reopen =>
    ((writer.flush render visit.now visit.fault visit.found).1,
      writer.reopen render visit.now visit.fault visit.found)

/-- The batch that is due with a request when records wait, and the records that wait on. -/
def due (capacity : Nat) (request : Request ρ) (waiting : List ρ) : Option (List ρ) × List ρ :=
  match request with
  | .add record =>
    let waiting := waiting ++ [record]
    if max capacity 1 ≤ waiting.length then (some waiting, []) else (none, waiting)
  | _ => if waiting.isEmpty then (none, []) else (some waiting, [])

/-- A call with the batch that was due, its answer, and the directory that it left. -/
structure Call (ρ : Type) where
  visit : Visit ρ
  batch : Option (List ρ)
  answer : Except DiskError Unit
  left : Directory

section Run

variable (render : ρ → String) (filePrefix : String) (capacity : Nat)

/-- A call of a writer while records wait. -/
def onVisit (visit : Visit ρ) (state : LineWriter ρ × List ρ) :
    Call ρ × LineWriter ρ × List ρ :=
  let (answer, writer, left) := handle render visit state.1
  let (batch, waiting) := due capacity visit.request state.2
  (⟨visit, batch, answer, left⟩, writer, waiting)

/-- The calls of a new writer. -/
def calls (visits : List (Visit ρ)) : List (Call ρ) :=
  (answered (onVisit render capacity) (fresh filePrefix capacity, []) visits).map Prod.snd

/-- The writer behind its first calls. -/
def behind (visits : List (Visit ρ)) : LineWriter ρ :=
  (stateBehind (onVisit render capacity) (fresh filePrefix capacity, []) visits).1

end Run

/-- The file that a call has written to. -/
def Call.number? (filePrefix : String) (call : Call ρ) : Option Nat :=
  match call.batch, call.answer with
  | some _, .ok () => call.left.fileAt? (call.visit.path filePrefix)
  | _, _ => none

/-- The records that a call was to write. -/
def Call.records (call : Call ρ) : List ρ := call.batch.getD []

/-- Nobody else touches what the writer has written: a later call finds each such file under its
name and as the call before left it. -/
structure Undisturbed (filePrefix : String) (calls : List (Call ρ)) : Prop where
  sound : ∀ call ∈ calls, call.visit.found.Sound
  kept : ∀ before call after, calls = before ++ call :: after →
    ∀ earlier ∈ before, ∀ number, earlier.number? filePrefix = some number →
      call.visit.found.fileAt? (earlier.visit.path filePrefix) = some number ∧
      ∀ last, before.getLast? = some last → call.visit.found.read number = last.left.read number

/-- What a call does to the files. -/
structure Call.Fair (render : ρ → String) (filePrefix : String) (call : Call ρ) : Prop where
  /-- Without a batch nothing is written. -/
  idle : call.batch = none →
    call.answer = .ok () ∧ ∀ number, call.left.read number = call.visit.found.read number
  /-- A batch fails if its file cannot be opened or written, and then with that error. -/
  answer_eq : ∀ records, call.batch = some records →
    call.answer = outcome call.visit.found (call.visit.path filePrefix) call.visit.fault
  /-- A call that fails leaves every file as it was. -/
  refused : ∀ cause, call.answer = .error cause →
    ∀ number, call.left.read number = call.visit.found.read number
  /-- Any other batch is put whole at the end of the file of the day, and of no other. -/
  written : ∀ records, call.batch = some records → call.answer = .ok () →
    ∃ number, call.left.fileAt? (call.visit.path filePrefix) = some number ∧
      call.left.read number = call.visit.found.read number ++ LineWriter.batch render records ∧
      ∀ other, other ≠ number → call.left.read other = call.visit.found.read other
  /-- What has a name keeps it. -/
  holds : call.left.Holds call.visit.found
  sound : call.visit.found.Sound → call.left.Sound

/-- What a run leaves behind. -/
structure Integrity (render : ρ → String) (filePrefix : String) (capacity : Nat)
    (visits : List (Visit ρ)) : Prop where
  fair : ∀ call ∈ calls render filePrefix capacity visits, call.Fair render filePrefix
  /-- In order and once each, the records have been due in a batch or wait. -/
  accounted : visits.filterMap Visit.record? =
    (calls render filePrefix capacity visits).flatMap Call.records ++
      (behind render filePrefix capacity visits).buffer
  /-- After each call fewer records wait than a batch has at least. -/
  bounded : ∀ before after, visits = before ++ after →
    (behind render filePrefix capacity before).pending < max capacity 1
  /-- A call leaves alone what it does not write to. -/
  untouched : ∀ call ∈ calls render filePrefix capacity visits, ∀ number,
    call.number? filePrefix ≠ some number → call.left.read number = call.visit.found.read number
  /-- A file that has been written is found under its name. -/
  named : ∀ call ∈ calls render filePrefix capacity visits, ∀ number last,
    call.number? filePrefix = some number →
    (calls render filePrefix capacity visits).getLast? = some last →
    last.left.fileAt? (call.visit.path filePrefix) = some number
  /-- A file that has been written is what it was at first, and then the lines of its batches in
  order. -/
  files : ∀ number first rest last,
    (calls render filePrefix capacity visits).filter (·.number? filePrefix = some number) =
      first :: rest →
    (calls render filePrefix capacity visits).getLast? = some last →
    last.left.read number = first.visit.found.read number ++
      batch render ((first :: rest).flatMap Call.records) ∧
    (Text.IsWhole (first.visit.found.read number).toList →
      Text.lines (last.left.read number).toList =
        Text.lines (first.visit.found.read number).toList ++
          ((first :: rest).flatMap Call.records).map fun record => (render record).toList)

/-! ## One call -/

section Step

variable {filePrefix : String} {capacity : Nat} {visit : Visit ρ}
  {result : Except DiskError Unit × LineWriter ρ × Directory}

/-- The call that writes all that waits, with this result. -/
def Call.ofFlush (writer : LineWriter ρ) (visit : Visit ρ)
    (result : Except DiskError Unit × LineWriter ρ × Directory) : Call ρ :=
  ⟨visit, if writer.buffer.isEmpty then none else some writer.buffer, result.1, result.2.2⟩

theorem Flush.fair (visit : Visit ρ)
    (h : Flush render writer visit.now visit.fault visit.found result)
    (hbase : writer.filePrefix = filePrefix) :
    (Call.ofFlush writer visit result).Fair render filePrefix := by
  subst hbase
  unfold Call.ofFlush
  cases h with
  | idle hbuffer =>
    rw [hbuffer]
    exact ⟨fun _ => ⟨rfl, fun _ => rfl⟩, nofun, nofun, nofun, .refl _, id⟩
  | refused hbuffer houtcome hread hholds hsound =>
    rw [if_neg (by simpa using hbuffer)]
    exact ⟨nofun, fun _ _ => houtcome.symm, fun _ _ => hread, nofun, hholds, fun _ => hsound⟩
  | written hbuffer houtcome hfile hread hothers hholds hsound =>
    rw [if_neg (by simpa using hbuffer)]
    refine ⟨nofun, fun _ _ => houtcome.symm, nofun, fun records hrecords _ => ?_, hholds,
      fun _ => hsound⟩
    obtain rfl := Option.some.inj hrecords
    exact ⟨_, hfile, hread, hothers⟩

/-- Making the directory afterwards makes no difference. -/
theorem Call.Fair.make {batch : Option (List ρ)} {answer : Except DiskError Unit} {left : Directory}
    (h : Call.Fair render filePrefix ⟨visit, batch, answer, left⟩) :
    Call.Fair render filePrefix ⟨visit, batch, answer, left.make⟩ where
  idle hbatch := ⟨(h.idle hbatch).1, fun n => (left.read_make n).trans ((h.idle hbatch).2 n)⟩
  answer_eq := h.answer_eq
  refused cause hcause n := (left.read_make n).trans (h.refused cause hcause n)
  written records hbatch hanswer := by
    obtain ⟨number, hfile, hread, hothers⟩ := h.written records hbatch hanswer
    exact ⟨number, (left.holds_make).fileAt?_eq_some hfile, (left.read_make _).trans hread,
      fun other hne => (left.read_make _).trans (hothers other hne)⟩
  holds := (left.holds_make).trans h.holds
  sound hfound := Directory.sound_make (h.sound hfound)

/-- What the writer holds open behind a call is what it held before, or what the call has written. -/
def Holding (filePrefix : String) (writer next : LineWriter ρ) (call : Call ρ) : Prop :=
  ∀ file, next.active = some file → file.length = (call.left.read file.number).length ∧
    (writer.active = some file ∨ (call.number? filePrefix = some file.number ∧
      call.visit.path filePrefix = dayPath filePrefix file.date))

theorem Flush.holding (visit : Visit ρ)
    (h : Flush render writer visit.now visit.fault visit.found result)
    (hbase : writer.filePrefix = filePrefix) (hsynced : writer.Synced visit.found) :
    Holding filePrefix writer result.2.1 (Call.ofFlush writer visit result) := by
  subst hbase
  unfold Call.ofFlush
  intro file hactive
  cases h with
  | idle => exact ⟨(hsynced file hactive).2, Or.inl hactive⟩
  | refused => exact nomatch hactive
  | written hbuffer _ hfile =>
    rw [if_neg (by simpa using hbuffer)]
    rw [← Option.some.inj hactive]
    exact ⟨rfl, Or.inr ⟨hfile, rfl⟩⟩

/-- What the calls of a writer keep: the records that wait are those that should, fewer than a batch
has at least, and neither the prefix nor the capacity changes. -/
structure Steady (filePrefix : String) (capacity : Nat) (state : LineWriter ρ × List ρ) : Prop where
  buffer_eq : state.1.buffer = state.2
  prefix_eq : state.1.filePrefix = filePrefix
  capacity_eq : state.1.capacity = max capacity 1
  waiting_lt : state.2.length < max capacity 1

theorem max_capacity_pos (capacity : Nat) : 0 < max capacity 1 :=
  Nat.lt_of_lt_of_le Nat.zero_lt_one (Nat.le_max_right _ _)

theorem steady_fresh (filePrefix : String) (capacity : Nat) :
    Steady filePrefix capacity ((fresh filePrefix capacity : LineWriter ρ), []) :=
  ⟨rfl, rfl, rfl, max_capacity_pos capacity⟩

/-- All that waits is due when nothing is added. -/
theorem due_eq (waiting : List ρ) :
    (if waiting.isEmpty then (none, []) else (some waiting, [])) =
      ((if waiting.isEmpty then none else some waiting), ([] : List ρ)) := by
  split <;> rfl

/-- Writing what waits is a call that leaves nothing waiting. -/
theorem Flush.step (visit : Visit ρ)
    (h : Flush render writer visit.now visit.fault visit.found result)
    (hbase : writer.filePrefix = filePrefix) (hcapacity : writer.capacity = max capacity 1)
    (hsynced : writer.Synced visit.found) :
    (Call.ofFlush writer visit result).Fair render filePrefix ∧
      Steady filePrefix capacity (result.2.1, []) ∧
      Holding filePrefix writer result.2.1 (Call.ofFlush writer visit result) := by
  obtain ⟨hempty, hsamePrefix, hsameCapacity⟩ := h.settings
  exact ⟨h.fair visit hbase,
    ⟨hempty, hsamePrefix.trans hbase, hsameCapacity.trans hcapacity, max_capacity_pos capacity⟩,
    h.holding visit hbase hsynced⟩

/-- A call is fair, leaves the settings steady, and holds open what it should. -/
theorem onVisit_step {state : LineWriter ρ × List ρ} (hsteady : Steady filePrefix capacity state)
    (hsynced : state.1.Synced visit.found) (hsound : visit.found.Sound) :
    (onVisit render capacity visit state).1.Fair render filePrefix ∧
      Steady filePrefix capacity (onVisit render capacity visit state).2 ∧
      Holding filePrefix state.1 (onVisit render capacity visit state).2.1
        (onVisit render capacity visit state).1 := by
  obtain ⟨writer, waiting⟩ := state
  obtain ⟨hbuffer, hbase, hcapacity, hlt⟩ := hsteady
  replace hcapacity : writer.capacity = max capacity 1 := hcapacity
  obtain rfl : writer.buffer = waiting := hbuffer
  obtain rfl : writer.filePrefix = filePrefix := hbase
  obtain ⟨request, found, now, fault⟩ := visit
  have hflush : Flush render writer now fault found _ := flush_step hsynced hsound now fault
  cases request with
  | add record =>
    unfold onVisit handle due add
    dsimp only
    by_cases hfull : max capacity 1 ≤ (writer.buffer ++ [record]).length
    · rw [if_pos hfull, if_pos (hcapacity.symm ▸ hfull : writer.capacity ≤ _)]
      have hsynced' : ({ writer with buffer := writer.buffer ++ [record] } : LineWriter ρ).Synced
          found := hsynced
      have hflush' : Flush render _ now fault found _ := flush_step hsynced' hsound now fault
      have hstep := hflush'.step ⟨.add record, found, now, fault⟩ rfl hcapacity hsynced'
      unfold Call.ofFlush at hstep
      rw [if_neg (by simp)] at hstep
      exact hstep
    · rw [if_neg hfull, if_neg (hcapacity.symm ▸ hfull : ¬ writer.capacity ≤ _)]
      exact ⟨⟨fun _ => ⟨rfl, fun _ => rfl⟩, nofun, nofun, nofun, .refl _, id⟩,
        ⟨rfl, rfl, hcapacity, Nat.not_le.1 hfull⟩,
        fun file hactive => ⟨(hsynced file hactive).2, Or.inl hactive⟩⟩
  | flush =>
    unfold onVisit handle due
    dsimp only
    rw [due_eq]
    exact hflush.step ⟨.flush, found, now, fault⟩ rfl hcapacity hsynced
  | close =>
    have hstep := hflush.step ⟨.close, found, now, fault⟩ rfl hcapacity hsynced
    unfold onVisit handle due close
    dsimp only
    rw [due_eq]
    generalize flush render writer now fault found = result at hstep
    obtain ⟨hfair, hsteady, hholding⟩ := hstep
    obtain ⟨answer, next, left⟩ := result
    cases answer with
    | error cause => exact ⟨hfair, hsteady, hholding⟩
    | ok _ =>
      exact ⟨hfair, ⟨hsteady.buffer_eq, hsteady.prefix_eq, hsteady.capacity_eq, hsteady.waiting_lt⟩,
        nofun⟩
  | reopen =>
    obtain ⟨hfair, hsteady, -⟩ := hflush.step ⟨.reopen, found, now, fault⟩ rfl hcapacity hsynced
    unfold onVisit handle due reopen restart
    dsimp only
    rw [due_eq]
    refine ⟨hfair.make, ⟨rfl, hsteady.prefix_eq, ?_, max_capacity_pos capacity⟩, nofun⟩
    show max (flush render writer now fault found).2.1.capacity 1 = max capacity 1
    rw [show (flush render writer now fault found).2.1.capacity = _ from hsteady.capacity_eq]
    exact Nat.max_eq_left (max_capacity_pos capacity)

end Step

/-! ## Calls one after the other -/

section History

variable {filePrefix : String} {capacity : Nat}

theorem calls_append (visits others : List (Visit ρ)) :
    calls render filePrefix capacity (visits ++ others) = calls render filePrefix capacity visits ++
      (answered (onVisit render capacity)
        (stateBehind (onVisit render capacity) (fresh filePrefix capacity, []) visits)
        others).map Prod.snd := by
  unfold calls
  rw [History.answered_append, List.map_append]

theorem calls_append_singleton (visits : List (Visit ρ)) (visit : Visit ρ) :
    calls render filePrefix capacity (visits ++ [visit]) =
      calls render filePrefix capacity visits ++ [(onVisit render capacity visit
        (stateBehind (onVisit render capacity) (fresh filePrefix capacity, []) visits)).1] :=
  calls_append visits [visit]

theorem due_accounts (capacity : Nat) (visit : Visit ρ) (waiting : List ρ) :
    waiting ++ visit.record?.toList =
      (due capacity visit.request waiting).1.getD [] ++ (due capacity visit.request waiting).2 := by
  obtain ⟨request, _, _, _⟩ := visit
  cases request with
  | add record =>
    unfold due
    dsimp only
    split
    · exact (List.append_nil _).symm
    · rfl
  | flush | close | reopen =>
    unfold due
    dsimp only
    split
    · rename_i h
      rw [List.isEmpty_iff.1 h]
      rfl
    · rfl

theorem accounted (visits : List (Visit ρ)) :
    visits.filterMap Visit.record? =
      (calls render filePrefix capacity visits).flatMap Call.records ++
        (stateBehind (onVisit render capacity) (fresh filePrefix capacity, []) visits).2 := by
  induction visits using List.reverseRecOn with
  | nil => rfl
  | append_singleton visits visit ih =>
    have hdue := due_accounts capacity visit
      (stateBehind (onVisit render capacity) (fresh filePrefix capacity, []) visits).2
    rw [List.filterMap_append, ih, calls_append_singleton, History.stateBehind_append_singleton,
      List.flatMap_append, List.append_assoc, List.append_assoc, History.filterMap_singleton,
      List.flatMap_singleton, hdue]
    rfl

/-- What every call leaves: it was fair, the settings are steady, and what is held open has been
written by some call, to the length that the writer remembers. -/
structure Invariant (render : ρ → String) (filePrefix : String) (capacity : Nat)
    (visits : List (Visit ρ)) : Prop where
  fair : ∀ call ∈ calls render filePrefix capacity visits, call.Fair render filePrefix
  steady : Steady filePrefix capacity
    (stateBehind (onVisit render capacity) (fresh filePrefix capacity, []) visits)
  held : ∀ file, (behind render filePrefix capacity visits).active = some file →
    ∃ earlier ∈ calls render filePrefix capacity visits,
      earlier.number? filePrefix = some file.number ∧
      earlier.visit.path filePrefix = dayPath filePrefix file.date ∧
      ∀ last, (calls render filePrefix capacity visits).getLast? = some last →
        file.length = (last.left.read file.number).length

theorem Undisturbed.of_append {filePrefix : String} {calls others : List (Call ρ)}
    (h : Undisturbed filePrefix (calls ++ others)) : Undisturbed filePrefix calls where
  sound call hcall := h.sound call (List.mem_append_left _ hcall)
  kept before call after hsplit :=
    h.kept before call (after ++ others) (by rw [hsplit, List.append_assoc, List.cons_append])

theorem invariant_of_undisturbed {visits : List (Visit ρ)}
    (h : Undisturbed filePrefix (calls render filePrefix capacity visits)) :
    Invariant render filePrefix capacity visits := by
  induction visits using List.reverseRecOn with
  | nil =>
    exact ⟨fun _ h => absurd h List.not_mem_nil, steady_fresh _ _,
      fun _ (h : none = some _) => nomatch h⟩
  | append_singleton visits visit ih =>
    rw [calls_append_singleton] at h
    obtain ⟨hfair, hsteady, hheld⟩ := ih h.of_append
    have hsound : visit.found.Sound := h.sound _ (List.mem_append_right _ List.mem_cons_self)
    have hkept := h.kept _ _ [] rfl
    -- the call finds the file that is held open as the call before left it
    have hsynced : (behind render filePrefix capacity visits).Synced visit.found := by
      intro file hactive
      obtain ⟨earlier, hmem, hnumber, hpath, hlength⟩ := hheld file hactive
      obtain ⟨hfile, hread⟩ := hkept earlier hmem _ hnumber
      have hlast := List.getLast?_eq_some_getLast (List.ne_nil_of_mem hmem)
      rw [hlength _ hlast, ← hread _ hlast]
      refine ⟨?_, rfl⟩
      show visit.found.fileAt? (dayPath (behind render filePrefix capacity visits).filePrefix
        file.date) = _
      rw [show (behind render filePrefix capacity visits).filePrefix = filePrefix from
        hsteady.prefix_eq, ← hpath]
      exact hfile
    obtain ⟨hnew, hnext, hholding⟩ := onVisit_step hsteady hsynced hsound
    refine ⟨?_, ?_, fun file hactive => ?_⟩
    · rw [calls_append_singleton, List.forall_mem_append, List.forall_mem_singleton]
      exact ⟨hfair, hnew⟩
    · rw [History.stateBehind_append_singleton]
      exact hnext
    · unfold behind at hactive
      rw [History.stateBehind_append_singleton] at hactive
      obtain ⟨hlength, hfrom⟩ := hholding file hactive
      rw [calls_append_singleton, List.getLast?_concat]
      rcases hfrom with hbefore | ⟨hnumber, hpath⟩
      · obtain ⟨earlier, hmem, hnumber, hpath, _⟩ := hheld file hbefore
        refine ⟨earlier, List.mem_append_left _ hmem, hnumber, hpath, fun last hlast => ?_⟩
        rw [← Option.some.inj hlast]
        exact hlength
      · refine ⟨_, List.mem_append_right _ List.mem_cons_self, hnumber, hpath, fun last hlast => ?_⟩
        rw [← Option.some.inj hlast]
        exact hlength

/-! ## The files -/

variable {made : List (Call ρ)}

/-- A call leaves a file that it has not written to. -/
theorem Call.Fair.read_of_number?_ne {call : Call ρ} (h : call.Fair render filePrefix)
    {number : Nat} (hne : call.number? filePrefix ≠ some number) :
    call.left.read number = call.visit.found.read number := by
  cases hbatch : call.batch with
  | none => exact (h.idle hbatch).2 number
  | some records =>
    cases hanswer : call.answer with
    | error cause => exact h.refused cause hanswer number
    | ok _ =>
      obtain ⟨written, hfile, -, hothers⟩ := h.written records hbatch hanswer
      refine hothers number fun hsame => hne ?_
      unfold number?
      rw [hbatch, hanswer, hsame]
      exact hfile

/-- A call puts its records at the end of the file that it has written to. -/
theorem Call.Fair.read_of_number?_eq {call : Call ρ} (h : call.Fair render filePrefix)
    {number : Nat} (hnumber : call.number? filePrefix = some number) :
    call.left.read number = call.visit.found.read number ++
      LineWriter.batch render call.records := by
  unfold number? at hnumber
  split at hnumber
  · rename_i written hbatch hanswer
    obtain ⟨named, hfile, hread, -⟩ := h.written written hbatch hanswer
    rw [hnumber] at hfile
    obtain rfl := Option.some.inj hfile
    rw [hread]
    unfold Call.records
    rw [hbatch]
    rfl
  · exact nomatch hnumber

/-- A file that has been written is what its first writing found, and then all that was written. -/
theorem read_last (hfair : ∀ call ∈ made, call.Fair render filePrefix)
    (h : Undisturbed filePrefix made) {number : Nat} {first last : Call ρ} {rest : List (Call ρ)}
    (hposts : made.filter (·.number? filePrefix = some number) = first :: rest)
    (hlast : made.getLast? = some last) :
    last.left.read number = first.visit.found.read number ++
      batch render ((first :: rest).flatMap Call.records) := by
  induction made using List.reverseRecOn generalizing first rest last with
  | nil => exact nomatch hposts
  | append_singleton made call ih =>
    rw [List.forall_mem_append, List.forall_mem_singleton] at hfair
    rw [List.getLast?_concat] at hlast
    obtain rfl := Option.some.inj hlast
    rw [List.filter_append] at hposts
    -- what was written before, the call finds as the call before it left it
    have hfound : ∀ {earlier : Call ρ} {others : List (Call ρ)},
        made.filter (·.number? filePrefix = some number) = earlier :: others →
        call.visit.found.read number = earlier.visit.found.read number ++
          batch render ((earlier :: others).flatMap Call.records) := by
      intro earlier others hbefore
      have hearlier : earlier ∈ made.filter (·.number? filePrefix = some number) := by
        rw [hbefore]
        exact List.mem_cons_self
      obtain ⟨hmem, hnumber⟩ := List.mem_filter.1 hearlier
      have hlast := List.getLast?_eq_some_getLast (List.ne_nil_of_mem hmem)
      have hkept := (h.kept made call [] rfl earlier hmem number (of_decide_eq_true hnumber)).2
      rw [hkept _ hlast]
      exact ih hfair.1 h.of_append hbefore hlast
    by_cases hnumber : call.number? filePrefix = some number
    · rw [List.filter_cons_of_pos (by simpa using hnumber), List.filter_nil] at hposts
      rw [hfair.2.read_of_number?_eq hnumber]
      cases hbefore : made.filter (·.number? filePrefix = some number) with
      | nil =>
        rw [hbefore, List.nil_append] at hposts
        obtain ⟨rfl, rfl⟩ := List.cons.inj hposts
        rw [List.flatMap_singleton]
      | cons earlier others =>
        rw [hbefore, List.cons_append] at hposts
        obtain ⟨rfl, rfl⟩ := List.cons.inj hposts
        rw [hfound hbefore, ← List.cons_append, List.flatMap_append, List.flatMap_singleton,
          batch_append, String.append_assoc]
    · rw [List.filter_cons_of_neg (by simpa using hnumber), List.filter_nil, List.append_nil]
        at hposts
      rw [hfair.2.read_of_number?_ne hnumber]
      exact hfound hposts

/-- A file that has been written keeps its name. -/
theorem fileAt?_last (hfair : ∀ call ∈ made, call.Fair render filePrefix)
    (h : Undisturbed filePrefix made) {number : Nat} {call last : Call ρ} (hcall : call ∈ made)
    (hnumber : call.number? filePrefix = some number) (hlast : made.getLast? = some last) :
    last.left.fileAt? (call.visit.path filePrefix) = some number := by
  rcases List.eq_nil_or_concat made with rfl | ⟨before, other, rfl⟩
  · exact nomatch hlast
  · rw [List.concat_eq_append] at *
    rw [List.getLast?_concat] at hlast
    obtain rfl := Option.some.inj hlast
    rw [List.forall_mem_append, List.forall_mem_singleton] at hfair
    rcases List.mem_append.1 hcall with hbefore | hsame
    · have hfile := (h.kept before other [] rfl call hbefore number hnumber).1
      exact hfair.2.holds.fileAt?_eq_some hfile
    · obtain rfl := List.mem_singleton.1 hsame
      unfold Call.number? at hnumber
      split at hnumber
      · exact hnumber
      · exact nomatch hnumber

/-- A writer that has the directory to itself is undisturbed: each call finds what the one before it
left. -/
theorem undisturbed_of_isChain {visits : List (Visit ρ)}
    (hfirst : ∀ first, visits.head? = some first → first.found.Sound)
    (hchain : (calls render filePrefix capacity visits).IsChain
      fun earlier later => later.visit.found = earlier.left) :
    Undisturbed filePrefix (calls render filePrefix capacity visits) := by
  induction visits using List.reverseRecOn with
  | nil =>
    exact ⟨fun _ h => absurd h List.not_mem_nil,
      fun _ _ _ h => nomatch List.append_eq_nil_iff.1 h.symm⟩
  | append_singleton visits visit ih =>
    rw [calls_append_singleton] at hchain ⊢
    obtain ⟨hbefore, -, hlink⟩ := List.isChain_append.1 hchain
    have hundisturbed := ih
      (fun first hhead => hfirst first (by rw [List.head?_append, hhead]; rfl)) hbefore
    have hfair := (invariant_of_undisturbed hundisturbed).fair
    refine ⟨?_, History.forall_split_append_singleton hundisturbed.kept ?_⟩
    · rw [List.forall_mem_append, List.forall_mem_singleton]
      refine ⟨hundisturbed.sound, ?_⟩
      cases hlast : (calls render filePrefix capacity visits).getLast? with
      | none =>
        have hnil : visits = [] := by
          cases visits with
          | nil => rfl
          | cons first rest => exact nomatch List.getLast?_eq_none_iff.1 hlast
        subst hnil
        exact hfirst visit rfl
      | some last =>
        have hmem := List.mem_of_getLast? hlast
        rw [hlink last hlast _ rfl]
        exact (hfair last hmem).sound (hundisturbed.sound last hmem)
    · intro earlier hmem number hnumber
      have hlast := List.getLast?_eq_some_getLast (List.ne_nil_of_mem hmem)
      rw [hlink _ hlast _ rfl]
      refine ⟨fileAt?_last hfair hundisturbed hmem hnumber hlast, fun last hsame => ?_⟩
      rw [← Option.some.inj (hlast.symm.trans hsame)]

/-! ## Integrity -/

/-- The writer keeps its journal, as long as nobody else touches what it has written. -/
theorem integrity_of_undisturbed (encode : ρ → Json) (filePrefix : String) (capacity : Nat)
    (visits : List (Visit ρ))
    (h : Undisturbed filePrefix
      (calls (fun record => (encode record).compact) filePrefix capacity visits)) :
    Integrity (fun record => (encode record).compact) filePrefix capacity visits := by
  obtain ⟨hfair, hsteady, -⟩ := invariant_of_undisturbed h
  refine ⟨hfair, ?_, ?_, fun call hcall number => (hfair call hcall).read_of_number?_ne, ?_, ?_⟩
  · rw [accounted visits, ← hsteady.buffer_eq]
    rfl
  · rintro before after rfl
    rw [calls_append] at h
    have hsteady := (invariant_of_undisturbed h.of_append).steady
    have hlt := hsteady.waiting_lt
    rwa [← hsteady.buffer_eq] at hlt
  · exact fun call hcall number last hnumber hlast => fileAt?_last hfair h hcall hnumber hlast
  · intro number first rest last hposts hlast
    have hread := read_last hfair h hposts hlast
    refine ⟨hread, fun hwhole => ?_⟩
    rw [hread]
    exact lines_append_batch hwhole (fun record => Json.newline_not_mem_compact _) _

/-! ## A sample run -/

/-- A directory with the file of the first day and nothing else. -/
def firstDay (contents : String) : Directory :=
  ⟨[(["", "audit_1970-01-01.jsonl"], .file 0), (Directory.home, .folder)], [contents]⟩

/-- Two records are written, one is dropped by a write that breaks off, and one is written when the
writer is closed. -/
def sampleVisits : List (Visit Nat) :=
  [⟨.add 1, .empty, .epoch, none⟩, ⟨.add 2, .empty, .epoch, none⟩,
    ⟨.add 3, firstDay "1\n2\n", .epoch, none⟩, ⟨.flush, firstDay "1\n2\n", .epoch, some 1⟩,
    ⟨.add 4, firstDay "1\n2\n", .epoch, none⟩, ⟨.close, firstDay "1\n2\n", .epoch, none⟩]

theorem integrity_sampleVisits :
    Integrity (fun n : Nat => (Json.int n).compact) "audit" 2 sampleVisits ∧
      ((calls (fun n : Nat => (Json.int n).compact) "audit" 2 sampleVisits).map fun call =>
        (call.answer, call.left.read 0)) =
        [(.ok (), ""), (.ok (), "1\n2\n"), (.ok (), "1\n2\n"), (.error .writeFailed, "1\n2\n"),
          (.ok (), "1\n2\n"), (.ok (), "1\n2\n4\n")] := by
  have hundisturbed : Undisturbed "audit"
      (calls (fun n : Nat => (Json.int n).compact) "audit" 2 sampleVisits) := by
    refine undisturbed_of_isChain (fun first hfirst => ?_) (by decide +kernel)
    rw [← Option.some.inj hfirst]
    exact Directory.sound_empty
  exact ⟨integrity_of_undisturbed (fun n : Nat => .int n) "audit" 2 sampleVisits hundisturbed,
    by decide +kernel⟩

end History

end LineWriter

end TradeGate
