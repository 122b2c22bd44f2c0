import TradeGate.Proofs.Audit.DayFiles

/-!
# Two writers in one directory

Two writers with names of their own have no file in common, as long as nobody moves or links a file
(`LineWriter.Beside`). So what one of them writes, or cuts off, leaves the files of the other alone,
even where a file is written to by others or is gone while it is held open.
-/

namespace TradeGate

/-! ## What becomes of a directory -/

namespace Directory

/-- No file stands at two places. -/
def Apart (directory : Directory) : Prop :=
  ∀ place other number, directory.entry? place = some (.file number) →
    directory.entry? other = some (.file number) → place = other

/-- Files of the earlier directory may have been written to and taken away, and others made, but
none has been moved or linked. -/
structure Follows (directory earlier : Directory) : Prop where
  sound : directory.Sound
  apart : directory.Apart
  length_le : earlier.contents.length ≤ directory.contents.length
  stood : ∀ place number, directory.entry? place = some (.file number) →
    number < earlier.contents.length → earlier.entry? place = some (.file number)

variable {directory earlier next : Directory} {path : String} {number : Nat}

theorem Apart.ne_of_name_ne (h : directory.Apart) {name otherName : String} {other : Nat}
    (hne : name ≠ otherName) (hentry : directory.entry? (home ++ [name]) = some (.file number))
    (hother : directory.entry? (home ++ [otherName]) = some (.file other)) : number ≠ other := by
  rintro rfl
  exact hne (by simpa using h _ _ _ hentry hother)

theorem follows_self (hsound : directory.Sound) (hapart : directory.Apart) :
    directory.Follows directory :=
  ⟨hsound, hapart, Nat.le_refl _, fun _ _ hentry _ => hentry⟩

theorem Follows.trans {earliest : Directory} (h : directory.Follows earlier)
    (h' : earlier.Follows earliest) : directory.Follows earliest where
  sound := h.sound
  apart := h.apart
  length_le := Nat.le_trans h'.length_le h.length_le
  stood place number hentry hlt :=
    h'.stood place number (h.stood place number hentry (Nat.lt_of_lt_of_le hlt h'.length_le)) hlt

theorem Follows.write (h : directory.Follows earlier) (number : Nat) (text : String) :
    (directory.write number text).Follows earlier where
  sound := sound_write h.sound number text
  apart := h.apart
  length_le := by
    unfold Directory.write
    rw [List.length_set]
    exact h.length_le
  stood := h.stood

theorem Opens.follows (h : Opens directory path number next) (hsound : directory.Sound)
    (hapart : directory.Apart) : next.Follows directory where
  sound := h.sound hsound
  length_le := h.length_le
  stood place other hentry hlt := by
    rcases h.stood place other hentry with hold | ⟨-, rfl⟩
    · exact hold
    · exact absurd hlt (Nat.lt_irrefl _)
  apart place other number hentry hother := by
    -- a new file has a number of its own, and only its path leads to it
    rcases h.stood place number hentry with hold | ⟨hplace, rfl⟩
    · rcases h.stood other number hother with hold' | ⟨-, rfl⟩
      · exact hapart place other number hold hold'
      · exact absurd (hsound _ _ hold) (Nat.lt_irrefl _)
    · rcases h.stood other _ hother with hold' | ⟨hother, -⟩
      · exact absurd (hsound _ _ hold') (Nat.lt_irrefl _)
      · exact Except.ok.inj (hplace.symm.trans hother)

theorem follows_make (hsound : directory.Sound) (hapart : directory.Apart) :
    directory.make.Follows directory := by
  unfold make
  split
  · have hold : ∀ place number, Directory.entry? (directory.put home .folder) place =
        some (.file number) → directory.entry? place = some (.file number) := by
      intro place number hentry
      rcases eq_or_of_entry?_put (by decide) hentry with ⟨-, hfolder⟩ | hold
      · exact nomatch hfolder
      · exact hold
    exact ⟨fun place number hentry => hsound _ _ (hold _ _ hentry),
      fun place other number hentry hother => hapart _ _ _ (hold _ _ hentry) (hold _ _ hother),
      Nat.le_refl _, fun place number hentry _ => hold _ _ hentry⟩
  · exact follows_self hsound hapart

end Directory

namespace LineWriter

open Directory (home)

variable {ρ σ : Type}

/-! ## The files of a writer -/

/-- The file that is held open has contents. -/
def Held (writer : LineWriter ρ) (directory : Directory) : Prop :=
  ∀ file, writer.active = some file → file.number < directory.contents.length

/-- The file is held open by the writer, or it stands under the name of one of its days. -/
def Reaches (writer : LineWriter ρ) (directory : Directory) (number : Nat) : Prop :=
  (∃ file, writer.active = some file ∧ file.number = number) ∨
    ∃ date, directory.entry? (home ++ [dayPath writer.filePrefix date]) = some (.file number)

/-- The file that the writer writes to on a day: the one that it holds open for the day, or else the
one of that name. -/
def IsFileOf (writer : LineWriter ρ) (today : Date) (directory : Directory) (number : Nat) : Prop :=
  match writer.active.filter (·.date = today) with
  | some file => file.number = number
  | none => directory.fileAt? (dayPath writer.filePrefix today) = some number

/-- What waited stands behind all that was in the file of the day. -/
def Delivers (render : ρ → String) (writer : LineWriter ρ) (today : Date)
    (found left : Directory) : Prop :=
  writer.buffer ≠ [] → ∃ number, writer.IsFileOf today left number ∧
    left.read number = found.read number ++ batch render writer.buffer

section Files

variable {writer : LineWriter ρ} {today : Date} {directory later : Directory} {number : Nat}

theorem IsFileOf.reaches (h : writer.IsFileOf today directory number)
    (hplain : '/' ∉ writer.filePrefix.toList) : writer.Reaches directory number := by
  unfold IsFileOf at h
  split at h
  · rename_i file hactive
    exact .inl ⟨file, (Option.filter_eq_some_iff.1 hactive).1, h⟩
  · obtain ⟨place, hresolve, hentry⟩ := Directory.fileAt?_eq_some_iff.1 h
    rw [Directory.eq_of_resolve_dayPath hplain hresolve] at hentry
    exact .inr ⟨today, hentry⟩

theorem IsFileOf.of_holds (h : writer.IsFileOf today directory number)
    (hholds : later.Holds directory) : writer.IsFileOf today later number := by
  unfold IsFileOf at h ⊢
  split at h
  · exact h
  · exact hholds.fileAt?_eq_some h

theorem Reaches.of_holds (h : writer.Reaches directory number) (hholds : later.Holds directory) :
    writer.Reaches later number :=
  h.imp_right fun ⟨date, hentry⟩ => ⟨date, hholds _ _ hentry⟩

theorem Reaches.lt (h : writer.Reaches directory number) (hheld : writer.Held directory)
    (hsound : directory.Sound) : number < directory.contents.length := by
  rcases h with ⟨file, hactive, rfl⟩ | ⟨date, hentry⟩
  · exact hheld file hactive
  · exact hsound _ _ hentry

theorem Held.follows (h : writer.Held directory) (hfollows : later.Follows directory) :
    writer.Held later :=
  fun file hactive => Nat.lt_of_lt_of_le (h file hactive) hfollows.length_le

end Files

/-! ## Writing what waits -/

/-- What writing all that waits comes to. -/
structure Empties (render : ρ → String) (writer : LineWriter ρ) (now : Instant) (found : Directory)
    (result : Except DiskError Unit × LineWriter ρ × Directory) : Prop where
  buffer_eq : result.2.1.buffer = []
  prefix_eq : result.2.1.filePrefix = writer.filePrefix
  follows : result.2.2.Follows found
  holds : result.2.2.Holds found
  reaches : ∀ file, result.2.1.active = some file → writer.Reaches result.2.2 file.number
  others : ∀ number, ¬ writer.Reaches result.2.2 number → result.2.2.read number = found.read number
  delivers : result.1 = .ok () → writer.Delivers render now.date found result.2.2

section Flush

variable {render : ρ → String} {writer : LineWriter ρ} {found : Directory} {now : Instant}
  {fault : Option Nat}

/-- The file of the day is the one that is held open, or it is opened. -/
theorem isFileOf_of_openFor {today : Date} {file : OpenFile} {opened : Directory}
    (hopen : openFor { writer with active := writer.active.filter (·.date = today) } today found =
      (.ok file, opened)) (hsound : found.Sound) (hapart : found.Apart) :
    writer.IsFileOf today opened file.number ∧ opened.Follows found ∧ opened.Holds found ∧
      ∀ number, opened.read number = found.read number := by
  unfold openFor at hopen
  unfold IsFileOf
  dsimp only at hopen
  revert hopen
  cases writer.active.filter (·.date = today) with
  | some held =>
    intro hopen
    obtain ⟨hfile, rfl⟩ := Prod.mk.inj hopen
    rw [Except.ok.inj hfile]
    exact ⟨rfl, Directory.follows_self hsound hapart, .refl _, fun _ => rfl⟩
  | none =>
    intro hopen
    generalize hresult : found.openFile _ = result at hopen
    obtain ⟨answer, next⟩ := result
    obtain ⟨hanswer, rfl⟩ := Prod.mk.inj hopen
    cases answer with
    | error => exact nomatch hanswer
    | ok number =>
      have hopens := Directory.opens_of_ok hresult
      rw [← Except.ok.inj hanswer]
      exact ⟨hopens.fileAt?_eq, hopens.follows hsound hapart, hopens.holds, hopens.read_eq⟩

theorem openFor_of_error {today : Date} {cause : DiskError} {opened : Directory}
    (hopen : openFor writer today found = (.error cause, opened)) : opened = found := by
  unfold openFor at hopen
  split at hopen
  · exact nomatch congrArg Prod.fst hopen
  · generalize hresult : found.openFile _ = result at hopen
    obtain ⟨answer, next⟩ := result
    obtain ⟨hanswer, rfl⟩ := Prod.mk.inj hopen
    cases answer with
    | error => exact Directory.openFile_of_error hresult
    | ok => exact nomatch hanswer

theorem empties_flush (hplain : '/' ∉ writer.filePrefix.toList) (hheld : writer.Held found)
    (hsound : found.Sound) (hapart : found.Apart) :
    Empties render writer now found (writer.flush render now fault found) := by
  have hself := Directory.follows_self hsound hapart
  unfold flush
  by_cases hbuffer : writer.buffer = []
  · rw [if_pos (by simpa using hbuffer)]
    exact ⟨hbuffer, rfl, hself, .refl _, fun file hactive => .inl ⟨file, hactive, rfl⟩,
      fun _ _ => rfl, fun _ hwaits => absurd hbuffer hwaits⟩
  · rw [if_neg (by simpa using hbuffer)]
    dsimp only
    generalize hopen : openFor { writer with active := writer.active.filter (·.date = now.date) }
      now.date found = opening
    obtain ⟨answer, opened⟩ := opening
    cases answer with
    | error cause =>
      obtain rfl := openFor_of_error hopen
      exact ⟨rfl, rfl, hself, .refl _, nofun, fun _ _ => rfl, nofun⟩
    | ok file =>
      obtain ⟨hfile, hfollows, hholds, hread⟩ := isFileOf_of_openFor hopen hsound hapart
      have hreaches := hfile.reaches hplain
      have hlt := hreaches.lt (hheld.follows hfollows) hfollows.sound
      have hothers (text : String) (number : Nat) (hnumber : ¬ writer.Reaches opened number) :
          (opened.write file.number text).read number = found.read number := by
        have hne : number ≠ file.number := fun hsame => hnumber (hsame ▸ hreaches)
        rw [Directory.read_write_of_ne hne, hread]
      cases fault with
      | some written =>
        exact ⟨rfl, rfl, hfollows.write _ _, hholds, nofun, hothers _, nofun⟩
      | none =>
        refine ⟨rfl, rfl, hfollows.write _ _, hholds, fun last hlast => ?_, hothers _,
          fun _ _ => ⟨file.number, hfile.of_holds (Directory.holds_write _ _ _), ?_⟩⟩
        · rw [← Option.some.inj hlast]
          exact hreaches
        · rw [← hread]
          exact Directory.read_write_self hlt _

end Flush

/-! ## Two writers -/

/-- Two writers with names of their own have no file in common. -/
structure Beside (writer : LineWriter ρ) (other : LineWriter σ) (directory : Directory) : Prop where
  plain : '/' ∉ writer.filePrefix.toList
  other_plain : '/' ∉ other.filePrefix.toList
  names_ne : ∀ date otherDate,
    dayPath writer.filePrefix date ≠ dayPath other.filePrefix otherDate
  sound : directory.Sound
  apart : directory.Apart
  held : writer.Held directory
  other_held : other.Held directory
  separate : ∀ number, writer.Reaches directory number → ¬ other.Reaches directory number

section Beside

variable {writer : LineWriter ρ} {other : LineWriter σ} {directory later : Directory}
  {render : ρ → String} {now : Instant} {fault : Option Nat}

/-- Writers that hold nothing open. -/
theorem beside_of_idle (hplain : '/' ∉ writer.filePrefix.toList)
    (hother : '/' ∉ other.filePrefix.toList)
    (hnames : ∀ date otherDate,
      dayPath writer.filePrefix date ≠ dayPath other.filePrefix otherDate)
    (hsound : directory.Sound) (hapart : directory.Apart) (hidle : writer.active = none)
    (hotherIdle : other.active = none) : writer.Beside other directory where
  plain := hplain
  other_plain := hother
  names_ne := hnames
  sound := hsound
  apart := hapart
  held := by simp [Held, hidle]
  other_held := by simp [Held, hotherIdle]
  separate number := by
    unfold Reaches
    rw [hidle, hotherIdle]
    rintro (⟨_, hnone, -⟩ | ⟨date, hentry⟩) (⟨_, hnone, -⟩ | ⟨otherDate, hother⟩)
    · exact nomatch hnone
    · exact nomatch hnone
    · exact nomatch hnone
    · exact hapart.ne_of_name_ne (hnames date otherDate) hentry hother rfl

theorem Beside.symm (h : writer.Beside other directory) : other.Beside writer directory where
  plain := h.other_plain
  other_plain := h.plain
  names_ne date otherDate hsame := h.names_ne otherDate date hsame.symm
  sound := h.sound
  apart := h.apart
  held := h.other_held
  other_held := h.held
  separate number hother hwriter := h.separate number hwriter hother

/-- A file that stands under a name of the one was not held open by the other before. -/
theorem Beside.ne_of_entry? (h : writer.Beside other directory) (hfollows : later.Follows directory)
    {date : Date} {number : Nat}
    (hentry : later.entry? (home ++ [dayPath writer.filePrefix date]) = some (.file number))
    {file : OpenFile} (hactive : other.active = some file) : file.number ≠ number := by
  rintro rfl
  have hold := hfollows.stood _ _ hentry (h.other_held file hactive)
  exact h.separate _ (.inr ⟨date, hold⟩) (.inl ⟨file, hactive, rfl⟩)

/-- They keep apart whatever becomes of the directory. -/
theorem Beside.follows (h : writer.Beside other directory) (hfollows : later.Follows directory) :
    writer.Beside other later where
  plain := h.plain
  other_plain := h.other_plain
  names_ne := h.names_ne
  sound := hfollows.sound
  apart := hfollows.apart
  held := h.held.follows hfollows
  other_held := h.other_held.follows hfollows
  separate number := by
    rintro (⟨file, hactive, rfl⟩ | ⟨date, hentry⟩) (⟨otherFile, hother, hsame⟩ | ⟨otherDate, hother⟩)
    · exact h.separate _ (.inl ⟨file, hactive, rfl⟩) (.inl ⟨otherFile, hother, hsame⟩)
    · exact h.symm.ne_of_entry? hfollows hother hactive rfl
    · exact h.ne_of_entry? hfollows hentry hother hsame
    · exact hfollows.apart.ne_of_name_ne (h.names_ne date otherDate) hentry hother rfl

/-- Waiting records make no difference. -/
theorem Beside.withBuffer (h : writer.Beside other directory) (buffer : List ρ) :
    Beside { writer with buffer } other directory :=
  ⟨h.plain, h.other_plain, h.names_ne, h.sound, h.apart, h.held, h.other_held, h.separate⟩

/-- They keep apart when one of them writes what waits. -/
theorem Beside.flush (h : writer.Beside other directory) :
    Empties render writer now directory (writer.flush render now fault directory) ∧
      (writer.flush render now fault directory).2.1.Beside other
        (writer.flush render now fault directory).2.2 := by
  have hempties : Empties render writer now directory (writer.flush render now fault directory) :=
    empties_flush h.plain h.held h.sound h.apart
  generalize writer.flush render now fault directory = result at *
  have hlater := h.follows hempties.follows
  have hreaches : ∀ number, result.2.1.Reaches result.2.2 number →
      writer.Reaches result.2.2 number := by
    rintro number (⟨file, hactive, rfl⟩ | ⟨date, hentry⟩)
    · exact hempties.reaches file hactive
    · rw [hempties.prefix_eq] at hentry
      exact .inr ⟨date, hentry⟩
  refine ⟨hempties, ?_, h.other_plain, ?_, hlater.sound, hlater.apart, ?_, hlater.other_held,
    fun number hnumber => hlater.separate number (hreaches number hnumber)⟩
  · rw [hempties.prefix_eq]
    exact h.plain
  · rw [hempties.prefix_eq]
    exact h.names_ne
  · intro file hactive
    exact (hempties.reaches file hactive).lt hlater.held hlater.sound

/-- They keep apart when one of them takes a record. -/
theorem Beside.add (h : writer.Beside other directory) (record : ρ) :
    (writer.add render record now fault directory).2.1.Beside other
      (writer.add render record now fault directory).2.2 := by
  have hwaits := h.withBuffer (writer.buffer ++ [record])
  unfold LineWriter.add
  dsimp only
  split
  · exact hwaits.flush.2
  · exact hwaits

end Beside

end LineWriter

end TradeGate
