import TradeGate.Proofs.Audit.DayFiles

/-!
# The files of a writer

`LineWriter.Shelf` lists the files of a writer's days with the records in them. Writing what waits
adds to the last of them or puts a new one behind it (`Shelf.after_appends`), and another writer
leaves them alone (`Shelf.of_spares`). So a writer that can write keeps the records that it was
given, in order and once each, in its files or waiting (`Keeps.flush`, `Keeps.add`), and in the order
of their names the files hold the lines of these records (`Shelf.dayLines_eq`).
-/

namespace TradeGate

/-! ## What is left alone -/

namespace Directory

open LineWriter (dayPath isDayName isDayName_dayPath)

/-- Only files of the days of a prefix were made or added to. -/
structure Spares (filePrefix : String) (directory left : Directory) : Prop where
  tidy : left.Tidy
  entry_eq : ∀ name, isDayName filePrefix name = false →
    left.entry? (home ++ [name]) = directory.entry? (home ++ [name])
  read_eq : ∀ name number, isDayName filePrefix name = false →
    directory.entry? (home ++ [name]) = some (.file number) →
    left.read number = directory.read number

theorem Tidy.spares {directory : Directory} (h : directory.Tidy) (filePrefix : String) :
    directory.Spares filePrefix directory :=
  ⟨h, fun _ _ => rfl, fun _ _ _ _ => rfl⟩

variable {directory left : Directory} {name : String} {number : Nat} {text : String}

/-- The contents of files under other names stay. -/
theorem Appends.read_of_ne (h : directory.Appends name number text left) {place : Place} {other : Nat}
    (hne : place ≠ home ++ [name]) (hentry : directory.entry? place = some (.file other)) :
    left.read other = directory.read other := by
  apply h.read_others
  rintro rfl
  rw [← h.others place hne] at hentry
  exact hne (h.tidy.apart _ _ _ hentry h.stands)

theorem Appends.spares {filePrefix : String} (h : directory.Appends name number text left)
    (hname : isDayName filePrefix name = true) : directory.Spares filePrefix left := by
  have hne : ∀ other, isDayName filePrefix other = false → home ++ [other] ≠ home ++ [name] := by
    intro other hother hsame
    have hsame : other = name := by simpa using hsame
    rw [hsame, hname] at hother
    exact nomatch hother
  refine ⟨h.tidy, ?_, ?_⟩
  · intro other hother
    exact h.others _ (hne other hother)
  · intro other found hother hentry
    exact h.read_of_ne (hne other hother) hentry

end Directory

namespace LineWriter

open Directory (home)

/-- A file of a day and the records in it. -/
structure DayFile (ρ : Type) where
  date : Date
  number : Nat
  records : List ρ

/-- The files of the days of a prefix: these and no others stand in the directory under names with
it. The file that is held open is one of them. -/
structure Shelf {ρ : Type} (render : ρ → String) (filePrefix : String) (directory : Directory)
    (active : Option OpenFile) (files : List (DayFile ρ)) : Prop where
  stands : ∀ file ∈ files,
    directory.entry? (home ++ [dayPath filePrefix file.date]) = some (.file file.number)
  only : ∀ name entry, isDayName filePrefix name = true →
    directory.entry? (home ++ [name]) = some entry →
    ∃ file ∈ files, name = dayPath filePrefix file.date
  contents : ∀ file ∈ files, directory.read file.number = batch render file.records
  ascending : files.Pairwise fun a b => a.date < b.date
  years : ∀ file ∈ files, file.date.HasFourDigitYear
  active : ∀ opened, active = some opened → ∃ file ∈ files,
    opened.number = file.number ∧ opened.date = file.date ∧
      opened.length = (directory.read file.number).length

section Shelf

variable {ρ : Type} {render : ρ → String} {filePrefix : String} {directory left : Directory}
  {active : Option OpenFile} {files : List (DayFile ρ)}

theorem Shelf.synced {writer : LineWriter ρ}
    (h : Shelf render writer.filePrefix directory writer.active files) (htidy : directory.Tidy)
    (hplain : IsPlain writer.filePrefix) : writer.Synced directory := by
  intro opened hactive
  obtain ⟨file, hfile, hnumber, hdate, hlength⟩ := h.active opened hactive
  rw [hnumber, hdate]
  refine ⟨Directory.fileAt?_eq_some_iff.2 ⟨_, ?_, h.stands file hfile⟩, hlength⟩
  exact Directory.resolve_dayPath htidy.home hplain (h.years file hfile)

/-- Another writer leaves the files alone. -/
theorem Shelf.of_spares (h : Shelf render filePrefix directory active files) {other : String}
    (hspares : directory.Spares other left)
    (hother : ∀ name, isDayName filePrefix name = true → isDayName other name = false) :
    Shelf render filePrefix left active files := by
  have hname : ∀ file : DayFile ρ, isDayName other (dayPath filePrefix file.date) = false :=
    fun file => hother _ (isDayName_dayPath _ _)
  have hread : ∀ file ∈ files, left.read file.number = directory.read file.number :=
    fun file hfile => hspares.read_eq _ _ (hname file) (h.stands file hfile)
  refine ⟨?_, ?_, ?_, h.ascending, h.years, ?_⟩
  · intro file hfile
    rw [hspares.entry_eq _ (hname file)]
    exact h.stands file hfile
  · intro name entry hday hentry
    rw [hspares.entry_eq _ (hother name hday)] at hentry
    exact h.only name entry hday hentry
  · intro file hfile
    rw [hread file hfile]
    exact h.contents file hfile
  · intro opened hactive
    obtain ⟨file, hfile, hnumber, hdate, hlength⟩ := h.active opened hactive
    rw [← hread file hfile] at hlength
    exact ⟨file, hfile, hnumber, hdate, hlength⟩

section After

variable {today : Date} {number length : Nat}

/-- The file of the day stands behind those of the days before. -/
theorem Shelf.extend (h : Shelf render filePrefix directory active files)
    (hyear : today.HasFourDigitYear) {text : String}
    (happends : directory.Appends (dayPath filePrefix today) number text left)
    {front : List (DayFile ρ)} (hfront : front.Sublist files)
    (hbefore : ∀ file ∈ front, file.date < today)
    (hall : ∀ file ∈ files, file ∈ front ∨ file.date = today) {records : List ρ}
    (hread : left.read number = batch render records) (hlength : length = (left.read number).length) :
    Shelf render filePrefix left (some ⟨number, today, length⟩)
      (front ++ [⟨today, number, records⟩]) := by
  have hne : ∀ file ∈ front, home ++ [dayPath filePrefix file.date] ≠
      home ++ [dayPath filePrefix today] := by
    intro file hfile hsame
    have hyears := h.years file (hfront.subset hfile)
    have hdate : file.date = today := dayPath_injective hyears hyear (by simpa using hsame)
    exact Date.ne_of_lt (hbefore file hfile) hdate
  refine ⟨?_, ?_, ?_, ?_, ?_, ?_⟩
  · rw [List.forall_mem_append, List.forall_mem_singleton]
    refine ⟨fun file hfile => ?_, happends.stands⟩
    rw [happends.others _ (hne file hfile)]
    exact h.stands file (hfront.subset hfile)
  · intro name entry hday hentry
    by_cases hsame : name = dayPath filePrefix today
    · exact ⟨⟨today, number, records⟩, by simp, hsame⟩
    · rw [happends.others _ (by simpa using hsame)] at hentry
      obtain ⟨file, hfile, hname⟩ := h.only name entry hday hentry
      rcases hall file hfile with hold | hdate
      · exact ⟨file, List.mem_append_left _ hold, hname⟩
      · rw [hdate] at hname
        exact absurd hname hsame
  · rw [List.forall_mem_append, List.forall_mem_singleton]
    refine ⟨fun file hfile => ?_, hread⟩
    have hold := hfront.subset hfile
    rw [happends.read_of_ne (hne file hfile) (h.stands file hold)]
    exact h.contents file hold
  · rw [List.pairwise_append]
    refine ⟨h.ascending.sublist hfront, List.pairwise_singleton _ _, ?_⟩
    intro file hfile last hlast
    rw [List.mem_singleton.1 hlast]
    exact hbefore file hfile
  · rw [List.forall_mem_append, List.forall_mem_singleton]
    exact ⟨fun file hfile => h.years file (hfront.subset hfile), hyear⟩
  · intro opened hactive
    obtain rfl := Option.some.inj hactive
    exact ⟨⟨today, number, records⟩, by simp, rfl, rfl, hlength⟩

/-- No file is of today yet, or the last one is. -/
theorem Shelf.before_or_today (h : Shelf render filePrefix directory active files)
    (htoday : ∀ file ∈ files, file.date ≤ today) :
    (∀ file ∈ files, file.date < today) ∨ ∃ front file, files = front ++ [file] ∧
      file.date = today ∧ ∀ earlier ∈ front, earlier.date < today := by
  by_cases hnew : ∀ file ∈ files, file.date < today
  · exact .inl hnew
  right
  simp only [not_forall] at hnew
  obtain ⟨file, hfile, hge⟩ := hnew
  have hle : file.date.dayNumber ≤ today.dayNumber := htoday file hfile
  have hdate : file.date = today := congrArg Date.mk (Int.le_antisymm hle (Int.not_lt.1 hge))
  obtain ⟨front, back, rfl⟩ := List.append_of_mem hfile
  have hascending := h.ascending
  rw [List.pairwise_append, List.pairwise_cons] at hascending
  obtain ⟨-, ⟨hback, -⟩, hbefore⟩ := hascending
  -- no day comes after today
  have hnone : back = [] := by
    refine List.eq_nil_iff_forall_not_mem.2 fun later hlater => ?_
    have hlt := hback later hlater
    have hle := htoday later (by simp [hlater])
    rw [hdate] at hlt
    exact absurd hle (Int.not_le.2 hlt)
  rw [hnone]
  refine ⟨front, file, rfl, hdate, fun earlier hearlier => ?_⟩
  rw [← hdate]
  exact hbefore earlier hearlier file List.mem_cons_self

/-- What is put at the end of the file of the day comes after all that was written before. -/
theorem Shelf.after_appends (h : Shelf render filePrefix directory active files)
    (hyear : today.HasFourDigitYear) (htoday : ∀ file ∈ files, file.date ≤ today)
    {records : List ρ}
    (happends : directory.Appends (dayPath filePrefix today) number
      (batch render records) left) (hlength : length = (left.read number).length) :
    ∃ next, Shelf render filePrefix left (some ⟨number, today, length⟩) next ∧
      next.flatMap DayFile.records = files.flatMap DayFile.records ++ records ∧
      ∀ file ∈ next, file.date ≤ today := by
  have hread := happends.read_eq
  rcases h.before_or_today htoday with hnew | ⟨front, file, rfl, hdate, hbefore⟩
  · have hfree : directory.entry? (home ++ [dayPath filePrefix today]) = none := by
      by_contra hentry
      obtain ⟨entry, hentry⟩ := Option.ne_none_iff_exists'.1 hentry
      obtain ⟨file, hfile, hname⟩ := h.only _ _ (isDayName_dayPath _ _) hentry
      have hdate := dayPath_injective hyear (h.years file hfile) hname
      exact Date.ne_of_lt (hnew file hfile) hdate.symm
    rw [happends.fresh hfree, String.empty_append] at hread
    refine ⟨_, h.extend hyear happends (.refl _) hnew (fun file => .inl) hread hlength, by simp, ?_⟩
    rw [List.forall_mem_append, List.forall_mem_singleton]
    exact ⟨htoday, Int.le_refl _⟩
  · have hfile : file ∈ front ++ [file] := by simp
    have hnumber : file.number = number := by
      have hstands := h.stands file hfile
      rw [hdate] at hstands
      exact Entry.file.inj (happends.stood _ hstands)
    rw [← hnumber, h.contents file hfile, ← batch_append, hnumber] at hread
    have hall : ∀ other ∈ front ++ [file], other ∈ front ∨ other.date = today := by
      rw [List.forall_mem_append, List.forall_mem_singleton]
      exact ⟨fun earlier => .inl, .inr hdate⟩
    refine ⟨_, h.extend hyear happends (List.sublist_append_left _ _) hbefore hall hread hlength,
      by simp, ?_⟩
    rw [List.forall_mem_append, List.forall_mem_singleton]
    exact ⟨fun earlier hearlier => Int.le_of_lt (hbefore earlier hearlier), Int.le_refl _⟩

end After

/-! ## What is read -/

theorem Shelf.filter_sorted (h : Shelf render filePrefix directory active files)
    (htidy : directory.Tidy) :
    (directory.sorted.filter fun item => isDayName filePrefix item.1) =
      files.map fun file => (dayPath filePrefix file.date, Entry.file file.number) := by
  have hlisted : (directory.sorted.filter fun item => isDayName filePrefix item.1).Pairwise
      fun a b => a.1 < b.1 := (Directory.pairwise_sorted htidy).filter _
  have hfiles : (files.map fun file =>
      (dayPath filePrefix file.date, Entry.file file.number)).Pairwise fun a b => a.1 < b.1 := by
    rw [List.pairwise_map]
    refine h.ascending.imp_of_mem fun ha hb hlt => ?_
    exact dayPath_lt hlt (h.years _ ha) (h.years _ hb)
  have hdistinct : ∀ {items : List (String × Entry)}, items.Pairwise (fun a b => a.1 < b.1) →
      items.Nodup := by
    intro items hitems
    refine hitems.imp fun hlt hsame => ?_
    rw [hsame] at hlt
    exact String.lt_irrefl _ hlt
  refine List.Perm.eq_of_pairwise (fun a b _ _ hab hba => ?_) hlisted hfiles ?_
  · exact absurd hab (String.lt_asymm hba)
  · rw [List.perm_ext_iff_of_nodup (hdistinct hlisted) (hdistinct hfiles)]
    rintro ⟨name, entry⟩
    rw [List.mem_filter, directory.sorted_perm.mem_iff, Directory.mem_names_iff htidy,
      List.mem_map]
    constructor
    · rintro ⟨hentry, hday⟩
      obtain ⟨file, hfile, rfl⟩ := h.only name entry hday hentry
      rw [h.stands file hfile] at hentry
      exact ⟨file, hfile, Prod.ext rfl (Option.some.inj hentry)⟩
    · rintro ⟨file, hfile, hsame⟩
      obtain ⟨rfl, rfl⟩ := Prod.mk.inj hsame
      exact ⟨h.stands file hfile, isDayName_dayPath _ _⟩

/-- In the order of their names, the files hold a line for each record. -/
theorem Shelf.dayLines_eq (h : Shelf render filePrefix directory active files)
    (htidy : directory.Tidy) (hrender : ∀ record, '\n' ∉ (render record).toList) :
    directory.dayLines filePrefix = (files.flatMap DayFile.records).map render := by
  have hlines : ∀ file ∈ files,
      (Text.lines (directory.read file.number).toList).map String.ofList =
        file.records.map render := by
    intro file hfile
    have hwhole : ∀ line ∈ file.records.map fun record => (render record).toList, '\n' ∉ line := by
      intro line hline
      obtain ⟨record, -, rfl⟩ := List.mem_map.1 hline
      exact hrender record
    rw [h.contents file hfile, toList_batch, Text.lines_flatMap hwhole, List.map_map]
    exact List.map_congr_left fun record _ => String.ofList_toList
  have hname : ((fun item => isDayName filePrefix item.1) ∘ directory.listed) =
      fun item => isDayName filePrefix item.1 := by
    funext item
    exact congrArg (isDayName filePrefix) (directory.listed_fst item)
  unfold Directory.dayLines
  rw [Directory.listing_eq, List.filter_map, hname, h.filter_sorted htidy, List.map_map, List.flatMap_map,
    List.map_flatMap]
  exact List.flatMap_congr hlines

end Shelf

/-! ## A writer that can write -/

section Keeps

variable {ρ : Type} {render : ρ → String} {directory left : Directory} {writer : LineWriter ρ}
  {records : List ρ} {today : Date} {now : Instant}

/-- The records that a writer was given are in its files, in order and once each, or wait. No file
is of a later day. -/
def Keeps (render : ρ → String) (writer : LineWriter ρ) (directory : Directory) (records : List ρ)
    (today : Date) : Prop :=
  ∃ files, Shelf render writer.filePrefix directory writer.active files ∧
    files.flatMap DayFile.records ++ writer.buffer = records ∧ ∀ file ∈ files, file.date ≤ today

/-- What the call of a writer that can write comes to. -/
structure Written (render : ρ → String) (filePrefix : String) (directory : Directory)
    (records : List ρ) (today : Date) (result : Except DiskError Unit × LineWriter ρ × Directory) :
    Prop where
  answer : result.1 = .ok ()
  prefix_eq : result.2.1.filePrefix = filePrefix
  keeps : Keeps render result.2.1 result.2.2 records today
  spares : directory.Spares filePrefix result.2.2

theorem Keeps.mono (h : Keeps render writer directory records today) {later : Date}
    (hlater : today ≤ later) : Keeps render writer directory records later := by
  obtain ⟨files, hshelf, hrecords, htoday⟩ := h
  exact ⟨files, hshelf, hrecords, fun file hfile => Int.le_trans (htoday file hfile) hlater⟩

theorem Keeps.of_spares (h : Keeps render writer directory records today) {other : String}
    (hspares : directory.Spares other left)
    (hother : ∀ name, isDayName writer.filePrefix name = true → isDayName other name = false) :
    Keeps render writer left records today := by
  obtain ⟨files, hshelf, hrecords, htoday⟩ := h
  exact ⟨files, hshelf.of_spares hspares hother, hrecords, htoday⟩

/-- Writing what waits keeps the records, and then none waits. -/
theorem Keeps.flush (h : Keeps render writer directory records now.date) (htidy : directory.Tidy)
    (hplain : IsPlain writer.filePrefix) (hyear : now.date.HasFourDigitYear) :
    Written render writer.filePrefix directory records now.date (writer.flush render now none directory) ∧
      (writer.flush render now none directory).2.1.buffer = [] := by
  obtain ⟨files, hshelf, hrecords, htoday⟩ := h
  by_cases hbuffer : writer.buffer = []
  · have hidle : writer.flush render now none directory = (.ok (), writer, directory) := by
      unfold LineWriter.flush
      rw [if_pos (by simpa using hbuffer)]
    rw [hidle]
    exact ⟨⟨rfl, rfl, ⟨files, hshelf, hrecords, htoday⟩, htidy.spares _⟩, hbuffer⟩
  · obtain ⟨number, left, hflush, happends⟩ :=
      flush_appends htidy (hshelf.synced htidy hplain) hplain hyear hbuffer
    obtain ⟨next, hnext, hall, hdates⟩ := hshelf.after_appends hyear htoday happends rfl
    rw [hflush]
    refine ⟨⟨rfl, rfl, ⟨next, hnext, ?_, hdates⟩, happends.spares (isDayName_dayPath _ _)⟩, rfl⟩
    rw [hall, List.append_nil, hrecords]

/-- Once nothing waits the files hold a line for each record. -/
theorem Keeps.dayLines_eq (h : Keeps render writer directory records today)
    (htidy : directory.Tidy) (hbuffer : writer.buffer = [])
    (hrender : ∀ record, '\n' ∉ (render record).toList) :
    directory.dayLines writer.filePrefix = records.map render := by
  obtain ⟨files, hshelf, hrecords, -⟩ := h
  rw [hbuffer, List.append_nil] at hrecords
  rw [hshelf.dayLines_eq htidy hrender, hrecords]

/-- One more record is kept behind the others. -/
theorem Keeps.add (h : Keeps render writer directory records now.date) (htidy : directory.Tidy)
    (hplain : IsPlain writer.filePrefix) (hyear : now.date.HasFourDigitYear) (record : ρ) :
    Written render writer.filePrefix directory (records ++ [record]) now.date
      (writer.add render record now none directory) := by
  obtain ⟨files, hshelf, hrecords, htoday⟩ := h
  have hwaits : Keeps render { writer with buffer := writer.buffer ++ [record] } directory
      (records ++ [record]) now.date := by
    refine ⟨files, hshelf, ?_, htoday⟩
    rw [← hrecords, List.append_assoc]
  unfold LineWriter.add
  dsimp only
  split
  · exact (hwaits.flush htidy hplain hyear).1
  · exact ⟨rfl, rfl, hwaits, htidy.spares _⟩

end Keeps

end LineWriter

end TradeGate
