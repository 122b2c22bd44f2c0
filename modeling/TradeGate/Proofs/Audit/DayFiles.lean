import Mathlib.Data.List.Nodup
import TradeGate.Proofs.Audit.LineWriter
import TradeGate.Proofs.Time.Calendar

/-!
# Directories of day files

A directory in which only writers of day files have been at work is `Directory.Tidy`: nothing but
files stand in it, each under one name. Writing what waits adds to one file, which may be new, and
leaves the directory tidy (`LineWriter.flush_appends`).
-/

namespace TradeGate

/-! ## Names of day files -/

theorem utf8ByteSize_ofList_le (cs : List Char) :
    (String.ofList cs).utf8ByteSize ≤ 4 * cs.length := by
  induction cs using List.reverseRecOn with
  | nil => decide
  | append_singleton cs c ih =>
    have hc := c.utf8Size_le_four
    have happend : String.ofList (cs ++ [c]) = (String.ofList cs).push c := by
      apply String.toList_inj.1
      simp
    rw [happend, String.utf8ByteSize_push, List.length_append, List.length_singleton]
    omega

/-- A prefix of file names that is a short name itself. -/
structure LineWriter.IsPlain (filePrefix : String) : Prop where
  no_slash : '/' ∉ filePrefix.toList
  no_nul : '\x00' ∉ filePrefix.toList
  short : filePrefix.utf8ByteSize ≤ 200

namespace LineWriter

section Names

variable {filePrefix : String} {date : Date}

theorem toList_dayPath (filePrefix : String) (date : Date) : (dayPath filePrefix date).toList =
    filePrefix.toList ++ '_' :: (date.chars ++ ".jsonl".toList) := by
  unfold dayPath Date.text
  simp

/-- A character of a day's path that is not of the prefix. -/
theorem mem_toList_dayPath {c : Char} (h : c ∈ (dayPath filePrefix date).toList) :
    c ∈ filePrefix.toList ∨ c.isDigit = true ∨ c ∈ "+-_.jsonl".toList := by
  rw [toList_dayPath, List.mem_append, List.mem_cons, List.mem_append] at h
  rcases h with hplain | rfl | hdate | hending
  · exact .inl hplain
  · exact .inr (.inr (by decide))
  · rcases Date.mem_chars hdate with hdigit | rfl | rfl
    · exact .inr (.inl hdigit)
    · exact .inr (.inr (by decide))
    · exact .inr (.inr (by decide))
  · right
    right
    revert hending
    simp
    tauto

theorem not_mem_dayPath {c : Char} (hplain : c ∉ filePrefix.toList) (hdigit : c.isDigit = false)
    (hmark : c ∉ "+-_.jsonl".toList) : c ∉ (dayPath filePrefix date).toList := by
  intro hmem
  rcases mem_toList_dayPath hmem with h | h | h
  · exact hplain h
  · rw [hdigit] at h
    exact nomatch h
  · exact hmark h

theorem dayPath_ne {text : String} (h : text.toList.length ≤ 6) :
    dayPath filePrefix date ≠ text := by
  intro hsame
  rw [← hsame, toList_dayPath] at h
  simp at h
  omega

theorem steps_dayPath (hplain : '/' ∉ filePrefix.toList) :
    Path.steps (dayPath filePrefix date) = [dayPath filePrefix date] :=
  Path.steps_of_not_mem (not_mem_dayPath hplain (by decide) (by decide))
    (dayPath_ne (by decide)) (dayPath_ne (by decide))

theorem isAbsolute_dayPath (hplain : '/' ∉ filePrefix.toList) :
    Path.isAbsolute (dayPath filePrefix date) = false := by
  unfold Path.isAbsolute
  by_contra habsolute
  have hhead : (dayPath filePrefix date).toList.head? = some '/' := by simpa using habsolute
  exact not_mem_dayPath hplain (by decide) (by decide) (List.mem_of_mem_head? hhead)

theorem utf8ByteSize_dayPath_le (hplain : IsPlain filePrefix) (hyear : date.HasFourDigitYear) :
    (dayPath filePrefix date).utf8ByteSize ≤ Path.maxNameBytes := by
  have hdate : date.text.utf8ByteSize ≤ 4 * date.chars.length := utf8ByteSize_ofList_le _
  have hshort := hplain.short
  have hmark : "_".utf8ByteSize = 1 := rfl
  have hending : ".jsonl".utf8ByteSize = 6 := rfl
  rw [Date.length_chars hyear] at hdate
  unfold dayPath Path.maxNameBytes
  rw [String.utf8ByteSize_append, String.utf8ByteSize_append, String.utf8ByteSize_append]
  omega

/-- Earlier days have earlier names. -/
theorem dayPath_lt {other : Date} (h : date < other) (hyear : date.HasFourDigitYear)
    (hother : other.HasFourDigitYear) : dayPath filePrefix date < dayPath filePrefix other := by
  show (dayPath filePrefix date).toList < (dayPath filePrefix other).toList
  rw [toList_dayPath, toList_dayPath]
  apply List.append_left_lt
  rw [List.cons_lt_cons_iff]
  exact .inr ⟨rfl, Date.chars_append_lt h hyear hother _ _⟩

theorem dayPath_injective {other : Date} (hyear : date.HasFourDigitYear)
    (hother : other.HasFourDigitYear) (h : dayPath filePrefix date = dayPath filePrefix other) :
    date = other := by
  by_contra hne
  have hnumber : date.dayNumber ≠ other.dayNumber := fun hsame => hne (congrArg Date.mk hsame)
  rcases Int.lt_or_gt_of_ne hnumber with hlt | hgt
  · exact String.ne_of_lt (dayPath_lt hlt hyear hother) h
  · exact String.ne_of_lt (dayPath_lt hgt hother hyear) h.symm

/-- The name is one of a file of a day: the prefix, anything, and the ending. -/
def isDayName (filePrefix name : String) : Bool :=
  (filePrefix ++ "_").toList.isPrefixOf name.toList && ".jsonl".toList.isSuffixOf name.toList

theorem isDayName_dayPath (filePrefix : String) (date : Date) :
    isDayName filePrefix (dayPath filePrefix date) = true := by
  unfold isDayName
  rw [toList_dayPath, Bool.and_eq_true, List.isPrefixOf_iff_prefix, List.isSuffixOf_iff_suffix]
  constructor
  · exact ⟨date.chars ++ ".jsonl".toList, by simp⟩
  · exact ⟨filePrefix.toList ++ '_' :: date.chars, by simp⟩

/-- No name is one of days of two prefixes of which neither begins the other. -/
theorem isDayName_eq_false {other name : String}
    (hother : ¬ (filePrefix ++ "_").toList <+: (other ++ "_").toList)
    (hself : ¬ (other ++ "_").toList <+: (filePrefix ++ "_").toList)
    (h : isDayName filePrefix name = true) : isDayName other name = false := by
  unfold isDayName at h ⊢
  rw [Bool.and_eq_true, List.isPrefixOf_iff_prefix] at h
  by_contra hname
  rw [Bool.not_eq_false, Bool.and_eq_true, List.isPrefixOf_iff_prefix] at hname
  exact (List.prefix_or_prefix_of_prefix h.1 hname.1).elim hother hself

end Names

end LineWriter

/-! ## Tidy directories -/

namespace Directory

open LineWriter (dayPath)

/-- Nothing but files stand in the directory, each under one name. -/
structure Tidy (directory : Directory) : Prop where
  home : directory.entry? home = some .folder
  unique : (directory.entries.map Prod.fst).Nodup
  files : ∀ place entry, (place, entry) ∈ directory.entries →
    place = Directory.home ∨ ∃ name number, place = Directory.home ++ [name] ∧ entry = .file number
  apart : ∀ place other number, directory.entry? place = some (.file number) →
    directory.entry? other = some (.file number) → place = other
  sound : directory.Sound

theorem tidy_empty : empty.Tidy := by
  have hnone : ∀ place number, empty.entry? place ≠ some (.file number) :=
    fun place number hentry => absurd (sound_empty place number hentry) (Nat.not_lt_zero _)
  refine ⟨rfl, List.nodup_singleton _, fun place entry hmem => ?_,
    fun place other number hentry => absurd hentry (hnone place number), sound_empty⟩
  left
  exact congrArg Prod.fst (List.mem_singleton.1 hmem)

variable {directory : Directory} {filePrefix : String} {date : Date}

theorem resolve_dayPath (hhome : directory.entry? home = some .folder)
    (hplain : LineWriter.IsPlain filePrefix) (hyear : date.HasFourDigitYear) :
    directory.resolve (dayPath filePrefix date) = .ok (home ++ [dayPath filePrefix date]) := by
  have hnul : '\x00' ∉ (dayPath filePrefix date).toList :=
    LineWriter.not_mem_dayPath hplain.no_nul (by decide) (by decide)
  have hshort := LineWriter.utf8ByteSize_dayPath_le hplain hyear
  have hup : dayPath filePrefix date ≠ Path.up := LineWriter.dayPath_ne (by decide)
  have husable : Path.isUsable (dayPath filePrefix date) = true := by
    unfold Path.isUsable Path.maxBytes
    unfold Path.maxNameBytes at hshort
    simp [hnul]
    omega
  unfold resolve
  rw [husable, LineWriter.isAbsolute_dayPath hplain.no_slash, if_pos hhome,
    LineWriter.steps_dayPath hplain.no_slash]
  simp only [Bool.not_true, Bool.false_eq_true, if_false]
  rw [follow, if_neg hup, if_neg (Nat.not_lt.2 hshort), if_pos rfl]

/-- The path of a day leads to that name in the directory, or nowhere. -/
theorem eq_of_resolve_dayPath {place : Place} (hplain : '/' ∉ filePrefix.toList)
    (h : directory.resolve (dayPath filePrefix date) = .ok place) :
    place = home ++ [dayPath filePrefix date] := by
  have hup : dayPath filePrefix date ≠ Path.up := LineWriter.dayPath_ne (by decide)
  unfold resolve at h
  rw [LineWriter.isAbsolute_dayPath hplain, LineWriter.steps_dayPath hplain] at h
  simp only [follow, hup, Bool.false_eq_true, if_false, if_true] at h
  split_ifs at h
  exact (Except.ok.inj h).symm

theorem entry?_eq_lookup {place : Place} (hplace : place ≠ []) :
    directory.entry? place = directory.entries.lookup place := if_neg hplace

theorem mem_entries_of_eq_some {place : Place} {entry : Entry} (hplace : place ≠ [])
    (h : directory.entry? place = some entry) : (place, entry) ∈ directory.entries := by
  rw [entry?_eq_lookup hplace] at h
  obtain ⟨front, back, hentries, -⟩ := List.lookup_eq_some_iff.1 h
  rw [hentries]
  simp

/-- At a name in a tidy directory there is a file or nothing. -/
theorem Tidy.file_of_entry? (h : directory.Tidy) {name : String} {entry : Entry}
    (hentry : directory.entry? (Directory.home ++ [name]) = some entry) :
    ∃ number, entry = .file number := by
  rcases h.files _ _ (mem_entries_of_eq_some (by simp [Directory.home]) hentry) with
    hhome | ⟨_, number, -, hfile⟩
  · exact absurd hhome (by simp [Directory.home])
  · exact ⟨number, hfile⟩

/-- The directory with a new file under a name. -/
def withFile (directory : Directory) (name : String) : Directory :=
  { directory.put (home ++ [name]) (.file directory.contents.length) with
    contents := directory.contents ++ [""] }

theorem entry?_withFile_self (directory : Directory) (name : String) :
    Directory.entry? (directory.withFile name) (home ++ [name]) = some (.file directory.contents.length) :=
  directory.entry?_put_self (by simp [home]) _

theorem entry?_withFile_of_ne (directory : Directory) {name : String} {place : Place}
    (h : place ≠ home ++ [name]) : Directory.entry? (directory.withFile name) place = directory.entry? place :=
  directory.entry?_put_of_ne h _

/-- A new file under a free name keeps a directory tidy. -/
theorem Tidy.withFile (h : directory.Tidy) {name : String}
    (hfree : directory.entry? (Directory.home ++ [name]) = none) :
    (directory.withFile name).Tidy := by
  have hplace : Directory.home ++ [name] ≠ [] := by simp [Directory.home]
  have hnew : ∀ place number, Directory.entry? (directory.withFile name) place = some (.file number) →
      (place = Directory.home ++ [name] ∧ number = directory.contents.length) ∨
      (directory.entry? place = some (.file number) ∧ number < directory.contents.length) := by
    intro place number hentry
    rcases eq_or_of_entry?_put hplace hentry with ⟨hsame, hfile⟩ | hold
    · exact .inl ⟨hsame, Entry.file.inj hfile⟩
    · exact .inr ⟨hold, h.sound _ _ hold⟩
  refine ⟨?_, ?_, ?_, ?_, ?_⟩
  · rw [entry?_withFile_of_ne _ (by simp [Directory.home])]
    exact h.home
  · show ((Directory.home ++ [name]) :: directory.entries.map Prod.fst).Nodup
    refine List.nodup_cons.2 ⟨fun hmem => ?_, h.unique⟩
    rw [entry?_eq_lookup hplace, List.lookup_eq_none_iff] at hfree
    obtain ⟨⟨place, entry⟩, hentry, hsame⟩ := List.mem_map.1 hmem
    exact bne_iff_ne.1 (hfree _ hentry) hsame.symm
  · intro place entry hmem
    rcases List.mem_cons.1 hmem with heq | hmem
    · obtain ⟨rfl, rfl⟩ := Prod.mk.inj heq
      exact .inr ⟨name, _, rfl, rfl⟩
    · exact h.files place entry hmem
  · intro place other number hentry hother
    rcases hnew _ _ hentry with ⟨hsame, hnumber⟩ | ⟨hold, hlt⟩
    · rcases hnew _ _ hother with ⟨hsame', -⟩ | ⟨-, hlt'⟩
      · rw [hsame, hsame']
      · omega
    · rcases hnew _ _ hother with ⟨-, hnumber'⟩ | ⟨hold', -⟩
      · omega
      · exact h.apart _ _ _ hold hold'
  · intro place number hentry
    show number < (directory.contents ++ [""]).length
    rw [List.length_append, List.length_singleton]
    rcases hnew _ _ hentry with ⟨-, hnumber⟩ | ⟨-, hlt⟩ <;> omega

/-- Writing keeps a directory tidy. -/
theorem Tidy.write (h : directory.Tidy) (number : Nat) (text : String) :
    (directory.write number text).Tidy :=
  ⟨h.home, h.unique, h.files, h.apart, sound_write h.sound number text⟩

/-- A text was added to the file of a name, which may be new, and nothing else was changed. -/
structure Appends (directory : Directory) (name : String) (number : Nat) (text : String)
    (left : Directory) : Prop where
  stands : left.entry? (home ++ [name]) = some (.file number)
  stood : ∀ entry, directory.entry? (home ++ [name]) = some entry → entry = .file number
  others : ∀ place, place ≠ home ++ [name] → left.entry? place = directory.entry? place
  read_eq : left.read number = directory.read number ++ text
  read_others : ∀ other, other ≠ number → left.read other = directory.read other
  /-- A file that is new was empty. -/
  fresh : directory.entry? (home ++ [name]) = none → directory.read number = ""
  tidy : left.Tidy

theorem openFile_dayPath (h : directory.Tidy) (hplain : LineWriter.IsPlain filePrefix)
    (hyear : date.HasFourDigitYear) :
    (∃ number, directory.entry? (home ++ [dayPath filePrefix date]) = some (.file number) ∧
      directory.openFile (dayPath filePrefix date) = (.ok number, directory)) ∨
    (directory.entry? (home ++ [dayPath filePrefix date]) = none ∧
      directory.openFile (dayPath filePrefix date) =
        (.ok directory.contents.length, directory.withFile (dayPath filePrefix date))) := by
  unfold openFile
  rw [resolve_dayPath h.home hplain hyear]
  dsimp only
  cases hentry : directory.entry? (home ++ [dayPath filePrefix date]) with
  | none => exact .inr ⟨rfl, rfl⟩
  | some entry =>
    obtain ⟨number, rfl⟩ := h.file_of_entry? hentry
    exact .inl ⟨number, rfl, rfl⟩

/-- A file under a name is opened, and made if the name is free. -/
theorem openFile_appends (h : directory.Tidy) (hplain : LineWriter.IsPlain filePrefix)
    (hyear : date.HasFourDigitYear) (text : String) :
    ∃ number opened, directory.openFile (dayPath filePrefix date) = (.ok number, opened) ∧
      Appends directory (dayPath filePrefix date) number text
        (opened.write number (opened.read number ++ text)) := by
  rcases openFile_dayPath h hplain hyear with ⟨number, hentry, hopen⟩ | ⟨hfree, hopen⟩
  · have hlt := h.sound _ _ hentry
    refine ⟨number, directory, hopen, hentry, ?_, fun _ _ => rfl, read_write_self hlt _,
      fun other hne => read_write_of_ne hne _, ?_, h.write _ _⟩
    · intro entry hother
      exact Option.some.inj (hother.symm.trans hentry)
    · intro hfree
      rw [hentry] at hfree
      exact nomatch hfree
  · have hopens := opens_of_ok hopen
    have htidy := h.withFile hfree
    have hself := directory.entry?_withFile_self (dayPath filePrefix date)
    have hlt := htidy.sound _ _ hself
    refine ⟨_, _, hopen, hself, ?_, fun place hne => directory.entry?_withFile_of_ne hne, ?_, ?_, ?_,
      htidy.write _ _⟩
    · intro entry hentry
      rw [hfree] at hentry
      exact nomatch hentry
    · rw [read_write_self hlt, hopens.read_eq]
    · intro other hne
      rw [read_write_of_ne hne, hopens.read_eq]
    · intro _
      exact List.getD_eq_default _ _ (Nat.le_refl _)

/-! ## What is listed -/

theorem mem_entries_iff (h : directory.Tidy) {place : Place} {entry : Entry} (hplace : place ≠ []) :
    (place, entry) ∈ directory.entries ↔ directory.entry? place = some entry := by
  refine ⟨fun hmem => ?_, mem_entries_of_eq_some hplace⟩
  obtain ⟨before, after, hsplit⟩ := List.append_of_mem hmem
  have hunique := h.unique
  rw [hsplit, List.map_append, List.nodup_append] at hunique
  rw [entry?_eq_lookup hplace, List.lookup_eq_some_iff]
  refine ⟨before, after, hsplit, fun earlier hearlier => bne_iff_ne.2 fun hsame => ?_⟩
  exact hunique.2.2 _ (List.mem_map_of_mem hearlier) place (by simp) hsame.symm

/-- The name of a place in the directory itself. -/
def nameAt? (place : Place) : Option String :=
  if place.dropLast = home then place.getLast? else none

theorem eq_of_nameAt? {place : Place} {name : String} (h : nameAt? place = some name) :
    place = home ++ [name] := by
  unfold nameAt? at h
  split at h
  · rename_i hfront
    rw [← hfront, List.dropLast_append_getLast? name h]
  · exact nomatch h

theorem names_eq (directory : Directory) : directory.names =
    directory.entries.filterMap fun (place, entry) => (nameAt? place).map (·, entry) := by
  unfold names nameAt?
  congr 1
  funext (place, entry)
  dsimp only
  split <;> rfl

theorem mem_names_iff (h : directory.Tidy) {name : String} {entry : Entry} :
    (name, entry) ∈ directory.names ↔ directory.entry? (home ++ [name]) = some entry := by
  have hplace : home ++ [name] ≠ [] := by simp [home]
  rw [names_eq, List.mem_filterMap, ← mem_entries_iff h hplace]
  constructor
  · rintro ⟨⟨place, other⟩, hmem, hname⟩
    obtain ⟨found, hfound, hsame⟩ := Option.map_eq_some_iff.1 hname
    obtain ⟨rfl, rfl⟩ := Prod.mk.inj hsame
    rwa [eq_of_nameAt? hfound] at hmem
  · intro hmem
    exact ⟨_, hmem, rfl⟩

/-- No name stands for two things. -/
theorem nodup_names (h : directory.Tidy) : (directory.names.map Prod.fst).Nodup := by
  have hnames : directory.names.map Prod.fst =
      (directory.entries.map Prod.fst).filterMap nameAt? := by
    rw [names_eq, List.map_filterMap, List.filterMap_map]
    congr 1
    funext (place, entry)
    show Option.map Prod.fst (Option.map (·, entry) (nameAt? place)) = nameAt? place
    rw [Option.map_map]
    exact Option.map_id'
  rw [hnames]
  refine List.Nodup.filterMap (fun place other name hplace hother => ?_) h.unique
  rw [eq_of_nameAt? hplace, eq_of_nameAt? hother]

/-- What is there, by name. -/
def sorted (directory : Directory) : List (String × Entry) :=
  directory.names.mergeSort fun a b => a.1 ≤ b.1

theorem sorted_perm (directory : Directory) : directory.sorted.Perm directory.names :=
  List.mergeSort_perm _ _

theorem pairwise_sorted (h : directory.Tidy) :
    directory.sorted.Pairwise fun a b => a.1 < b.1 := by
  have hordered : directory.sorted.Pairwise fun a b => decide (a.1 ≤ b.1) = true := by
    refine List.pairwise_mergeSort (fun a b c hab hbc => ?_) (fun a b => ?_) directory.names
    · exact decide_eq_true (String.le_trans (of_decide_eq_true hab) (of_decide_eq_true hbc))
    · simpa using String.le_total a.1 b.1
  have hdistinct : directory.sorted.Pairwise fun a b => a.1 ≠ b.1 :=
    List.pairwise_map.1 ((directory.sorted_perm.map Prod.fst).nodup_iff.2 (nodup_names h))
  refine hordered.imp₂ (fun a b hle hne => ?_) hdistinct
  exact String.not_le.1 fun hge => hne (String.le_antisymm (of_decide_eq_true hle) hge)

/-- What is listed of something there: its name, and what can be read in it. -/
def listed (directory : Directory) : String × Entry → String × Option String
  | (name, .file number) => (name, some (directory.read number))
  | (name, .folder) => (name, none)

theorem listed_fst (directory : Directory) (item : String × Entry) :
    (directory.listed item).1 = item.1 := by
  obtain ⟨name, entry⟩ := item
  cases entry <;> rfl

theorem listing_eq (directory : Directory) :
    directory.listing = directory.sorted.map directory.listed := by
  unfold listing sorted
  apply List.map_congr_left
  rintro ⟨name, entry⟩ -
  cases entry <;> rfl

/-- The lines of the files of days with this prefix, in the order of their names. -/
def dayLines (directory : Directory) (filePrefix : String) : List String :=
  (directory.listing.filter fun item => LineWriter.isDayName filePrefix item.1).flatMap
    fun item => (Text.lines (item.2.getD "").toList).map String.ofList

end Directory

/-! ## Writing what waits -/

namespace LineWriter

variable {ρ : Type} {render : ρ → String} {writer : LineWriter ρ} {directory : Directory}
  {now : Instant}

/-- What waits is put at the end of the file of the day. -/
theorem flush_appends (htidy : directory.Tidy) (hsynced : writer.Synced directory)
    (hplain : IsPlain writer.filePrefix) (hyear : now.date.HasFourDigitYear)
    (hbuffer : writer.buffer ≠ []) :
    ∃ number left, writer.flush render now none directory =
        (.ok (), { writer with
          buffer := []
          active := some ⟨number, now.date, (left.read number).length⟩ }, left) ∧
      directory.Appends (dayPath writer.filePrefix now.date) number (batch render writer.buffer)
        left := by
  obtain ⟨number, opened, hopen, happends⟩ :=
    Directory.openFile_appends htidy hplain hyear (batch render writer.buffer)
  have hread : opened.read number = directory.read number := (Directory.opens_of_ok hopen).read_eq _
  have hpath : writer.filePath now.date.text = dayPath writer.filePrefix now.date := rfl
  refine ⟨number, _, ?_, happends⟩
  rw [happends.read_eq, String.length_append]
  unfold flush
  rw [if_neg (by simpa using hbuffer)]
  dsimp only
  rw [openFor_eq hsynced, hpath, hopen]
  dsimp only [Except.map, append]
  rw [hread]

end LineWriter

end TradeGate
