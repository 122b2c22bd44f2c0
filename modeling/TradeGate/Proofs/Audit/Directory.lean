import Mathlib.Data.List.GetD
import TradeGate.Audit.Directory

/-!
# What a path names

`Directory.fileAt?` is the file that a path names. A directory that has come to hold more, and has
lost nothing, still names what it named (`Directory.Holds.fileAt?_eq_some`); opening a file, writing
to one and making the directory only add to it.
-/

namespace TradeGate

namespace Directory

/-- The file that a path names. -/
def fileAt? (directory : Directory) (path : String) : Option Nat :=
  match directory.resolve path with
  | .error _ => none
  | .ok place =>
    match directory.entry? place with
    | some (.file number) => some number
    | _ => none

/-- Every file that stands somewhere has contents. -/
def Sound (directory : Directory) : Prop :=
  ∀ place number, directory.entry? place = some (.file number) → number < directory.contents.length

/-- All that stands in the earlier directory stands in this one. -/
def Holds (directory earlier : Directory) : Prop :=
  ∀ place entry, earlier.entry? place = some entry → directory.entry? place = some entry

variable {directory earlier : Directory} {place folder : Place} {path : String} {number : Nat}

theorem Holds.refl (directory : Directory) : directory.Holds directory := fun _ _ h => h

theorem Holds.trans {earliest : Directory} (h : directory.Holds earlier)
    (h' : earlier.Holds earliest) : directory.Holds earliest :=
  fun place entry hentry => h place entry (h' place entry hentry)

theorem Holds.follow_eq_ok (h : directory.Holds earlier) {steps : List String}
    (hfollow : earlier.follow folder steps = .ok place) :
    directory.follow folder steps = .ok place := by
  induction steps generalizing folder with
  | nil => exact hfollow
  | cons name rest ih =>
    -- the tests on the name have one answer; only an entry could be missing, and none is
    rw [follow] at hfollow ⊢
    split at hfollow
    · rw [if_pos (by assumption)]
      exact ih hfollow
    · rw [if_neg (by assumption)]
      split at hfollow
      · exact nomatch hfollow
      · rw [if_neg (by assumption)]
        split at hfollow
        · rw [if_pos (by assumption)]
          exact hfollow
        · rw [if_neg (by assumption)]
          cases hentry : earlier.entry? (folder ++ [name]) with
          | none =>
            rw [hentry] at hfollow
            exact nomatch hfollow
          | some entry =>
            rw [hentry] at hfollow
            rw [h _ _ hentry]
            cases entry with
            | file number => exact nomatch hfollow
            | folder => exact ih hfollow

theorem Holds.resolve_eq_ok (h : directory.Holds earlier)
    (hresolve : earlier.resolve path = .ok place) : directory.resolve path = .ok place := by
  unfold resolve at hresolve ⊢
  split at hresolve
  · exact nomatch hresolve
  · rw [if_neg (by assumption)]
    split at hresolve
    · rw [if_pos (by assumption)]
      exact h.follow_eq_ok hresolve
    · rw [if_neg (by assumption)]
      split at hresolve
      · rename_i hhome
        rw [if_pos (h _ _ hhome)]
        exact h.follow_eq_ok hresolve
      · exact nomatch hresolve

theorem fileAt?_eq_some_iff : directory.fileAt? path = some number ↔
    ∃ place, directory.resolve path = .ok place ∧ directory.entry? place = some (.file number) := by
  unfold fileAt?
  cases hresolve : directory.resolve path with
  | error cause => exact iff_of_false (fun h => nomatch h) (fun ⟨_, h, _⟩ => nomatch h)
  | ok place =>
    dsimp only
    constructor
    · intro h
      refine ⟨place, rfl, ?_⟩
      cases hentry : directory.entry? place with
      | none =>
        rw [hentry] at h
        exact nomatch h
      | some entry =>
        rw [hentry] at h
        cases entry with
        | folder => exact nomatch h
        | file found => rw [← Option.some.inj h]
    · rintro ⟨other, hplace, hentry⟩
      obtain rfl := Except.ok.inj hplace
      rw [hentry]

/-- What a path names it still names when more stands in the directory. -/
theorem Holds.fileAt?_eq_some (h : directory.Holds earlier)
    (hfile : earlier.fileAt? path = some number) : directory.fileAt? path = some number := by
  obtain ⟨place, hresolve, hentry⟩ := fileAt?_eq_some_iff.1 hfile
  exact fileAt?_eq_some_iff.2 ⟨place, h.resolve_eq_ok hresolve, h _ _ hentry⟩

theorem Sound.lt_of_fileAt? (h : directory.Sound) (hfile : directory.fileAt? path = some number) :
    number < directory.contents.length := by
  obtain ⟨place, _, hentry⟩ := fileAt?_eq_some_iff.1 hfile
  exact h place number hentry

theorem sound_empty : empty.Sound := by
  intro place number hentry
  unfold entry? empty at hentry
  split at hentry
  · exact nomatch hentry
  · rw [List.lookup_cons] at hentry
    split at hentry
    · exact nomatch hentry
    · exact nomatch hentry

/-! ## Putting, writing, opening and making -/

theorem entry?_put_self (directory : Directory) (hplace : place ≠ []) (entry : Entry) :
    Directory.entry? (directory.put place entry) place = some entry := by
  unfold entry? put
  rw [if_neg hplace]
  exact List.lookup_cons_self

theorem entry?_put_of_ne (directory : Directory) {other : Place} (hne : other ≠ place)
    (entry : Entry) :
    Directory.entry? (directory.put place entry) other = directory.entry? other := by
  unfold entry? put
  split
  · rfl
  · rw [List.lookup_cons, beq_false_of_ne hne]

theorem eq_or_of_entry?_put {other : Place} {entry found : Entry} (hplace : place ≠ [])
    (h : Directory.entry? (directory.put place entry) other = some found) :
    (other = place ∧ found = entry) ∨ directory.entry? other = some found := by
  by_cases hsame : other = place
  · rw [hsame, entry?_put_self _ hplace] at h
    exact .inl ⟨hsame, (Option.some.inj h).symm⟩
  · rw [entry?_put_of_ne _ hsame] at h
    exact .inr h

theorem holds_put (hfree : directory.entry? place = none) (entry : Entry) :
    (directory.put place entry).Holds directory := by
  intro other found hfound
  by_cases hsame : other = place
  · rw [hsame, hfree] at hfound
    exact nomatch hfound
  · rw [entry?_put_of_ne directory hsame, hfound]

theorem ne_nil_of_entry?_eq_none (hfree : directory.entry? place = none) : place ≠ [] := by
  rintro rfl
  exact nomatch hfree

theorem read_write_self (h : number < directory.contents.length) (text : String) :
    (directory.write number text).read number = text := by
  unfold read write
  simp [h]

theorem read_write_of_ne {other : Nat} (hne : other ≠ number) (text : String) :
    (directory.write number text).read other = directory.read other := by
  unfold read write
  simp [List.getElem?_set_ne (Ne.symm hne)]

theorem holds_write (directory : Directory) (number : Nat) (text : String) :
    (directory.write number text).Holds directory := fun _ _ h => h

theorem read_write_read (directory : Directory) (number other : Nat) :
    (directory.write number (directory.read number)).read other = directory.read other := by
  by_cases hsame : other = number
  · rw [hsame]
    by_cases hlt : number < directory.contents.length
    · exact read_write_self hlt _
    · unfold write
      rw [List.set_eq_of_length_le (Nat.not_lt.1 hlt)]
  · exact read_write_of_ne hsame _

theorem sound_write (h : directory.Sound) (number : Nat) (text : String) :
    (directory.write number text).Sound := by
  intro place other hentry
  have hlt := h place other hentry
  unfold write
  rwa [List.length_set]

theorem holds_make (directory : Directory) : directory.make.Holds directory := by
  unfold make
  split
  · exact holds_put (by assumption) _
  · exact .refl _

theorem read_make (directory : Directory) (number : Nat) :
    directory.make.read number = directory.read number := by
  unfold make
  split <;> rfl

theorem sound_make (h : directory.Sound) : directory.make.Sound := by
  unfold make
  split
  · intro place number hentry
    rcases eq_or_of_entry?_put (by decide) hentry with ⟨-, hfolder⟩ | hentry
    · exact nomatch hfolder
    · exact h place number hentry
  · exact h

/-- A file that could not be opened has changed nothing. -/
theorem openFile_of_error {cause : DiskError} {next : Directory}
    (h : directory.openFile path = (.error cause, next)) : next = directory := by
  unfold openFile at h
  split at h
  · exact (congrArg Prod.snd h).symm
  · split at h
    · exact nomatch (congrArg Prod.fst h)
    · exact (congrArg Prod.snd h).symm
    · exact nomatch (congrArg Prod.fst h)

/-- What a path names is what it opens. -/
theorem openFile_of_fileAt? (h : directory.fileAt? path = some number) :
    directory.openFile path = (.ok number, directory) := by
  obtain ⟨place, hresolve, hentry⟩ := fileAt?_eq_some_iff.1 h
  unfold openFile
  rw [hresolve]
  dsimp only
  rw [hentry]

/-- An opened file is the one that the path names. It may be new, and then it is empty; nothing else
has changed. -/
structure Opens (directory : Directory) (path : String) (number : Nat) (next : Directory) :
    Prop where
  fileAt?_eq : next.fileAt? path = some number
  read_eq : ∀ other, next.read other = directory.read other
  holds : next.Holds directory
  sound : directory.Sound → next.Sound
  length_le : directory.contents.length ≤ next.contents.length
  /-- A file that stands somewhere stood there, or is new. -/
  stood : ∀ place other, next.entry? place = some (.file other) →
    directory.entry? place = some (.file other) ∨
      (directory.resolve path = .ok place ∧ other = directory.contents.length)

/-- A file that is made at a free place is empty. -/
theorem opens_new (hresolve : directory.resolve path = .ok place)
    (hfree : directory.entry? place = none) :
    Opens directory path directory.contents.length
      { directory.put place (.file directory.contents.length) with
        contents := directory.contents ++ [""] } := by
  generalize hput : directory.put place (.file directory.contents.length) = put
  have hself : put.entry? place = some (.file directory.contents.length) :=
    hput ▸ directory.entry?_put_self (ne_nil_of_entry?_eq_none hfree) _
  have hholds : Holds { put with contents := directory.contents ++ [""] } directory :=
    hput ▸ holds_put hfree _
  have hlength : (directory.contents ++ [""]).length = directory.contents.length + 1 := by simp
  have hstood : ∀ other number, put.entry? other = some (.file number) →
      directory.entry? other = some (.file number) ∨
        (directory.resolve path = .ok other ∧ number = directory.contents.length) := by
    intro other number hother
    rw [← hput] at hother
    rcases eq_or_of_entry?_put (ne_nil_of_entry?_eq_none hfree) hother with ⟨rfl, hnew⟩ | hold
    · exact .inr ⟨hresolve, Entry.file.inj hnew⟩
    · exact .inl hold
  refine ⟨fileAt?_eq_some_iff.2 ⟨place, hholds.resolve_eq_ok hresolve, hself⟩, ?_, hholds, ?_,
    Nat.le.intro hlength.symm, hstood⟩
  · intro other
    show (directory.contents ++ [""]).getD other "" = directory.contents.getD other ""
    by_cases hlt : other < directory.contents.length
    · rw [List.getD_append _ _ _ _ hlt]
    · rw [List.getD_append_right _ _ _ _ (by omega),
        List.getD_eq_default directory.contents "" (by omega)]
      cases other - directory.contents.length <;> rfl
  · intro hsound other number hother
    show number < (directory.contents ++ [""]).length
    rw [hlength]
    rcases hstood other number hother with hold | ⟨-, hnew⟩
    · have := hsound other number hold
      omega
    · omega

theorem opens_of_ok {next : Directory} (h : directory.openFile path = (.ok number, next)) :
    Opens directory path number next := by
  unfold openFile at h
  cases hresolve : directory.resolve path with
  | error cause =>
    rw [hresolve] at h
    exact nomatch (congrArg Prod.fst h)
  | ok place =>
    rw [hresolve] at h
    dsimp only at h
    cases hentry : directory.entry? place with
    | some entry =>
      rw [hentry] at h
      cases entry with
      | folder => exact nomatch (congrArg Prod.fst h)
      | file found =>
        obtain ⟨hnumber, rfl⟩ := Prod.mk.inj h
        rw [← Except.ok.inj hnumber]
        exact ⟨fileAt?_eq_some_iff.2 ⟨place, hresolve, hentry⟩, fun _ => rfl, .refl _, id,
          Nat.le_refl _, fun _ _ => .inl⟩
    | none =>
      rw [hentry] at h
      obtain ⟨hnumber, hnext⟩ := Prod.mk.inj h
      rw [← Except.ok.inj hnumber]
      exact hnext ▸ opens_new hresolve hentry

end Directory

end TradeGate
