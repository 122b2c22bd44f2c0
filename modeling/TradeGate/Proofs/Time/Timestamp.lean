import TradeGate.Proofs.Time.Calendar
import TradeGate.Proofs.Time.Cutoff
import TradeGate.Time.Timestamp

/-!
# Timestamps are read back

Every instant is read back from its text (`Instant.read?_text`), leap seconds and years of more than
four digits included. The reader is followed field by field.
-/

namespace TradeGate

namespace Timestamp

-- Powers are those of the core library.
attribute [local instance (high)] instPowNat

open Numeral (padded EndsRun)
open Text (skipBlanks)

variable {rest : List Char}

/-! ## Digits and marks -/

theorem not_isBlank_of_isDigit {c : Char} (h : c.isDigit = true) : Text.isBlank c = false := by
  have hrange := Char.isDigit_iff_toNat.1 h
  have hlow : '0'.toNat = 48 := rfl
  have hhigh : '9'.toNat = 57 := rfl
  simp [Text.isBlank, Text.blankRanges]
  omega

theorem skipBlanks_cons {c : Char} (h : Text.isBlank c = false) (cs : List Char) :
    skipBlanks (c :: cs) = c :: cs := by
  simp [skipBlanks, h]

/-- No blanks stand before a numeral. -/
theorem skipBlanks_padded_append (width n : Nat) (rest : List Char) :
    skipBlanks (padded width n ++ rest) = padded width n ++ rest := by
  obtain ⟨c, cs, hcs⟩ := List.exists_cons_of_ne_nil (Numeral.padded_ne_nil width n)
  have hc : c.isDigit = true := Numeral.isDigit_of_mem_padded (by rw [hcs]; exact List.mem_cons_self)
  rw [hcs, List.cons_append, skipBlanks_cons (not_isBlank_of_isDigit hc)]

/-- A numeral is read back if it is as wide as it may be or no digit follows it. -/
theorem digits_padded_append {most width n : Nat} (hmost : (padded width n).length ≤ most)
    (hrest : EndsRun (rest.take (most - (padded width n).length))) :
    digits most (padded width n ++ rest) = some (n, rest) := by
  have hspan : ((padded width n ++ rest).take most).takeWhile Char.isDigit = padded width n := by
    rw [List.take_append, List.take_of_length_le hmost]
    have hrun : ∀ c ∈ padded width n, c.isDigit = true := fun c => Numeral.isDigit_of_mem_padded
    exact congrArg Prod.fst (Numeral.span_append_of_isDigit hrun hrest)
  have hrun : Text.run Char.isDigit most (padded width n ++ rest) = (padded width n, rest) := by
    unfold Text.run
    dsimp only
    rw [hspan, List.drop_left]
  unfold digits
  rw [hrun]
  split
  · rename_i hnil
    exact absurd (Prod.mk.inj hnil).1 (Numeral.padded_ne_nil width n)
  · rename_i heq
    obtain ⟨rfl, rfl⟩ := Prod.mk.inj heq
    rw [Numeral.value_padded]

theorem digits_padded_append_of_lt {width n : Nat} (hwidth : 0 < width) (h : n < 10 ^ width) :
    digits width (padded width n ++ rest) = some (n, rest) := by
  have hlength := Numeral.length_padded hwidth h
  apply digits_padded_append (Nat.le_of_eq hlength)
  rw [hlength, Nat.sub_self]
  simp [EndsRun]

theorem mark_cons {c : Char} (h : Text.isBlank c = false) : mark c (c :: rest) = some ((), rest) := by
  unfold mark
  rw [skipBlanks_cons h]
  exact if_pos rfl

theorem field_twoDigits {low high : Nat} {n : Int} (hlow : low ≤ n) (hhigh : n ≤ high)
    (hshort : n < 100) :
    field low high (Date.twoDigits n ++ rest) = some (n.toNat, rest) := by
  unfold field Date.twoDigits
  rw [skipBlanks_padded_append, digits_padded_append_of_lt (by decide) (by omega)]
  have hmem : low ≤ n.toNat ∧ n.toNat ≤ high := by omega
  simp [hmem]

/-! ## Dates -/

theorem endsRun_cons {c : Char} (h : c.isDigit = false) (cs : List Char) : EndsRun (c :: cs) := by
  intro d hd
  obtain rfl : c = d := by simpa using hd
  exact h

theorem year_of_isDigit {c : Char} (h : c.isDigit = true) (cs : List Char) :
    year (c :: cs) = (digits 4 (c :: cs)).map fun (n, rest) => ((n : Int), rest) := by
  unfold year
  rw [skipBlanks_cons (not_isBlank_of_isDigit h)]
  split
  · rename_i heq
    rw [(List.cons.inj heq).1] at h
    exact absurd h (by decide)
  · rename_i heq
    rw [(List.cons.inj heq).1] at h
    exact absurd h (by decide)
  · cases digits 4 (c :: cs) <;> rfl

/-- After a sign a numeral may be of any length. -/
theorem digits_padded_append_length (width n : Nat) (hrest : EndsRun rest) :
    digits (padded width n ++ rest).length (padded width n ++ rest) = some (n, rest) := by
  have hlength : (padded width n ++ rest).length = (padded width n).length + rest.length :=
    List.length_append
  apply digits_padded_append (by omega)
  rwa [hlength, Nat.add_sub_cancel_left, List.take_length]

theorem year_yearChars (y : Int) : year (Date.yearChars y ++ '-' :: rest) = some (y, '-' :: rest) := by
  have hdash : EndsRun ('-' :: rest) := endsRun_cons (by decide) rest
  unfold Date.yearChars
  by_cases hshort : 0 ≤ y ∧ y ≤ 9999
  · obtain ⟨c, cs, hcs⟩ := List.exists_cons_of_ne_nil (Numeral.padded_ne_nil 4 y.toNat)
    have hc : c.isDigit = true :=
      Numeral.isDigit_of_mem_padded (by rw [hcs]; exact List.mem_cons_self)
    have hdigits : digits 4 (padded 4 y.toNat ++ '-' :: rest) = some (y.toNat, '-' :: rest) :=
      digits_padded_append_of_lt (by decide) (by omega)
    rw [if_pos hshort]
    rw [hcs, List.cons_append] at hdigits ⊢
    rw [year_of_isDigit hc, hdigits]
    show some ((y.toNat : Int), '-' :: rest) = _
    rw [Int.toNat_of_nonneg hshort.1]
  · have hdigits := digits_padded_append_length 4 y.natAbs hdash
    rw [if_neg hshort]
    by_cases hnegative : y < 0
    · have hy : -(y.natAbs : Int) = y := by omega
      rw [if_pos hnegative, List.cons_append]
      show (digits _ (padded 4 y.natAbs ++ '-' :: rest)).bind _ = _
      rw [hdigits]
      show some (-(y.natAbs : Int), '-' :: rest) = _
      rw [hy]
    · have hy : (y.natAbs : Int) = y := by omega
      rw [if_neg hnegative, List.cons_append]
      show (digits _ (padded 4 y.natAbs ++ '-' :: rest)).bind _ = _
      rw [hdigits]
      show some ((y.natAbs : Int), '-' :: rest) = _
      rw [hy]

theorem civilDate_chars (date : Date) : civilDate (date.chars ++ rest) = some (date.civil, rest) := by
  have hmonth := date.civil_month_mem
  have hday := date.civil_day_mem
  have hmonth' : (date.civil.month.toNat : Int) = date.civil.month := by omega
  have hday' : (date.civil.day.toNat : Int) = date.civil.day := by omega
  unfold civilDate Date.chars
  rw [List.append_assoc, List.append_assoc, List.cons_append, year_yearChars]
  dsimp only [Option.bind_eq_bind, Option.bind_some]
  rw [mark_cons (by decide)]
  dsimp only [Option.bind_some]
  rw [field_twoDigits (by omega) (by omega) (by omega)]
  dsimp only [Option.bind_some]
  rw [List.cons_append, mark_cons (by decide)]
  dsimp only [Option.bind_some]
  rw [field_twoDigits (by omega) (by omega) (by omega)]
  dsimp only [Option.bind_some]
  rw [hmonth', hday']

/-! ## Times of day -/

/-- The places of a fraction are read as nanoseconds. -/
theorem fraction_padded {places n : Nat} (hplaces : 0 < places) (hmost : places ≤ 9)
    (h : n < 10 ^ places) :
    fraction ('.' :: padded places n ++ ['Z']) = some (n * 10 ^ (9 - places), ['Z']) := by
  have hlength := Numeral.length_padded hplaces h
  have hend : EndsRun ['Z'] := endsRun_cons (by decide) []
  have hdigits : digits 9 (padded places n ++ ['Z']) = some (n, ['Z']) := by
    apply digits_padded_append (by omega)
    rw [hlength]
    intro c hc
    cases hleft : 9 - places with
    | zero =>
      rw [hleft] at hc
      exact nomatch hc
    | succ left =>
      rw [hleft] at hc
      exact hend c hc
  have hcount : (padded places n ++ ['Z']).length - ['Z'].length = places := by
    rw [List.length_append, hlength, Nat.add_sub_cancel]
  rw [List.cons_append, fraction, hdigits]
  dsimp only [Option.bind_eq_bind, Option.bind_some]
  rw [hcount]
  rfl

theorem subsecond_mem (t : Instant) : 0 ≤ t.subsecond ∧ t.subsecond < 1000000000 :=
  ⟨Int.emod_nonneg _ (by decide), Int.emod_lt_of_pos _ (by decide)⟩

theorem fraction_fractionChars (t : Instant) :
    fraction (t.fractionChars ++ ['Z']) = some (t.subsecond.toNat, ['Z']) := by
  have hmem := subsecond_mem t
  unfold Instant.fractionChars
  dsimp only
  split
  · rename_i hzero
    rw [hzero]
    rfl
  · split
    · rw [fraction_padded (show 0 < 3 by decide) (by decide) (by omega)]
      congr 2
      omega
    · split
      · rw [fraction_padded (show 0 < 6 by decide) (by decide) (by omega)]
        congr 2
        omega
      · rw [fraction_padded (show 0 < 9 by decide) (by decide) (by omega)]
        congr 2
        omega

theorem secondOfDay_mem (t : Instant) : 0 ≤ t.secondOfDay ∧ t.secondOfDay < 86400 :=
  ⟨Int.emod_nonneg _ (by decide), Int.emod_lt_of_pos _ (by decide)⟩

/-- Second 60 is where a leap second is. -/
theorem second_eq (t : Instant) : t.second = if t.isLeap then 60 else t.secondOfDay % 60 := by
  unfold Instant.second
  cases hleap : t.isLeap with
  | false => simp
  | true =>
    have hover : nanosPerSecond ≤ t.nanos := by simpa [Instant.isLeap] using hleap
    have hlast := t.leap hover
    unfold Instant.secondOfDay secondsPerDay
    simp only [if_true]
    omega

theorem hour_mem (t : Instant) : 0 ≤ t.hour ∧ t.hour ≤ 23 := by
  have hday := secondOfDay_mem t
  unfold Instant.hour
  omega

theorem minute_mem (t : Instant) : 0 ≤ t.minute ∧ t.minute ≤ 59 := by
  unfold Instant.minute
  omega

theorem second_mem (t : Instant) : 0 ≤ t.second ∧ t.second ≤ 60 := by
  rw [second_eq]
  split <;> omega

/-- The second of the day that the fields tell. A leap second counts as the second before it. -/
theorem secondOfDay_eq_fields (t : Instant) :
    3600 * (t.hour.toNat : Int) + 60 * (t.minute.toNat : Int) +
      ((min t.second.toNat 59 : Nat) : Int) = t.secondOfDay := by
  have hday := secondOfDay_mem t
  have hleap : t.isLeap = true → t.secondOfDay % 60 = 59 := by
    intro hleap
    have hlast := t.leap (by simpa [Instant.isLeap] using hleap)
    unfold Instant.secondOfDay secondsPerDay
    omega
  have hlast : ((min t.second.toNat 59 : Nat) : Int) = t.secondOfDay % 60 := by
    rw [second_eq]
    split
    · rw [hleap (by assumption)]
      rfl
    · omega
  rw [hlast]
  unfold Instant.hour Instant.minute
  omega

/-- The nanoseconds that the fields tell. Those of a leap second run on. -/
theorem nanos_eq_fields (t : Instant) :
    (t.subsecond.toNat : Int) + (if t.second.toNat = 60 then nanosPerSecond else 0) = t.nanos := by
  have hmem := subsecond_mem t
  have hnonneg := t.nanos_nonneg
  have hlt := t.nanos_lt
  have hsixty : t.second.toNat = 60 ↔ nanosPerSecond ≤ t.nanos := by
    rw [second_eq]
    unfold Instant.isLeap
    by_cases hover : nanosPerSecond ≤ t.nanos
    · simp [hover]
    · have hsmall : t.secondOfDay % 60 < 60 := Int.emod_lt_of_pos _ (by decide)
      simp [hover]
      omega
  simp only [hsixty]
  unfold Instant.subsecond nanosPerSecond at *
  split <;> omega

theorem timeOfDay_clockChars (t : Instant) :
    timeOfDay (t.clockChars ++ (t.fractionChars ++ ['Z'])) =
      some ((t.secondOfDay, t.nanos), ['Z']) := by
  have hhour := hour_mem t
  have hminute := minute_mem t
  have hsecond := second_mem t
  unfold timeOfDay Instant.clockChars
  rw [List.append_assoc, List.append_assoc, List.cons_append,
    field_twoDigits (by omega) (by omega) (by omega)]
  dsimp only [Option.bind_eq_bind, Option.bind_some]
  rw [mark_cons (by decide)]
  dsimp only [Option.bind_some]
  rw [field_twoDigits (by omega) (by omega) (by omega)]
  dsimp only [Option.bind_some]
  rw [List.cons_append, mark_cons (by decide)]
  dsimp only [Option.bind_some]
  rw [field_twoDigits (by omega) (by omega) (by omega)]
  dsimp only [Option.bind_some]
  rw [fraction_fractionChars]
  dsimp only [Option.bind_some]
  rw [secondOfDay_eq_fields, nanos_eq_fields]

/-! ## Instants -/

theorem instant?_chars (t : Instant) : instant? t.chars = some t := by
  have hseconds := t.seconds_mem
  have hfirst : Date.earliest ≤ t.date := Instant.earliest_date_le t
  have hlast : t.date ≤ Date.latest := by
    show t.date.dayNumber ≤ Date.latest.dayNumber
    simp only [Instant.date, Instant.lastSecond, secondsPerDay] at *
    omega
  have hparts : t.date.dayNumber * secondsPerDay + t.secondOfDay - 0 = t.seconds := by
    unfold Instant.date Instant.secondOfDay secondsPerDay
    dsimp only
    omega
  have hoffset : offset (skipBlanks ['Z']) = some (0, []) := by decide
  unfold instant? Instant.chars
  rw [List.append_assoc, List.append_assoc, civilDate_chars]
  dsimp only [Option.bind_eq_bind, Option.bind_some]
  rw [List.cons_append]
  show (timeOfDay (t.clockChars ++ (t.fractionChars ++ ['Z']))).bind _ = _
  rw [timeOfDay_clockChars]
  dsimp only [Option.bind_some]
  rw [hoffset]
  dsimp only [Option.bind_some]
  rw [Date.ofCivil?_civil hfirst hlast]
  dsimp only [Option.bind_some]
  rw [hparts, Instant.ofParts?_parts]
  rfl

end Timestamp

/-- Every instant is read back from its text. -/
theorem Instant.read?_text (t : Instant) : Instant.read? t.text = some t := by
  unfold Instant.read? Instant.text
  rw [String.toList_ofList, Timestamp.instant?_chars]

end TradeGate
