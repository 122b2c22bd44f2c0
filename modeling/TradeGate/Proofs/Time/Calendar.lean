import TradeGate.Proofs.Number.Numeral
import TradeGate.Time.Date

/-!
# Order of the civil fields

Later dates have later fields, compared by year, month and day in this order
(`Date.before_civil`). So while years have four digits the texts of dates are in the order of the
dates, whatever stands behind them (`Date.chars_append_lt`).
-/

namespace TradeGate

/-- Year first, then month, then day. -/
def CivilDate.Before (a b : CivilDate) : Prop :=
  a.year < b.year ∨ (a.year = b.year ∧ (a.month < b.month ∨ (a.month = b.month ∧ a.day < b.day)))

namespace Date

/-! ## The parts of a date -/

def era (date : Date) : Int := (date.dayNumber - eraStart) / daysPerEra

def dayOfEra (date : Date) : Int := (date.dayNumber - eraStart) % daysPerEra

def dayOfYear (date : Date) : Int := date.dayOfEra - daysBeforeYear (yearOfEra date.dayOfEra)

def monthFromMarch (date : Date) : Int := (5 * date.dayOfYear + 2) / 153

theorem dayNumber_eq (date : Date) :
    date.dayNumber = eraStart + daysPerEra * date.era + date.dayOfEra := by
  have := Int.mul_ediv_add_emod (date.dayNumber - eraStart) daysPerEra
  unfold era dayOfEra
  omega

theorem dayOfEra_mem (date : Date) : 0 ≤ date.dayOfEra ∧ date.dayOfEra < daysPerEra :=
  ⟨Int.emod_nonneg _ (by decide), Int.emod_lt_of_pos _ (by decide)⟩

theorem dayOfYear_range (date : Date) : 0 ≤ date.dayOfYear ∧ date.dayOfYear ≤ 365 :=
  dayOfYear_mem date.dayOfEra_mem.1 date.dayOfEra_mem.2

theorem civil_month (date : Date) : date.civil.month =
    if date.monthFromMarch < 10 then date.monthFromMarch + 3 else date.monthFromMarch - 9 := rfl

theorem civil_day (date : Date) :
    date.civil.day = date.dayOfYear - daysBeforeMonth date.monthFromMarch + 1 := rfl

theorem civil_month_mem (date : Date) : 1 ≤ date.civil.month ∧ date.civil.month ≤ 12 := by
  have hmonth := monthFromMarch_mem date.dayOfYear_range.1 date.dayOfYear_range.2
  have hparts : date.monthFromMarch = (5 * date.dayOfYear + 2) / 153 := rfl
  rw [civil_month]
  split <;> omega

theorem civil_day_mem (date : Date) : 1 ≤ date.civil.day ∧ date.civil.day ≤ 31 := by
  have hyear := date.dayOfYear_range
  rw [civil_day]
  unfold daysBeforeMonth monthFromMarch
  omega

/-! ## Order -/

theorem ne_of_lt {a b : Date} (h : a < b) : a ≠ b := by
  rintro rfl
  exact Int.lt_irrefl _ h

theorem yearOfEra_le_yearOfEra {a b : Int} (h : a ≤ b) (ha : 0 ≤ a) (hb : b < daysPerEra) :
    yearOfEra a ≤ yearOfEra b := by
  simp only [daysPerEra, yearOfEra] at *
  omega

/-- The year that a date lies in when years start in March. -/
def marchYear (date : Date) : Int := 400 * date.era + yearOfEra date.dayOfEra

/-- Years from March on, months and days grow one after the other. -/
theorem marchYear_lt {a b : Date} (h : a < b) : a.marchYear < b.marchYear ∨
    (a.marchYear = b.marchYear ∧ (a.monthFromMarch < b.monthFromMarch ∨
      (a.monthFromMarch = b.monthFromMarch ∧ a.civil.day < b.civil.day))) := by
  have hnumber : a.dayNumber < b.dayNumber := h
  rw [dayNumber_eq a, dayNumber_eq b] at hnumber
  have ha := a.dayOfEra_mem
  have hb := b.dayOfEra_mem
  have hya := yearOfEra_mem ha.1 ha.2
  have hyb := yearOfEra_mem hb.1 hb.2
  by_cases hera : a.era = b.era
  · have hday : a.dayOfEra < b.dayOfEra := by
      rw [hera] at hnumber
      omega
    have hle := yearOfEra_le_yearOfEra (Int.le_of_lt hday) ha.1 hb.2
    by_cases hyear : yearOfEra a.dayOfEra = yearOfEra b.dayOfEra
    · right
      have hdayOfYear : a.dayOfYear < b.dayOfYear := by
        unfold dayOfYear
        rw [hyear]
        omega
      have hmonth : a.monthFromMarch ≤ b.monthFromMarch := by
        unfold monthFromMarch
        omega
      refine ⟨by unfold marchYear; omega, ?_⟩
      by_cases hsame : a.monthFromMarch = b.monthFromMarch
      · right
        rw [civil_day, civil_day, hsame]
        exact ⟨rfl, by omega⟩
      · left
        omega
    · left
      unfold marchYear
      omega
  · left
    have hlt : a.era < b.era := by
      simp only [daysPerEra] at *
      omega
    unfold marchYear
    omega

/-- Later dates have later fields. -/
theorem before_civil {a b : Date} (h : a < b) : a.civil.Before b.civil := by
  have hma := monthFromMarch_mem a.dayOfYear_range.1 a.dayOfYear_range.2
  have hmb := monthFromMarch_mem b.dayOfYear_range.1 b.dayOfYear_range.2
  have ha : a.civil.year = a.marchYear + (if a.civil.month ≤ 2 then 1 else 0) := rfl
  have hb : b.civil.year = b.marchYear + (if b.civil.month ≤ 2 then 1 else 0) := rfl
  have hlt := marchYear_lt h
  have hmonth := civil_month a
  have hmonth' := civil_month b
  change 0 ≤ a.monthFromMarch ∧ a.monthFromMarch ≤ 11 at hma
  change 0 ≤ b.monthFromMarch ∧ b.monthFromMarch ≤ 11 at hmb
  unfold CivilDate.Before
  -- January and February end a year that starts in March, and start the next civil one
  by_cases hearly : a.monthFromMarch < 10 <;> by_cases hearly' : b.monthFromMarch < 10 <;>
    simp only [hearly, hearly', if_true, if_false] at hmonth hmonth' <;>
    rw [hmonth] at ha <;> rw [hmonth'] at hb <;> omega

theorem year_le_year {a b : Date} (h : a ≤ b) : a.civil.year ≤ b.civil.year := by
  by_cases hsame : a.dayNumber = b.dayNumber
  · obtain rfl : a = b := congrArg Date.mk hsame
    exact Int.le_refl _
  · have hle : a.dayNumber ≤ b.dayNumber := h
    have hlt : a < b := by
      show a.dayNumber < b.dayNumber
      omega
    rcases before_civil hlt with hyear | ⟨hyear, -⟩
    · exact Int.le_of_lt hyear
    · exact Int.le_of_eq hyear

/-- The date of an instant is the one that its civil fields name. -/
theorem ofCivil?_civil {date : Date} (hfirst : Date.earliest ≤ date)
    (hlast : date ≤ Date.latest) : Date.ofCivil? date.civil = some date := by
  have hlow : firstYear ≤ date.civil.year := by
    have hyear : firstYear = earliest.civil.year := by decide
    rw [hyear]
    exact year_le_year hfirst
  have hhigh : date.civil.year ≤ lastYear := by
    have hyear : latest.civil.year = lastYear := by decide
    rw [← hyear]
    exact year_le_year hlast
  have hsame : (⟨dayNumberOf date.civil⟩ : Date) = date := congrArg Date.mk (dayNumberOf_civil date)
  unfold ofCivil?
  dsimp only
  rw [hsame, if_pos ⟨rfl, hlow, hhigh⟩]

/-! ## Order of the texts -/

-- Powers are those of the core library.
attribute [local instance (high)] instPowNat

/-- The year is written with four digits and without a sign. -/
def HasFourDigitYear (date : Date) : Prop := 0 ≤ date.civil.year ∧ date.civil.year ≤ 9999

instance (date : Date) : Decidable date.HasFourDigitYear :=
  inferInstanceAs (Decidable (_ ∧ _))

theorem append_lt_append {as bs : List Char} (hlength : as.length = bs.length) (h : as < bs)
    (xs ys : List Char) : as ++ xs < bs ++ ys := by
  induction as generalizing bs with
  | nil =>
    obtain rfl : bs = [] := List.length_eq_zero_iff.1 hlength.symm
    exact absurd h (List.lt_irrefl _)
  | cons a as ih =>
    obtain ⟨b, bs, rfl⟩ := List.exists_cons_of_length_eq_add_one hlength.symm
    rw [List.cons_append, List.cons_append, List.cons_lt_cons_iff]
    rcases List.cons_lt_cons_iff.1 h with hlt | ⟨hsame, hlt⟩
    · exact .inl hlt
    · exact .inr ⟨hsame, ih (by simpa using hlength) hlt⟩

/-- Of two numerals of one width the one of the smaller number comes first. -/
theorem padded_append_lt {width m n : Nat} (hwidth : 0 < width) (h : m < n) (hn : n < 10 ^ width)
    (xs ys : List Char) : Numeral.padded width m ++ xs < Numeral.padded width n ++ ys := by
  have hm := Numeral.length_padded hwidth (Nat.lt_trans h hn)
  have hn := Numeral.length_padded hwidth hn
  refine append_lt_append (hm.trans hn.symm) (Numeral.lt_of_value_lt ?_ ?_ (hm.trans hn.symm) ?_) xs ys
  · exact fun c hc => Numeral.isDigit_of_mem_padded hc
  · exact fun c hc => Numeral.isDigit_of_mem_padded hc
  · rwa [Numeral.value_padded, Numeral.value_padded]

/-- The text of an earlier date comes first, whatever follows. -/
theorem chars_append_lt {a b : Date} (h : a < b) (ha : a.HasFourDigitYear)
    (hb : b.HasFourDigitYear) (xs ys : List Char) : a.chars ++ xs < b.chars ++ ys := by
  have hma := a.civil_month_mem
  have hmb := b.civil_month_mem
  have hda := a.civil_day_mem
  have hdb := b.civil_day_mem
  unfold HasFourDigitYear at ha hb
  unfold chars yearChars twoDigits
  rw [if_pos ha, if_pos hb]
  simp only [List.append_assoc, List.cons_append]
  rcases before_civil h with hyear | ⟨hyear, hmonth | ⟨hmonth, hday⟩⟩
  · exact padded_append_lt (by decide) (by omega) (by omega) _ _
  · rw [hyear]
    apply List.append_left_lt
    rw [List.cons_lt_cons_iff]
    exact .inr ⟨rfl, padded_append_lt (by decide) (by omega) (by omega) _ _⟩
  · rw [hyear, hmonth]
    apply List.append_left_lt
    rw [List.cons_lt_cons_iff]
    refine .inr ⟨rfl, List.append_left_lt ?_⟩
    rw [List.cons_lt_cons_iff]
    exact .inr ⟨rfl, padded_append_lt (by decide) (by omega) (by omega) _ _⟩

theorem length_chars {date : Date} (h : date.HasFourDigitYear) : date.chars.length = 10 := by
  have hmonth := date.civil_month_mem
  have hday := date.civil_day_mem
  unfold HasFourDigitYear at h
  have hyear := Numeral.length_padded (show 0 < 4 by decide)
    (show date.civil.year.toNat < 10 ^ 4 by omega)
  have hmonth := Numeral.length_padded (show 0 < 2 by decide)
    (show date.civil.month.toNat < 10 ^ 2 by omega)
  have hday := Numeral.length_padded (show 0 < 2 by decide)
    (show date.civil.day.toNat < 10 ^ 2 by omega)
  unfold chars yearChars twoDigits
  rw [if_pos h]
  simp [hyear, hmonth, hday]

theorem mem_yearChars {year : Int} {c : Char} (hc : c ∈ yearChars year) :
    c.isDigit = true ∨ c = '-' ∨ c = '+' := by
  unfold yearChars at hc
  split at hc
  · exact .inl (Numeral.isDigit_of_mem_padded hc)
  · rcases List.mem_cons.1 hc with rfl | hc
    · right
      split <;> simp
    · exact .inl (Numeral.isDigit_of_mem_padded hc)

theorem mem_chars {date : Date} {c : Char} (hc : c ∈ date.chars) :
    c.isDigit = true ∨ c = '-' ∨ c = '+' := by
  unfold chars twoDigits at hc
  simp only [List.mem_append, List.mem_cons] at hc
  rcases hc with (hc | rfl | hc) | rfl | hc
  · exact mem_yearChars hc
  · exact .inr (.inl rfl)
  · exact .inl (Numeral.isDigit_of_mem_padded hc)
  · exact .inr (.inl rfl)
  · exact .inl (Numeral.isDigit_of_mem_padded hc)

end Date

end TradeGate
