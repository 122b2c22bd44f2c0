import TradeGate.Number.Numeral

/-!
# Calendar dates

A date is a day number of the proleptic Gregorian calendar, so dates are compared and shifted as
integers; `Date.civil` gives its year, month and day, and `Date.ofCivil?` goes the other way. Main
statement: a date is the one its civil fields name (`dayNumberOf_civil`).
-/

namespace TradeGate

/-- A day, counted from 1970-01-01. -/
structure Date where
  dayNumber : Int
  deriving DecidableEq, Hashable, Repr

/-- A year, and the month and the day of the month counted from one. -/
structure CivilDate where
  year : Int
  month : Int
  day : Int
  deriving DecidableEq, Repr

namespace Date

instance : LE Date := ⟨fun a b => a.dayNumber ≤ b.dayNumber⟩
instance : LT Date := ⟨fun a b => a.dayNumber < b.dayNumber⟩
instance (a b : Date) : Decidable (a ≤ b) := Int.decLe a.dayNumber b.dayNumber
instance (a b : Date) : Decidable (a < b) := Int.decLt a.dayNumber b.dayNumber

/-- The date a number of days later. -/
def addDays (date : Date) (days : Int) : Date := ⟨date.dayNumber + days⟩

/-! ## Civil fields

Years are counted from 1 March, so that a leap day is the last day of its year, and gathered into
eras of 400 years, which all have 146097 days. -/

/-- The number of days in an era. -/
def daysPerEra : Int := 146097

/-- The day number of 0000-03-01, the first day of the first era. -/
def eraStart : Int := -719468

/-- The number of days in an era before the given one of its years. -/
def daysBeforeYear (yearOfEra : Int) : Int :=
  365 * yearOfEra + yearOfEra / 4 - yearOfEra / 100

/-- The number of days in a year before the given month, March being month zero. -/
def daysBeforeMonth (monthFromMarch : Int) : Int :=
  (153 * monthFromMarch + 2) / 5

/-- The year of an era in which its given day lies. An era is three centuries of 36524 days and a
longer one, a century is groups of four years of 1461 days, the last of them shorter, and a group is
three years of 365 days and a longer one. -/
def yearOfEra (dayOfEra : Int) : Int :=
  let century := min (dayOfEra / 36524) 3
  let dayOfCentury := dayOfEra - 36524 * century
  let group := dayOfCentury / 1461
  let dayOfGroup := dayOfCentury - 1461 * group
  100 * century + 4 * group + min (dayOfGroup / 365) 3

/-- The year, month and day of a date. -/
def civil (date : Date) : CivilDate :=
  let era := (date.dayNumber - eraStart) / daysPerEra
  let dayOfEra := (date.dayNumber - eraStart) % daysPerEra
  let year := yearOfEra dayOfEra
  let dayOfYear := dayOfEra - daysBeforeYear year
  let monthFromMarch := (5 * dayOfYear + 2) / 153
  let month := if monthFromMarch < 10 then monthFromMarch + 3 else monthFromMarch - 9
  { year := 400 * era + year + (if month ≤ 2 then 1 else 0)
    month
    day := dayOfYear - daysBeforeMonth monthFromMarch + 1 }

/-- The day number that civil fields name. -/
def dayNumberOf (fields : CivilDate) : Int :=
  let year := if fields.month ≤ 2 then fields.year - 1 else fields.year
  let monthFromMarch := if fields.month ≤ 2 then fields.month + 9 else fields.month - 3
  eraStart + daysPerEra * (year / 400) + daysBeforeYear (year % 400) +
    daysBeforeMonth monthFromMarch + (fields.day - 1)

theorem yearOfEra_mem {dayOfEra : Int} (h₀ : 0 ≤ dayOfEra) (h₁ : dayOfEra < daysPerEra) :
    0 ≤ yearOfEra dayOfEra ∧ yearOfEra dayOfEra ≤ 399 := by
  simp only [daysPerEra, yearOfEra] at *
  omega

theorem dayOfYear_mem {dayOfEra : Int} (h₀ : 0 ≤ dayOfEra) (h₁ : dayOfEra < daysPerEra) :
    0 ≤ dayOfEra - daysBeforeYear (yearOfEra dayOfEra) ∧
      dayOfEra - daysBeforeYear (yearOfEra dayOfEra) ≤ 365 := by
  simp only [daysPerEra, daysBeforeYear, yearOfEra] at *
  generalize hc : min (dayOfEra / 36524) 3 = century
  generalize hg : (dayOfEra - 36524 * century) / 1461 = group
  generalize hy : min ((dayOfEra - 36524 * century - 1461 * group) / 365) 3 = year
  have hcentury : 0 ≤ century ∧ century ≤ 3 := by omega
  have hgroup : 0 ≤ group ∧ group ≤ 24 := by omega
  have hyear : 0 ≤ year ∧ year ≤ 3 := by omega
  have hquarter : (100 * century + 4 * group + year) / 4 = 25 * century + group := by omega
  have hhundredth : (100 * century + 4 * group + year) / 100 = century := by omega
  rw [hquarter, hhundredth]
  omega

theorem monthFromMarch_mem {dayOfYear : Int} (h₀ : 0 ≤ dayOfYear) (h₁ : dayOfYear ≤ 365) :
    0 ≤ (5 * dayOfYear + 2) / 153 ∧ (5 * dayOfYear + 2) / 153 ≤ 11 := by
  omega

/-- Year, month and day of a place in an era name that place. -/
theorem dayNumberOf_fields (era year monthFromMarch day : Int) (hyear : 0 ≤ year ∧ year ≤ 399)
    (hmonth : 0 ≤ monthFromMarch ∧ monthFromMarch ≤ 11) :
    let month := if monthFromMarch < 10 then monthFromMarch + 3 else monthFromMarch - 9
    dayNumberOf ⟨400 * era + year + (if month ≤ 2 then 1 else 0), month, day⟩ =
      eraStart + daysPerEra * era + daysBeforeYear year + daysBeforeMonth monthFromMarch +
        (day - 1) := by
  by_cases hlt : monthFromMarch < 10
  · have hnot : ¬ (monthFromMarch + 3 ≤ 2) := by omega
    have h₁ : (400 * era + year) / 400 = era := by omega
    have h₂ : (400 * era + year) % 400 = year := by omega
    have h₃ : monthFromMarch + 3 - 3 = monthFromMarch := by omega
    simp only [dayNumberOf, hlt, hnot, if_true, if_false, Int.add_zero, h₁, h₂, h₃]
  · have hle : monthFromMarch - 9 ≤ 2 := by omega
    have h₁ : (400 * era + year + 1 - 1) / 400 = era := by omega
    have h₂ : (400 * era + year + 1 - 1) % 400 = year := by omega
    have h₃ : monthFromMarch - 9 + 9 = monthFromMarch := by omega
    simp only [dayNumberOf, hlt, hle, if_true, if_false, h₁, h₂, h₃]

/-- A date is the one that its civil fields name. -/
theorem dayNumberOf_civil (date : Date) : dayNumberOf date.civil = date.dayNumber := by
  have hlow := Int.emod_nonneg (date.dayNumber - eraStart) (b := daysPerEra) (by decide)
  have hhigh := Int.emod_lt_of_pos (date.dayNumber - eraStart) (b := daysPerEra) (by decide)
  have hdiv := Int.mul_ediv_add_emod (date.dayNumber - eraStart) daysPerEra
  have hday := dayOfYear_mem hlow hhigh
  refine (dayNumberOf_fields _ _ _ _ (yearOfEra_mem hlow hhigh)
    (monthFromMarch_mem hday.1 hday.2)).trans ?_
  omega

theorem civil_injective {a b : Date} (h : a.civil = b.civil) : a = b := by
  have := congrArg dayNumberOf h
  rw [dayNumberOf_civil, dayNumberOf_civil] at this
  cases a
  cases b
  simpa using this

/-! ## Range -/

/-- The first year that dates are read in. -/
def firstYear : Int := -262143

/-- The last year that dates are read in. -/
def lastYear : Int := 262142

/-- The first day of the first year. -/
def earliest : Date := ⟨dayNumberOf ⟨firstYear, 1, 1⟩⟩

/-- The last day of the last year. -/
def latest : Date := ⟨dayNumberOf ⟨lastYear, 12, 31⟩⟩

/-- The date with these fields, if the calendar has that day and the year is in range. -/
def ofCivil? (fields : CivilDate) : Option Date :=
  let date : Date := ⟨dayNumberOf fields⟩
  if date.civil = fields ∧ firstYear ≤ fields.year ∧ fields.year ≤ lastYear then some date
  else none

/-! ## Text -/

/-- A year with four digits, and with a sign if it needs more or is negative. -/
def yearChars (year : Int) : List Char :=
  if 0 ≤ year ∧ year ≤ 9999 then Numeral.padded 4 year.toNat
  else (if year < 0 then '-' else '+') :: Numeral.padded 4 year.natAbs

/-- A number with two digits. -/
def twoDigits (n : Int) : List Char :=
  Numeral.padded 2 n.toNat

/-- The date as year, month and day with hyphens between them. -/
def chars (date : Date) : List Char :=
  yearChars date.civil.year ++ '-' :: twoDigits date.civil.month ++ '-' :: twoDigits date.civil.day

def text (date : Date) : String := String.ofList date.chars

instance : ToString Date := ⟨text⟩

end Date

end TradeGate
