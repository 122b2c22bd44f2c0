import TradeGate.Time.Date

/-!
# Instants

An instant is a second of UTC and the nanoseconds into it. The nanoseconds run on to two seconds in
the last second of a minute, which is how a leap second is kept apart from the second after it.
Spans are whole nanoseconds. Main definitions: the order of instants, `nanosSince`, `add?`, and the
calendar fields and their texts.
-/

namespace TradeGate

/-- Nanoseconds in a second. -/
def nanosPerSecond : Int := 1000000000

/-- Seconds in a day. -/
def secondsPerDay : Int := 86400

/-- The first second of the first day. -/
def Instant.firstSecond : Int := Date.earliest.dayNumber * secondsPerDay

/-- The last second of the last day. -/
def Instant.lastSecond : Int := Date.latest.dayNumber * secondsPerDay + (secondsPerDay - 1)

/-- An instant of UTC, in seconds from 1970-01-01 and nanoseconds. `leap` keeps leap seconds to the
end of a minute, where clocks, texts and the addition of spans have them. A date and time whose
nanoseconds are set on their own can have one after any second; such values are left out. -/
structure Instant where
  seconds : Int
  nanos : Int
  seconds_mem : Instant.firstSecond ≤ seconds ∧ seconds ≤ Instant.lastSecond
  nanos_nonneg : 0 ≤ nanos
  nanos_lt : nanos < 2 * nanosPerSecond
  leap : nanosPerSecond ≤ nanos → seconds % 60 = 59
  deriving DecidableEq

namespace Instant

/-- The instant with these parts, if there is one. -/
def ofParts? (seconds nanos : Int) : Option Instant :=
  if h : (firstSecond ≤ seconds ∧ seconds ≤ lastSecond) ∧ 0 ≤ nanos ∧ nanos < 2 * nanosPerSecond ∧
      (nanosPerSecond ≤ nanos → seconds % 60 = 59) then
    some ⟨seconds, nanos, h.1, h.2.1, h.2.2.1, h.2.2.2⟩
  else none

/-- 1970-01-01T00:00:00Z. -/
def epoch : Instant :=
  ⟨0, 0, by decide, by decide, by decide, by decide⟩

/-- The first instant there is. -/
def earliest : Instant :=
  ⟨firstSecond, 0, by decide, by decide, by decide, by decide⟩

instance : Inhabited Instant := ⟨epoch⟩

/-- The instant lies within a leap second. -/
def isLeap (t : Instant) : Bool := nanosPerSecond ≤ t.nanos

/-! ## Order -/

/-- Nanoseconds on a line on which every second has room for a leap second after it. -/
def ticks (t : Instant) : Int := t.seconds * (2 * nanosPerSecond) + t.nanos

instance : LE Instant := ⟨fun a b => a.ticks ≤ b.ticks⟩
instance : LT Instant := ⟨fun a b => a.ticks < b.ticks⟩
instance (a b : Instant) : Decidable (a ≤ b) := Int.decLe a.ticks b.ticks
instance (a b : Instant) : Decidable (a < b) := Int.decLt a.ticks b.ticks

theorem le_def {a b : Instant} : a ≤ b ↔ a.ticks ≤ b.ticks := Iff.rfl

theorem lt_def {a b : Instant} : a < b ↔ a.ticks < b.ticks := Iff.rfl

theorem ticks_injective {a b : Instant} (h : a.ticks = b.ticks) : a = b := by
  have ha := a.nanos_nonneg
  have ha' := a.nanos_lt
  have hb := b.nanos_nonneg
  have hb' := b.nanos_lt
  simp only [ticks, nanosPerSecond] at *
  cases a
  cases b
  simp only [mk.injEq] at *
  omega

/-! ## Spans -/

/-- The second of the day. -/
def secondOfDay (t : Instant) : Int := t.seconds % secondsPerDay

/-- The nanoseconds from `earlier` to `t`. A leap second that one of them lies in is counted if the
other is at a later time of day. -/
def nanosSince (t earlier : Instant) : Int :=
  let counted :=
    if earlier.secondOfDay < t.secondOfDay ∧ earlier.isLeap then 1
    else if t.secondOfDay < earlier.secondOfDay ∧ t.isLeap then -1
    else 0
  (t.seconds - earlier.seconds + counted) * nanosPerSecond + (t.nanos - earlier.nanos)

/-- The instant a span of nanoseconds later, if there is one. A span that stays within a leap second
keeps it; any other one leaves it. -/
def add? (t : Instant) (span : Int) : Option Instant :=
  let seconds := span.tdiv nanosPerSecond
  let nanos := span.tmod nanosPerSecond
  let carry (seconds nanos : Int) : Option Instant :=
    ofParts? (seconds + nanos / nanosPerSecond) (nanos % nanosPerSecond)
  if t.isLeap then
    if 0 < seconds ∨ (0 < nanos ∧ 2 * nanosPerSecond - nanos ≤ t.nanos) then
      carry (t.seconds + seconds) (t.nanos - nanosPerSecond + nanos)
    else if seconds < 0 then
      carry (t.seconds + 1 + seconds) (t.nanos - nanosPerSecond + nanos)
    else ofParts? t.seconds (t.nanos + nanos)
  else carry (t.seconds + seconds) (t.nanos + nanos)

/-- The instant a span of nanoseconds earlier, if there is one. -/
def sub? (t : Instant) (span : Int) : Option Instant := t.add? (-span)

/-- The instant a span earlier, or the first one there is. -/
def subOrEarliest (t : Instant) (span : Int) : Instant := (t.sub? span).getD earliest

/-- Whole milliseconds from the start of 1970; a leap second runs on past a thousand. -/
def millis (t : Instant) : Int := t.seconds * 1000 + t.nanos / 1000000

/-! ## Calendar fields -/

/-- The UTC date. -/
def date (t : Instant) : Date := ⟨t.seconds / secondsPerDay⟩

/-- The hour of the day. -/
def hour (t : Instant) : Int := t.secondOfDay / 3600

/-- The minute of the hour. -/
def minute (t : Instant) : Int := t.secondOfDay / 60 % 60

/-- The second of the minute, 60 in a leap second. -/
def second (t : Instant) : Int := t.secondOfDay % 60 + (if t.isLeap then 1 else 0)

/-- The nanoseconds into the second. -/
def subsecond (t : Instant) : Int := t.nanos % nanosPerSecond

/-! ## Texts -/

/-- All fields down to the microsecond, run together. -/
def stampChars (t : Instant) : List Char :=
  Date.yearChars t.date.civil.year ++ Date.twoDigits t.date.civil.month ++
    Date.twoDigits t.date.civil.day ++ Date.twoDigits t.hour ++ Date.twoDigits t.minute ++
    Date.twoDigits t.second ++ Numeral.padded 6 (t.subsecond / 1000).toNat

/-- The time of day with colons. -/
def clockChars (t : Instant) : List Char :=
  Date.twoDigits t.hour ++ ':' :: Date.twoDigits t.minute ++ ':' :: Date.twoDigits t.second

/-- Date and time for a reader, to the second. -/
def legible (t : Instant) : String :=
  String.ofList (t.date.chars ++ ' ' :: t.clockChars ++ " UTC".toList)

/-- The fraction of the second with a point, to 0, 3, 6 or 9 places: the fewest that lose
nothing. -/
def fractionChars (t : Instant) : List Char :=
  let fraction := t.subsecond.toNat
  if fraction = 0 then []
  else if fraction % 1000000 = 0 then '.' :: Numeral.padded 3 (fraction / 1000000)
  else if fraction % 1000 = 0 then '.' :: Numeral.padded 6 (fraction / 1000)
  else '.' :: Numeral.padded 9 fraction

/-- The timestamp of the instant, in UTC. -/
def chars (t : Instant) : List Char :=
  t.date.chars ++ 'T' :: t.clockChars ++ t.fractionChars ++ ['Z']

def text (t : Instant) : String := String.ofList t.chars

instance : ToString Instant := ⟨text⟩

end Instant

end TradeGate
