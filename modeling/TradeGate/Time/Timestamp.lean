import TradeGate.Text.Blank
import TradeGate.Text.Front
import TradeGate.Time.Instant

/-!
# Reading timestamps and dates

A timestamp is a date, one of `T`, `t` and a space, a time of day with seconds and an optional
fraction, and an offset from UTC. Blanks may stand before every number and every mark. The readers
here take what they read off the front of the text and return the rest, so `Timestamp.read?` is
their sequence. Main definitions: `Date.read?` and `Instant.read?`.
-/

namespace TradeGate.Timestamp

-- Powers are those of the core library.
attribute [local instance (high)] instPowNat

open Text (Front skipBlanks)

/-- Up to `width` digits, at least one. -/
def digits (width : Nat) : Front Nat := fun cs =>
  match Text.run Char.isDigit width cs with
  | ([], _) => none
  | (run, rest) => some (Numeral.value run, rest)

/-- A number of one or two digits between two bounds. -/
def field (low high : Nat) : Front Nat := fun cs => do
  let (n, rest) ← digits 2 (skipBlanks cs)
  if low ≤ n ∧ n ≤ high then some (n, rest) else none

/-- A year: up to four digits, or any number of them after a sign. -/
def year : Front Int := fun cs =>
  match skipBlanks cs with
  | '-' :: rest => do
    let (n, rest) ← digits rest.length rest
    some (-(n : Int), rest)
  | '+' :: rest => do
    let (n, rest) ← digits rest.length rest
    some ((n : Int), rest)
  | rest => do
    let (n, rest) ← digits 4 rest
    some ((n : Int), rest)

/-- A mark between two numbers. -/
def mark (c : Char) : Front Unit := fun cs =>
  match skipBlanks cs with
  | [] => none
  | d :: rest => if d = c then some ((), rest) else none

/-- Year, month and day with hyphens between them. -/
def civilDate : Front CivilDate := fun cs => do
  let (year, cs) ← year cs
  let ((), cs) ← mark '-' cs
  let (month, cs) ← field 1 12 cs
  let ((), cs) ← mark '-' cs
  let (day, cs) ← field 1 31 cs
  some (⟨year, month, day⟩, cs)

/-- The mark between date and time. -/
def dateEnd : Front Unit
  | c :: rest => if c = 'T' ∨ c = 't' ∨ c = ' ' then some ((), rest) else none
  | [] => none

/-- A fraction of a second in nanoseconds: nine digits count, more are passed over. Without a point
there is none. -/
def fraction : Front Nat
  | '.' :: cs => do
    let (n, rest) ← digits 9 cs
    let places := cs.length - rest.length
    some (n * 10 ^ (9 - places), rest.dropWhile Char.isDigit)
  | cs => some (0, cs)

/-- The second of the day and the nanoseconds of a time of day. Second 60 is the second nanosecond
run of second 59. -/
def timeOfDay : Front (Int × Int) := fun cs => do
  let (hour, cs) ← field 0 23 cs
  let ((), cs) ← mark ':' cs
  let (minute, cs) ← field 0 59 cs
  let ((), cs) ← mark ':' cs
  let (second, cs) ← field 0 60 cs
  let (nanos, cs) ← fraction cs
  let whole : Int := 3600 * hour + 60 * minute + min second 59
  some ((whole, nanos + (if second = 60 then nanosPerSecond else 0)), cs)

/-- Two digits. -/
def twoDigits : Front Nat
  | a :: b :: rest =>
    if a.isDigit ∧ b.isDigit then some (Numeral.value [a, b], rest) else none
  | _ => none

/-- The sign of an offset; a minus sign may be the hyphen or the typographic one. -/
def offsetSign : Front Int
  | '+' :: rest => some (1, rest)
  | '-' :: rest => some (-1, rest)
  | '−' :: rest => some (-1, rest)
  | _ => none

/-- Seconds east of UTC: `UTC`, `Z`, or a sign, hours, any run of colons and blanks, and minutes. -/
def offset : Front Int := fun cs =>
  if (cs.take 3).map Char.toUpper = ['U', 'T', 'C'] then some (0, cs.drop 3)
  else
    match cs with
    | 'Z' :: rest => some (0, rest)
    | 'z' :: rest => some (0, rest)
    | cs => do
      let (sign, cs) ← offsetSign cs
      let (hours, cs) ← twoDigits cs
      let (minutes, cs) ← twoDigits (cs.dropWhile fun c => c = ':' || Text.isBlank c)
      if minutes < 60 ∧ hours < 24 then some (sign * (3600 * hours + 60 * minutes), cs)
      else none

/-- The instant of a timestamp. Nothing but blanks may follow it. -/
def instant? (cs : List Char) : Option Instant := do
  let (fields, cs) ← civilDate cs
  let ((), cs) ← dateEnd cs
  let ((second, nanos), cs) ← timeOfDay cs
  let (offset, cs) ← offset (skipBlanks cs)
  let date ← Date.ofCivil? fields
  if Text.isBlankText cs then
    Instant.ofParts? (date.dayNumber * secondsPerDay + second - offset) nanos
  else none

/-- The date that a text names. Nothing but blanks may follow it. -/
def date? (cs : List Char) : Option Date := do
  let (fields, cs) ← civilDate cs
  if Text.isBlankText cs then Date.ofCivil? fields else none

end TradeGate.Timestamp

namespace TradeGate

/-- Reads a timestamp. -/
def Instant.read? (s : String) : Option Instant := Timestamp.instant? s.toList

/-- Reads a date. -/
def Date.read? (s : String) : Option Date := Timestamp.date? s.toList

end TradeGate
