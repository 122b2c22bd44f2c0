import TradeGate.Json.Reader
import TradeGate.Number.Shortest
import TradeGate.Time.Date

/-!
# Scalars of TOML

Readers of texts, numbers, truth values, dates and times. Whole numbers have 64 bits with sign. A
date or time is kept as an object with one member of a reserved name, so that it is taken for no
other kind of value.
-/

namespace TradeGate.Toml

-- Powers are those of the core library.
attribute [local instance (high)] instPowNat

open Text (Front)

/-! ## Characters -/

/-- A blank or a tab. -/
def isBlank (c : Char) : Bool := c = ' ' || c = '\t'

def skipBlanks (cs : List Char) : List Char := cs.dropWhile isBlank

/-- A character that may stand in a comment or a text on one line. -/
def isPlain (c : Char) : Bool :=
  c = '\t' || (0x20 ≤ c.toNat && c.toNat ≠ 0x7F)

/-- A line end. -/
def lineEnd? : List Char → Option (List Char)
  | '\n' :: rest => some rest
  | '\r' :: '\n' :: rest => some rest
  | _ => none

/-! ## Texts -/

/-- The character that a code point names. -/
def scalar? (n : Nat) : Option Char :=
  if n < 0xD800 ∨ (0xE000 ≤ n ∧ n < 0x110000) then some (Char.ofNat n) else none

/-- The character after a backslash. -/
def escaped : Front Char
  | 'u' :: rest => do
    let (n, rest) ← Json.hexUnit rest
    some (← scalar? n, rest)
  | 'U' :: rest => do
    let (high, rest) ← Json.hexUnit rest
    let (low, rest) ← Json.hexUnit rest
    some (← scalar? (0x10000 * high + low), rest)
  | '/' :: _ => none
  | c :: rest => do some (← Json.escaped? c, rest)
  | [] => none

/-- A text with escapes, up to its closing quote. -/
def basicText : Nat → Front (List Char)
  | 0, _ => none
  | fuel + 1, cs =>
    match cs with
    | '"' :: rest => some ([], rest)
    | '\\' :: rest => do
      let (c, rest) ← escaped rest
      let (text, rest) ← basicText fuel rest
      some (c :: text, rest)
    | c :: rest =>
      if isPlain c then do
        let (text, rest) ← basicText fuel rest
        some (c :: text, rest)
      else none
    | [] => none

/-- A text without escapes, up to its closing quote. -/
def literalText : Front (List Char) := fun cs =>
  match cs.span fun c => isPlain c && c ≠ '\'' with
  | (text, '\'' :: rest) => some (text, rest)
  | _ => none

/-- Blanks and line ends. -/
def skipBlankLines : List Char → List Char
  | '\r' :: '\n' :: rest => skipBlankLines rest
  | c :: rest => if isBlank c || c = '\n' then skipBlankLines rest else c :: rest
  | [] => []

/-- The text after a backslash that ends its line: all blanks and line ends are passed over. -/
def joinedLine? (cs : List Char) : Option (List Char) :=
  (lineEnd? (skipBlanks cs)).map skipBlankLines

/-- A text over several lines, up to three closing quotes. One or two quotes may stand in it, and
one or two before the closing ones. With `escapes` a backslash starts an escape. -/
def longText (quote : Char) (escapes : Bool) : Nat → Front (List Char)
  | 0, _ => none
  | fuel + 1, cs =>
    match cs with
    | [] => none
    | c :: rest =>
      if c = quote then
        match Text.run (· = quote) 5 cs with
        | (run, after) =>
          if 3 ≤ run.length then some (List.replicate (run.length - 3) quote, after)
          else do
            let (text, rest) ← longText quote escapes fuel after
            some (run ++ text, rest)
      else if escapes && c = '\\' then
        match joinedLine? rest with
        | some rest => longText quote escapes fuel rest
        | none => do
          let (c, rest) ← escaped rest
          let (text, rest) ← longText quote escapes fuel rest
          some (c :: text, rest)
      else
        match lineEnd? cs with
        | some rest => do
          let (text, rest) ← longText quote escapes fuel rest
          some ('\n' :: text, rest)
        | none =>
          if isPlain c then do
            let (text, rest) ← longText quote escapes fuel rest
            some (c :: text, rest)
          else none

/-- A text on one line, quoted in one of the two ways. -/
def shortText : Front String
  | '"' :: rest => (basicText (rest.length + 1) rest).map fun (text, rest) => (.ofList text, rest)
  | '\'' :: rest => (literalText rest).map fun (text, rest) => (.ofList text, rest)
  | _ => none

/-- A text over several lines after its opening quotes; a line end that follows them is dropped. -/
def longTextBody (quote : Char) (escapes : Bool) (cs : List Char) : Option (String × List Char) :=
  let cs := (lineEnd? cs).getD cs
  (longText quote escapes (cs.length + 1) cs).map fun (text, rest) => (.ofList text, rest)

/-- A text in any of the four ways. -/
def text : Front String
  | '"' :: '"' :: '"' :: rest => longTextBody '"' true rest
  | '\'' :: '\'' :: '\'' :: rest => longTextBody '\'' false rest
  | cs => shortText cs

/-! ## Numbers -/

/-- Digits after the first one; an underscore may stand between two digits. -/
def moreDigits (isDigit : Char → Bool) : Front (List Char)
  | '_' :: c :: rest => do
    if isDigit c then
      let (run, rest) ← moreDigits isDigit rest
      some (c :: run, rest)
    else none
  | '_' :: [] => none
  | c :: rest => do
    if isDigit c then
      let (run, rest) ← moreDigits isDigit rest
      some (c :: run, rest)
    else some ([], c :: rest)
  | [] => some ([], [])

/-- At least one digit, with underscores between digits. -/
def digits (isDigit : Char → Bool) : Front (List Char)
  | c :: rest => do
    if isDigit c then
      let (run, rest) ← moreDigits isDigit rest
      some (c :: run, rest)
    else none
  | [] => none

/-- A sign; none is plus. -/
def sign : List Char → Bool × List Char
  | '-' :: rest => (true, rest)
  | '+' :: rest => (false, rest)
  | cs => (false, cs)

/-- Decimal digits, without a zero before other digits. -/
def wholeDigits : Front (List Char)
  | '0' :: rest => some (['0'], rest)
  | cs => digits Char.isDigit cs

/-- An exponent with its sign. -/
def exponent : Front Int := fun cs => do
  let (negative, cs) := sign cs
  let (run, cs) ← digits Char.isDigit cs
  let n : Int := Numeral.value run
  some (if negative then -n else n, cs)

/-- An exponent, if its mark is there. -/
def exponentPart : Front (Option Int)
  | 'e' :: rest => (exponent rest).map fun (n, rest) => (some n, rest)
  | 'E' :: rest => (exponent rest).map fun (n, rest) => (some n, rest)
  | cs => some (none, cs)

/-- The number `± digits · 10 ^ power`. Beyond the finite values only a negative one is kept, as
minus infinity. -/
def floatOf? (negative : Bool) (digits : Nat) (power : Int) : Option Json :=
  let x := Binary64.ofDecimal negative digits power
  if x.isInfinite && !negative then none else some (.float x)

/-- A whole number that fits 64 bits with sign. -/
def intOf? (n : Int) : Option Json :=
  if -2 ^ (63 : Nat) ≤ n ∧ n < 2 ^ (63 : Nat) then some (.int n) else none

/-- A number in decimal digits. -/
def decimal : Front Json := fun cs => do
  let (negative, cs) := sign cs
  let (whole, cs) ← wholeDigits cs
  match cs with
  | '.' :: rest => do
    let (fraction, rest) ← digits Char.isDigit rest
    let (power, rest) ← exponentPart rest
    let number ← floatOf? negative (Numeral.value (whole ++ fraction))
      (power.getD 0 - fraction.length)
    some (number, rest)
  | cs => do
    let (power, rest) ← exponentPart cs
    match power with
    | some power => some (← floatOf? negative (Numeral.value whole) power, rest)
    | none =>
      let n : Int := Numeral.value whole
      some (← intOf? (if negative then -n else n), rest)

/-- The number that digits of a base write. -/
def valueIn (base : Nat) (run : List Char) : Nat :=
  run.foldl (fun n c => base * n + (Json.hexDigit? c).getD 0) 0

/-- A whole number in base 16, 8 or 2 after its mark. -/
def based (base : Nat) : Front Json := fun cs => do
  let (run, rest) ← digits (fun c => (Json.hexDigit? c).any (· < base)) cs
  some (← intOf? (valueIn base run), rest)

/-- Infinity and what is no number, with a sign. -/
def special : Front Json := fun cs =>
  let (negative, cs) := sign cs
  match cs with
  | 'i' :: 'n' :: 'f' :: rest => some (.float (.infinity negative), rest)
  | 'n' :: 'a' :: 'n' :: rest => some (.float .nan, rest)
  | _ => none

/-- A number. -/
def number : Front Json
  | '0' :: 'x' :: rest => based 16 rest
  | '0' :: 'o' :: rest => based 8 rest
  | '0' :: 'b' :: rest => based 2 rest
  | cs =>
    match (sign cs).2 with
    | 'i' :: _ => special cs
    | 'n' :: _ => special cs
    | _ => decimal cs

/-! ## Dates and times -/

/-- Exactly `count` digits of a number between two bounds. -/
def fixedField (count low high : Nat) : Front Nat := fun cs =>
  match Text.run Char.isDigit count cs with
  | (run, rest) =>
    let n := Numeral.value run
    if run.length = count ∧ low ≤ n ∧ n ≤ high then some (n, rest) else none

/-- One character. -/
def mark (c : Char) : Front Unit
  | d :: rest => if c = d then some ((), rest) else none
  | [] => none

/-- A date, as it is written back. -/
def dateText : Front (List Char) := fun cs => do
  let (year, cs) ← fixedField 4 0 9999 cs
  let ((), cs) ← mark '-' cs
  let (month, cs) ← fixedField 2 1 12 cs
  let ((), cs) ← mark '-' cs
  let (day, cs) ← fixedField 2 1 31 cs
  let date ← Date.ofCivil? ⟨year, month, day⟩
  some (date.chars, cs)

/-- The digits of a fraction of a second: nine count, and zeros at their end go. -/
def fractionText : Front (List Char)
  | '.' :: rest => do
    let (run, rest) ← Json.digits1 rest
    let kept := ((run.take 9).reverse.dropWhile (· = '0')).reverse
    some (if kept = [] then [] else '.' :: kept, rest)
  | cs => some ([], cs)

/-- A time of day, as it is written back. -/
def timeText : Front (List Char) := fun cs => do
  let (hour, cs) ← fixedField 2 0 23 cs
  let ((), cs) ← mark ':' cs
  let (minute, cs) ← fixedField 2 0 59 cs
  let ((), cs) ← mark ':' cs
  let (second, cs) ← fixedField 2 0 60 cs
  let (fraction, cs) ← fractionText cs
  some (Numeral.padded 2 hour ++ ':' :: Numeral.padded 2 minute ++ ':' :: Numeral.padded 2 second ++
    fraction, cs)

/-- An offset from UTC, as it is written back; none is no text. -/
def offsetText : Front (List Char)
  | 'Z' :: rest => some (['Z'], rest)
  | 'z' :: rest => some (['Z'], rest)
  | c :: rest =>
    if c = '+' ∨ c = '-' then do
      let (hours, rest) ← fixedField 2 0 23 rest
      let ((), rest) ← mark ':' rest
      let (minutes, rest) ← fixedField 2 0 59 rest
      let sign := if c = '-' ∧ hours + minutes ≠ 0 then '-' else '+'
      some (sign :: Numeral.padded 2 hours ++ ':' :: Numeral.padded 2 minutes, rest)
    else some ([], c :: rest)
  | [] => some ([], [])

/-- The value that stands for a date or time. -/
def moment (chars : List Char) : Json :=
  .obj [("$__toml_private_datetime", .str (.ofList chars))]

/-- A time of day with its offset after the mark that ends a date. -/
def timeAfterDate : Front (List Char)
  | c :: rest =>
    if c = 'T' ∨ c = 't' ∨ c = ' ' then do
      let (time, rest) ← timeText rest
      let (offset, rest) ← offsetText rest
      some ('T' :: time ++ offset, rest)
    else none
  | [] => none

/-- A date, a time of day, or both. -/
def dateOrTime : Front Json := fun cs =>
  match dateText cs with
  | some (date, rest) =>
    match timeAfterDate rest with
    | some (time, rest) => some (moment (date ++ time), rest)
    | none => some (moment date, rest)
  | none => (timeText cs).map fun (time, rest) => (moment time, rest)

/-- A number, date or time. -/
def numberOrMoment : Front Json := fun cs =>
  match dateOrTime cs with
  | some found => some found
  | none => number cs

end TradeGate.Toml
