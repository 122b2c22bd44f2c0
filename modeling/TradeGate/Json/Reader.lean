import TradeGate.Json.Value
import TradeGate.Number.Numeral
import TradeGate.Text.Front

/-!
# Reading JSON

`Json.read?` reads one value and nothing but blanks around it. A number with a fraction or an
exponent is read as binary64 by rounding its digits and then scaling them, which may differ from the
nearest value in the last place. Main definitions: `Json.read?` and `Json.readStrict?`.
-/

namespace TradeGate.Json

-- Powers are those of the core library.
attribute [local instance (high)] instPowNat

open Text (Front)

/-- A blank of JSON. -/
def isSpace (c : Char) : Bool :=
  c = ' ' || c = '\n' || c = '\r' || c = '\t'

def skipSpace (cs : List Char) : List Char := cs.dropWhile isSpace

/-! ## Numbers -/

/-- The digits that are kept: a digit is added as long as the number stays below `2⁶⁴`. Returns the
number and how many digits were left over. -/
def keepDigits (start : Nat) : List Char → Nat × Nat
  | [] => (start, 0)
  | c :: rest =>
    let next := 10 * start + Numeral.digit c
    if next < 2 ^ (64 : Nat) then keepDigits next rest else (start, rest.length + 1)

/-- The value of a number without fraction and exponent. One that fits neither 64 bits without sign
nor 64 bits with sign is read as binary64, and so is minus zero. -/
def wholeNumber (negative : Bool) (whole : List Char) : Json :=
  let n := Numeral.value whole
  let (kept, left) := keepDigits 0 whole
  let rounded : Json := ((Binary64.ofScientific? negative kept left).map float).getD malformed
  if negative then
    if n = 0 then rounded else if n ≤ 2 ^ (63 : Nat) then int (-(n : Int)) else rounded
  else if n < 2 ^ (64 : Nat) then int n
  else rounded

/-- The value of a number with a fraction or an exponent: its first digits, as many as stay below
`2⁶⁴`, and a power of ten for the others. -/
def scaledNumber (negative : Bool) (whole fraction : List Char) (exponent : Int) : Json :=
  let (kept, left) := keepDigits 0 whole
  let (significand, dropped) := keepDigits kept fraction
  let places : Int := (fraction.length - dropped : Nat)
  ((Binary64.ofScientific? negative significand (left - places + exponent)).map float).getD
    malformed

/-- At least one digit. -/
def digits1 : Front (List Char) := fun cs =>
  match Numeral.span cs with
  | ([], _) => none
  | span => some span

/-- The digits before the point: no zero before other digits. -/
def wholeDigits : Front (List Char) := fun cs => do
  let (run, rest) ← digits1 cs
  if run.head? = some '0' ∧ run.length ≠ 1 then none else some (run, rest)

/-- The digits after a point; none without a point. -/
def fractionDigits : Front (List Char)
  | '.' :: rest => digits1 rest
  | cs => some ([], cs)

/-- The exponent of ten, if there is one. -/
def exponentPart : Front (Option Int)
  | c :: rest =>
    if c = 'e' ∨ c = 'E' then
      let signed (sign : Int) (cs : List Char) : Option (Option Int × List Char) :=
        (digits1 cs).map fun (run, rest) => (some (sign * Numeral.value run), rest)
      match rest with
      | '-' :: rest => signed (-1) rest
      | '+' :: rest => signed 1 rest
      | rest => signed 1 rest
    else some (none, c :: rest)
  | [] => some (none, [])

/-- A number. -/
def number : Front Json := fun cs => do
  let (negative, cs) := match cs with
    | '-' :: rest => (true, rest)
    | cs => (false, cs)
  let (whole, cs) ← wholeDigits cs
  let (fraction, cs) ← fractionDigits cs
  let (exponent, cs) ← exponentPart cs
  if fraction = [] ∧ exponent = none then some (wholeNumber negative whole, cs)
  else some (scaledNumber negative whole fraction (exponent.getD 0), cs)

/-! ## Texts -/

/-- The number that a hexadecimal digit stands for. -/
def hexDigit? (c : Char) : Option Nat :=
  if c.isDigit then some (Numeral.digit c)
  else if 'a' ≤ c ∧ c ≤ 'f' then some (c.toNat - 'a'.toNat + 10)
  else if 'A' ≤ c ∧ c ≤ 'F' then some (c.toNat - 'A'.toNat + 10)
  else none

/-- Four hexadecimal digits. -/
def hexUnit : Front Nat
  | a :: b :: c :: d :: rest => do
    some (4096 * (← hexDigit? a) + 256 * (← hexDigit? b) + 16 * (← hexDigit? c) + (← hexDigit? d),
      rest)
  | _ => none

/-- The character that a letter after a backslash stands for. -/
def escaped? : Char → Option Char
  | '"' => some '"'
  | '\\' => some '\\'
  | '/' => some '/'
  | 'b' => some '\x08'
  | 'f' => some '\x0C'
  | 'n' => some '\n'
  | 'r' => some '\r'
  | 't' => some '\t'
  | _ => none

/-- A unit of a text: a character, or half a surrogate pair. -/
inductive TextUnit where
  | char (c : Char)
  | half (unit : Nat)

/-- The first half of a surrogate pair. -/
def isLeading (unit : Nat) : Bool := 0xD800 ≤ unit && unit < 0xDC00

/-- The second half of a surrogate pair. -/
def isTrailing (unit : Nat) : Bool := 0xDC00 ≤ unit && unit < 0xE000

/-- The text of a list of units: halves that stand in pairs are joined. A half that stands alone has
no text. -/
def joinUnits : List TextUnit → Option (List Char)
  | [] => some []
  | .char c :: rest => (joinUnits rest).map (c :: ·)
  | .half first :: .half second :: rest =>
    if isLeading first && isTrailing second then
      (joinUnits rest).map
        (Char.ofNat (0x10000 + 0x400 * (first - 0xD800) + (second - 0xDC00)) :: ·)
    else none
  | .half _ :: _ => none

/-- The units of a text up to its closing quote. Characters below the blank have to be escaped. -/
def textUnits : Nat → Front (List TextUnit)
  | 0, _ => none
  | fuel + 1, cs =>
    match cs with
    | [] => none
    | '"' :: rest => some ([], rest)
    | '\\' :: 'u' :: rest => do
      let (unit, rest) ← hexUnit rest
      let (units, rest) ← textUnits fuel rest
      let unit := if isLeading unit || isTrailing unit then .half unit else .char (Char.ofNat unit)
      some (unit :: units, rest)
    | '\\' :: c :: rest => do
      let c ← escaped? c
      let (units, rest) ← textUnits fuel rest
      some (.char c :: units, rest)
    | c :: rest =>
      if c.toNat < 0x20 ∨ c = '\\' then none
      else do
        let (units, rest) ← textUnits fuel rest
        some (.char c :: units, rest)

/-- A text after its opening quote; `none` inside if it has half a surrogate pair. -/
def textBody : Front (Option String) := fun cs => do
  let (units, rest) ← textUnits (cs.length + 1) cs
  some ((joinUnits units).map String.ofList, rest)

/-! ## Values -/

mutual

/-- A value. Every step down takes one from the fuel. -/
def value : Nat → Front Json
  | 0, _ => none
  | fuel + 1, cs =>
    match skipSpace cs with
    | 'n' :: 'u' :: 'l' :: 'l' :: rest => some (null, rest)
    | 't' :: 'r' :: 'u' :: 'e' :: rest => some (bool true, rest)
    | 'f' :: 'a' :: 'l' :: 's' :: 'e' :: rest => some (bool false, rest)
    | '"' :: rest => (textBody rest).map fun (s, rest) => ((s.map str).getD malformed, rest)
    | '[' :: rest =>
      match skipSpace rest with
      | ']' :: rest => some (arr [], rest)
      | rest => (elements fuel rest).map fun (items, rest) => (arr items, rest)
    | '{' :: rest =>
      match skipSpace rest with
      | '}' :: rest => some (obj [], rest)
      | rest =>
        (members fuel rest).map fun (pairs, rest) => ((pairs.map obj).getD malformed, rest)
    | cs => number cs

/-- The items of an array up to its closing bracket. -/
def elements : Nat → Front (List Json)
  | 0, _ => none
  | fuel + 1, cs => do
    let (item, rest) ← value fuel cs
    match skipSpace rest with
    | ']' :: rest => some ([item], rest)
    | ',' :: rest => do
      let (items, rest) ← elements fuel rest
      some (item :: items, rest)
    | _ => none

/-- The members of an object up to its closing brace; `none` inside if a name has half a surrogate
pair. -/
def members : Nat → Front (Option (List (String × Json)))
  | 0, _ => none
  | fuel + 1, cs =>
    match skipSpace cs with
    | '"' :: rest => do
      let (name, rest) ← textBody rest
      match skipSpace rest with
      | ':' :: rest => do
        let (item, rest) ← value fuel rest
        let first := name.map fun name => (name, item)
        match skipSpace rest with
        | '}' :: rest => some (first.map ([·]), rest)
        | ',' :: rest => do
          let (others, rest) ← members fuel rest
          some (do some ((← first) :: (← others)), rest)
        | _ => none
      | _ => none
    | _ => none

end

/-- Reads one value. -/
def readChars? (cs : List Char) : Option Json := do
  let (result, rest) ← value (2 * cs.length + 2) cs
  if skipSpace rest = [] then some result else none

/-- Reads one value as it is written. -/
def read? (s : String) : Option Json := readChars? s.toList

/-- How deep objects and arrays may be nested in a value that is kept. -/
def depthLimit : Nat := 128

/-- Reads one value that is to be kept whole. -/
def readStrict? (s : String) : Option Json := (read? s).bind (strict? depthLimit)

end TradeGate.Json
