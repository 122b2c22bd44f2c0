import TradeGate.Number.Shortest

/-!
# Decimal amounts

An amount is a sign, a coefficient below `2⁹⁶` and a scale of at most 28: the number
`± coefficient / 10 ^ scale`. Amounts keep their scale (`10.00` is written as it was read) but are
compared by value. A result with too many digits loses the fewest that make it fit, a tie going to
the even digit; a result too large for that is `none`. Main definitions: `Amount`, its order
`Amount.le`, `sub?`, `mul?`, `div?`, the readers `Amount.read?` and `Amount.ofBinary64?`, and the
printer `Amount.text`.
-/

namespace TradeGate

-- Powers are those of the core library.
attribute [local instance (high)] instPowNat

/-- The decimal number `± coefficient / 10 ^ scale`. -/
structure Amount where
  negative : Bool
  coefficient : Nat
  scale : Nat
  coefficient_lt : coefficient < 2 ^ (96 : Nat)
  scale_le : scale ≤ 28
  deriving DecidableEq

namespace Amount

/-- The amount with these parts, if they are in range. -/
def ofParts? (negative : Bool) (coefficient scale : Nat) : Option Amount :=
  if h : coefficient < 2 ^ (96 : Nat) ∧ scale ≤ 28 then
    some ⟨negative, coefficient, scale, h.1, h.2⟩
  else none

/-- A whole amount that fits 64 bits. -/
def ofUInt64 (n : UInt64) : Amount :=
  ⟨false, n.toNat, 0, by have := n.toNat_lt; omega, by decide⟩

/-- A whole amount, if it is in range. -/
def ofInt? (n : Int) : Option Amount :=
  ofParts? (n < 0) n.natAbs 0

def zero : Amount := ⟨false, 0, 0, by decide, by decide⟩
def hundred : Amount := ⟨false, 100, 0, by decide, by decide⟩

instance : Inhabited Amount := ⟨zero⟩

def isZero (x : Amount) : Bool := x.coefficient == 0

/-- The amount without its sign. -/
def abs (x : Amount) : Amount := { x with negative := false }

/-! ## Order -/

/-- The coefficient with its sign. -/
def signed (x : Amount) : Int :=
  if x.negative then -(x.coefficient : Int) else x.coefficient

/-- The number of units of `10⁻²⁸` in the amount. -/
def units (x : Amount) : Int :=
  x.signed * 10 ^ (28 - x.scale)

/-- `x ≤ y` as numbers. -/
def le (x y : Amount) : Bool := x.units ≤ y.units

/-- `x < y` as numbers. -/
def lt (x y : Amount) : Bool := x.units < y.units

/-! ## Arithmetic -/

/-- The number `± num / 10 ^ scale` with the fewest digits dropped that bring it into range. -/
def fit? (negative : Bool) (num scale : Nat) : Option Amount :=
  (List.range' (scale - 28) (scale + 1 - (scale - 28))).findSome? fun dropped =>
    ofParts? negative (divHalfEven num (10 ^ dropped)) (scale - dropped)

/-- `x - y`. -/
def sub? (x y : Amount) : Option Amount :=
  let scale := max x.scale y.scale
  let difference :=
    x.signed * 10 ^ (scale - x.scale) - y.signed * 10 ^ (scale - y.scale)
  fit? (difference < 0) difference.natAbs scale

/-- `x * y`; a product with zero is plain zero. -/
def mul? (x y : Amount) : Option Amount :=
  if x.isZero || y.isZero then some zero
  else fit? (x.negative != y.negative) (x.coefficient * y.coefficient) (x.scale + y.scale)

/-- The amount without zeros at the end of its places; zero becomes plain zero. -/
def normalize (x : Amount) : Amount :=
  if x.isZero then zero
  else
    match Numeral.stripZeros x.scale x.coefficient with
    | (coefficient, taken) =>
      (ofParts? x.negative coefficient (x.scale - taken)).getD x

/-- `x / y` to as many places as fit, at most 28. A quotient that the coefficients give without a
remainder keeps the difference of the scales; any other one loses the zeros at its end. -/
def div? (x y : Amount) : Option Amount :=
  if y.isZero then none
  else if x.isZero then some zero
  else
    let negative := x.negative != y.negative
    if x.coefficient % y.coefficient = 0 ∧ y.scale ≤ x.scale then
      ofParts? negative (x.coefficient / y.coefficient) (x.scale - y.scale)
    else
      let num := x.coefficient * 10 ^ y.scale
      let den := y.coefficient * 10 ^ x.scale
      ((List.range 29).reverse.findSome? fun places =>
        ofParts? negative (divHalfEven (num * 10 ^ places) den) places).map normalize

/-- The amount rounded to at most `places` places, a tie going to the even digit. -/
def round (places : Nat) (x : Amount) : Amount :=
  if x.scale ≤ places then x
  else
    (ofParts? x.negative (divHalfEven x.coefficient (10 ^ (x.scale - places))) places).getD x

/-! ## Text -/

/-- The digits with a point before the last `scale` of them and at least one digit before it. -/
def chars (x : Amount) : List Char :=
  let written := Numeral.padded (x.scale + 1) x.coefficient
  let whole := written.length - x.scale
  (if x.negative then ['-'] else []) ++
    (if x.scale = 0 then written else written.take whole ++ '.' :: written.drop whole)

def text (x : Amount) : String := String.ofList x.chars

instance : ToString Amount := ⟨text⟩

/-! ## Reading -/

/-- A number being read: the digits so far, how many of them stand after the point, and whether a
point and a digit have been seen. -/
structure Progress where
  coefficient : Nat
  scale : Nat
  point : Bool
  digits : Bool

/-- What has been read, if it holds a digit. Zero has no sign. -/
def Progress.finish (state : Progress) (negative : Bool) : Option Amount :=
  if state.digits then
    ofParts? (negative && state.coefficient != 0) state.coefficient state.scale
  else none

/-- The digits so far, one higher in the last place. A carry out of range gives up a place. -/
def Progress.roundUp (state : Progress) : Progress :=
  if state.coefficient + 1 < 2 ^ (96 : Nat) ∨ state.scale = 0 then
    { state with coefficient := state.coefficient + 1 }
  else { state with coefficient := (state.coefficient + 5) / 10, scale := state.scale - 1 }

/-- The digits before the last one of a short number are below this bound: with room to spare, ten
times as much fits 64 bits. -/
def shortBound : Nat := (2 ^ (64 : Nat) - 1) / 10 - 255

/-- The number read so far is short. -/
def Progress.isShort (state : Progress) : Bool := state.coefficient / 10 < shortBound

/-- The digit to round by. In a short number it has to follow at once; in a longer one underscores
may stand before it. -/
def Progress.nextDigit? (state : Progress) (rest : List Char) : Option Nat :=
  let next := if state.isShort then rest.head?.filter Char.isDigit else rest.find? Char.isDigit
  next.map Numeral.digit

/-- What has been read, rounded at the next digit: one from 5 on rounds away from zero. Only digits
and underscores may be left; those after that digit are of no account. -/
def Progress.roundAt (state : Progress) (negative : Bool) (rest : List Char) : Option Amount :=
  if rest.all fun c => c.isDigit || c == '_' then
    if 5 ≤ (state.nextDigit? rest).getD 0 then state.roundUp.finish negative
    else state.finish negative
  else none

/-- Reads digits with at most one point and with underscores after the first digit. A fraction that
no longer fits, by its 29th place or by its size, is rounded; a whole number that does not fit is
refused. -/
def readDigits (negative : Bool) (state : Progress) : List Char → Option Amount
  | [] => state.finish negative
  | c :: rest =>
    if state.point && state.digits && 28 ≤ state.scale then state.roundAt negative (c :: rest)
    else if c.isDigit then
      let coefficient := 10 * state.coefficient + Numeral.digit c
      if coefficient < 2 ^ (96 : Nat) then
        readDigits negative
          ⟨coefficient, if state.point then state.scale + 1 else 0, state.point, true⟩ rest
      else if state.point then state.roundAt negative (c :: rest)
      else none
    else if c = '.' ∧ !state.point then
      readDigits negative { state with point := true } rest
    else if c = '_' ∧ state.digits then readDigits negative state rest
    else none

/-- Reads a plain number: an optional sign, then digits. -/
def readPlain? : List Char → Option Amount
  | '-' :: rest => readDigits true ⟨0, 0, false, false⟩ rest
  | '+' :: rest => readDigits false ⟨0, 0, false, false⟩ rest
  | cs => readDigits false ⟨0, 0, false, false⟩ cs

/-- Reads an exponent: digits, with an optional plus sign, below `2³²`. -/
def readExponent? (cs : List Char) : Option Nat :=
  let digits := match cs with
    | '+' :: rest => rest
    | other => other
  let n := Numeral.value digits
  if digits ≠ [] ∧ digits.all Char.isDigit ∧ n < 2 ^ (32 : Nat) then some n else none

/-- The amount with its point moved `exponent` places to the right. Places that are there are used
up first; beyond them the number grows to a whole one, and then 28 is the most. -/
def shiftRight? (x : Amount) (exponent : Nat) : Option Amount :=
  if exponent ≤ x.scale then ofParts? x.negative x.coefficient (x.scale - exponent)
  else if 28 < exponent then none
  else ofParts? x.negative (x.coefficient * 10 ^ (exponent - x.scale)) 0

/-- The amount with its point moved `exponent` places to the left, 28 at most. Places beyond the
28th are rounded, a half away from zero; the sign stays even if nothing else does. -/
def shiftLeft? (x : Amount) (exponent : Nat) : Option Amount :=
  let scale := x.scale + exponent
  if 28 < exponent then none
  else if scale ≤ 28 then ofParts? x.negative x.coefficient scale
  else ofParts? x.negative (divHalfUp x.coefficient (10 ^ (scale - 28))) 28

/-- Reads a number with an exponent, `e` or `E`. -/
def readScientific? (cs : List Char) : Option Amount :=
  let isMark (c : Char) : Bool := c = 'e' || c = 'E'
  match cs.dropWhile (!isMark ·) with
  | [] => none
  | _ :: exponent => do
    let base ← readPlain? (cs.takeWhile (!isMark ·))
    match exponent with
    | '-' :: digits => do base.shiftLeft? (← readExponent? digits)
    | digits => do base.shiftRight? (← readExponent? digits)

/-- Reads a plain number, and failing that one with an exponent. -/
def read? (s : String) : Option Amount :=
  readPlain? s.toList <|> readScientific? s.toList

/-- The amount that the text of a binary64 value reads as; a value that is not finite has none. -/
def ofBinary64? (x : Binary64) : Option Amount := readPlain? (x.text .plain).toList

end Amount

end TradeGate
