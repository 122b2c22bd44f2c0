import TradeGate.Number.Binary64
import TradeGate.Number.Numeral

/-!
# Texts of binary64 values

`Binary64.shortest` finds the fewest decimal digits that read back as the value, and of those the
nearest; `Binary64.text` lays them out as a `FloatText` says, which also settles a tie, and
`Binary64.fixed` writes the exact value with a given number of places, a tie going to the even
digit.
-/

namespace TradeGate

-- Powers are those of the core library.
attribute [local instance (high)] instPowNat

namespace Binary64

/-! ## The shortest digits -/

/-- The numbers that round to the value of `units`, as bounds in quarter units. The lower half is
narrower where the spacing below is half the spacing above. -/
def roundingInterval (units : Nat) : Nat × Nat :=
  let step := spacing units
  let below := if units = 2 ^ units.log2 ∧ 1 < step then step else 2 * step
  (4 * units - below, 4 * units + 2 * step)

/-- `digits · 10 ^ exponent` in quarter units, as a fraction. -/
def quarterUnits (digits : Nat) (exponent : Int) : Nat × Nat :=
  (4 * digits * unitsPerOne * 10 ^ exponent.toNat, 10 ^ (-exponent).toNat)

/-- `digits · 10 ^ exponent` reads back as the value of `units`: it lies between the bounds, which
belong to the value itself if its significand is even. -/
def readsBack (units digits : Nat) (exponent : Int) : Bool :=
  let (low, high) := roundingInterval units
  let (num, den) := quarterUnits digits exponent
  if units / spacing units % 2 = 0 then low * den ≤ num && num ≤ high * den
  else low * den < num && num < high * den

/-- How far `digits · 10 ^ exponent` is from `units`, as a numerator over the denominator that all
decimals of this exponent share. -/
def distance (units digits : Nat) (exponent : Int) : Nat :=
  let (num, den) := quarterUnits digits exponent
  (num - 4 * units * den) + (4 * units * den - num)

/-- The power of ten of the leading digit of `units`. -/
def leadingExponent (units : Nat) : Int :=
  (Numeral.size (units * 10 ^ (400 : Nat) / unitsPerOne) : Int) - 401

/-- The decimal with `count` digits nearest to `units` among the two beside it, if it reads back. Of
two equally near ones it is the upper one if `tieUp`, and the even one if not. -/
def shortestWith? (tieUp : Bool) (units count : Nat) : Option (Nat × Int) :=
  let exponent := leadingExponent units - (count - 1 : Nat)
  let lower := units * 10 ^ (-exponent).toNat / (unitsPerOne * 10 ^ exponent.toNat)
  let upper := lower + 1
  match readsBack units lower exponent, readsBack units upper exponent with
  | false, false => none
  | true, false => some (lower, exponent)
  | false, true => some (upper, exponent)
  | true, true =>
    let below := distance units lower exponent
    let above := distance units upper exponent
    if below < above ∨ (below = above ∧ !tieUp ∧ lower % 2 = 0) then some (lower, exponent)
    else some (upper, exponent)

/-- The shortest decimal `digits · 10 ^ exponent` that reads back as the positive value of `units`,
without zeros at the end of its digits. -/
def shortest (tieUp : Bool) (units : Nat) : Nat × Int :=
  let (digits, exponent) :=
    ((List.range' 1 17).findSome? (shortestWith? tieUp units)).getD (units, 0)
  let (stripped, taken) := Numeral.stripZeros 17 digits
  (stripped, exponent + taken)

end Binary64

/-! ## Layout -/

/-- How a value is laid out: for which places of the point it is positional, whether a whole value
keeps `.0`, whether an exponent that is not negative has a sign, which of two equally near digits is
written, and the words for the values that are not finite. -/
structure FloatText where
  positional : Int → Bool
  wholePoint : Bool
  signedExponent : Bool
  tieUp : Bool
  notANumber : String
  infinite : String

namespace FloatText

/-- The layout of data texts: positional from `10⁻⁵` up to below `10¹⁶`, and a point or an exponent
in every number. -/
def data : FloatText where
  positional place := -5 < place && place ≤ 16
  wholePoint := true
  signedExponent := true
  tieUp := false
  notANumber := "null"
  infinite := "null"

/-- The layout of measurement lines: always positional, a whole value without a point. -/
def plain : FloatText where
  positional _ := true
  wholePoint := false
  signedExponent := false
  tieUp := true
  notANumber := "NaN"
  infinite := "inf"

/-- The digits `digits · 10 ^ exponent` of a positive value in this layout. -/
def layout (style : FloatText) (digits : Nat) (exponent : Int) : List Char :=
  let written := Numeral.digits digits
  let place := written.length + exponent
  if style.positional place then
    if 0 ≤ exponent then
      written ++ List.replicate exponent.toNat '0' ++
        (if style.wholePoint then ['.', '0'] else [])
    else if 0 < place then
      written.take place.toNat ++ '.' :: written.drop place.toNat
    else
      '0' :: '.' :: List.replicate (-place).toNat '0' ++ written
  else
    let power := place - 1
    let mantissa := match written with
      | lead :: rest@(_ :: _) => lead :: '.' :: rest
      | short => short
    let sign := if power < 0 then ['-'] else if style.signedExponent then ['+'] else []
    mantissa ++ 'e' :: sign ++ Numeral.digits power.natAbs

end FloatText

namespace Binary64

/-- The text of a value in a layout. -/
def text (style : FloatText) : Binary64 → String
  | nan => style.notANumber
  | infinity s => String.ofList ((if s then ['-'] else []) ++ style.infinite.toList)
  | finite s units _ =>
    let magnitude :=
      if units = 0 then '0' :: (if style.wholePoint then ['.', '0'] else [])
      else
        let (digits, exponent) := shortest style.tieUp units
        style.layout digits exponent
    String.ofList ((if s then ['-'] else []) ++ magnitude)

/-- The exact value with `places` digits after the point, a tie going to the even digit. The sign of
a value that rounds to zero is kept. -/
def fixed (places : Nat) : Binary64 → String
  | nan => "NaN"
  | infinity s => if s then "-inf" else "inf"
  | finite s units _ =>
    let written :=
      Numeral.padded (places + 1) (divHalfEven (units * 10 ^ places) unitsPerOne)
    let whole := written.length - places
    let magnitude :=
      if places = 0 then written else written.take whole ++ '.' :: written.drop whole
    String.ofList ((if s then ['-'] else []) ++ magnitude)

/-! ## Reading -/

/-- The value nearest to `digits · 10 ^ exponent`, a tie going to the even significand. -/
def ofDecimal (negative : Bool) (digits : Nat) (exponent : Int) : Binary64 :=
  let place := Numeral.size digits + exponent
  if digits = 0 ∨ place < -400 then zero negative
  else if 400 < place then infinity negative
  else ofRatio negative (digits * 10 ^ exponent.toNat) (10 ^ (-exponent).toNat)

end Binary64

end TradeGate
