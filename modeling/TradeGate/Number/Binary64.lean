import TradeGate.Number.Rounding

/-!
# Binary64 values as exact numbers

A finite value is its sign and its magnitude in units of `2⁻¹⁰⁷⁴`, the least positive value, so two
finite values are compared as integers and every operation is "the exact result, rounded once to
the nearest representable magnitude, a tie to even". Main definitions: `Binary64`, `spacing` (the
distance between neighbours), `ofRatio`, the order `le` and the arithmetic `add`, `mul`, `div`.
-/

namespace TradeGate

-- Powers are those of the core library.
attribute [local instance (high)] instPowNat

namespace Binary64

/-- How many units make one. -/
def unitsPerOne : Nat := 2 ^ (1074 : Nat)

/-- The magnitude, in units, from which on a result is infinite. -/
def overflow : Nat := 2 ^ (2098 : Nat)

/-- The distance between neighbours at a magnitude of `units`: 53 binary digits are kept. -/
def spacing (units : Nat) : Nat := 2 ^ (units.log2 - 52)

/-- `units` is a finite magnitude with at most 53 significant binary digits. -/
def Representable (units : Nat) : Prop :=
  units < overflow ∧ units % spacing units = 0

instance (units : Nat) : Decidable (Representable units) :=
  inferInstanceAs (Decidable (_ ∧ _))

end Binary64

/-- A binary64 value: not a number, an infinity, or a signed finite magnitude in units of
`2⁻¹⁰⁷⁴`. Zero has a sign. -/
inductive Binary64 where
  | nan
  | infinity (negative : Bool)
  | finite (negative : Bool) (units : Nat) (representable : Binary64.Representable units)
  deriving DecidableEq

namespace Binary64

/-! ## Rounding -/

/-- The multiple of the spacing nearest to `num / den` units, a tie going to the even multiple. -/
def roundUnits (num den : Nat) : Nat :=
  let step := spacing (num / den)
  step * divHalfEven num (den * step)

/-- The value nearest to `num / den` units; a magnitude beyond the finite ones is infinite. -/
def ofUnits (negative : Bool) (num den : Nat) : Binary64 :=
  let units := roundUnits num den
  if h : Representable units then finite negative units h else infinity negative

/-- The value nearest to `num / den`. -/
def ofRatio (negative : Bool) (num den : Nat) : Binary64 :=
  ofUnits negative (num * unitsPerOne) den

/-- The value nearest to a natural number. -/
def ofNat (n : Nat) : Binary64 := ofRatio false n 1

/-- The value nearest to an integer; zero is positive. -/
def ofInt (n : Int) : Binary64 := ofRatio (n < 0) n.natAbs 1

/-- The value nearest to `num / 10 ^ places`, for constants such as 0.90. -/
def ofPlaces (num places : Nat) : Binary64 := ofRatio false num (10 ^ places)

/-- Zero with a sign. -/
def zero (negative : Bool) : Binary64 := ofRatio negative 0 1

instance : Inhabited Binary64 := ⟨nan⟩

/-! ## Sign and size -/

/-- Neither infinite nor not a number. -/
def isFinite : Binary64 → Bool
  | finite .. => true
  | _ => false

def isNaN : Binary64 → Bool
  | nan => true
  | _ => false

def isInfinite : Binary64 → Bool
  | infinity _ => true
  | _ => false

/-- The finite value zero, of either sign. -/
def isZero : Binary64 → Bool
  | finite _ units _ => units == 0
  | _ => false

/-- The sign bit; that of a value that is not a number counts as clear. -/
def negative : Binary64 → Bool
  | nan => false
  | infinity s => s
  | finite s _ _ => s

/-- The value with its sign turned over. -/
def neg : Binary64 → Binary64
  | nan => nan
  | infinity s => infinity (!s)
  | finite s units h => finite (!s) units h

/-- The value with its sign cleared. -/
def abs : Binary64 → Binary64
  | nan => nan
  | infinity _ => infinity false
  | finite _ units h => finite false units h

/-- The magnitude of a finite value in units, with its sign. -/
def signedUnits (negative : Bool) (units : Nat) : Int :=
  if negative then -(units : Int) else units

/-! ## Order -/

/-- `x ≤ y` as numbers; false if either is not a number. -/
def le : Binary64 → Binary64 → Bool
  | nan, _ => false
  | _, nan => false
  | infinity true, _ => true
  | _, infinity false => true
  | infinity false, _ => false
  | _, infinity true => false
  | finite s x _, finite t y _ => signedUnits s x ≤ signedUnits t y

/-- `x < y` as numbers; false if either is not a number. -/
def lt (x y : Binary64) : Bool :=
  le x y && !le y x

theorem le_nan (x : Binary64) : le x nan = false := by
  cases x <;> rfl

theorem le_refl_of_isNaN_eq_false {x : Binary64} (h : x.isNaN = false) : le x x = true := by
  match x, h with
  | infinity true, _ => rfl
  | infinity false, _ => rfl
  | finite s u _, _ => simp [le]

theorem le_trans {x y z : Binary64} (hxy : le x y = true) (hyz : le y z = true) :
    le x z = true := by
  match x, y, z with
  | nan, _, _ => simp [le] at hxy
  | _, nan, _ => simp [le_nan] at hxy
  | _, _, nan => simp [le_nan] at hyz
  | infinity true, _, infinity _ => rfl
  | infinity true, _, finite .. => rfl
  | _, infinity true, infinity true => simpa using hxy
  | finite .., infinity true, _ => simp [le] at hxy
  | infinity false, infinity true, _ => simp [le] at hxy
  | infinity false, infinity false, _ => simpa using hyz
  | infinity false, finite .., _ => simp [le] at hxy
  | finite .., _, infinity false => rfl
  | finite .., finite .., infinity true => simp [le] at hyz
  | finite .., infinity false, infinity true => simp [le] at hyz
  | finite .., infinity false, finite .. => simp [le] at hyz
  | finite .., finite .., finite .. =>
    simp only [le, decide_eq_true_eq] at hxy hyz ⊢
    exact Int.le_trans hxy hyz

/-! ## Arithmetic -/

/-- The exact sum, rounded once. A sum of zeros is negative only if both are. -/
def add : Binary64 → Binary64 → Binary64
  | nan, _ => nan
  | _, nan => nan
  | infinity s, infinity t => if s = t then infinity s else nan
  | infinity s, _ => infinity s
  | _, infinity t => infinity t
  | finite s x _, finite t y _ =>
    let sum := signedUnits s x + signedUnits t y
    if sum = 0 then zero (s && t) else ofUnits (sum < 0) sum.natAbs 1

/-- The exact difference, rounded once. -/
def sub (x y : Binary64) : Binary64 := add x y.neg

/-- The exact product, rounded once. -/
def mul : Binary64 → Binary64 → Binary64
  | nan, _ => nan
  | _, nan => nan
  | infinity s, infinity t => infinity (s != t)
  | infinity s, finite t y _ => if y = 0 then nan else infinity (s != t)
  | finite s x _, infinity t => if x = 0 then nan else infinity (s != t)
  | finite s x _, finite t y _ => ofUnits (s != t) (x * y) unitsPerOne

/-- The exact quotient, rounded once. A non-zero value divided by zero is infinite. -/
def div : Binary64 → Binary64 → Binary64
  | nan, _ => nan
  | _, nan => nan
  | infinity _, infinity _ => nan
  | infinity s, finite t _ _ => infinity (s != t)
  | finite s _ _, infinity t => zero (s != t)
  | finite s x _, finite t y _ =>
    if y = 0 then (if x = 0 then nan else infinity (s != t))
    else ofUnits (s != t) (x * unitsPerOne) y

instance : Add Binary64 := ⟨add⟩
instance : Sub Binary64 := ⟨sub⟩
instance : Mul Binary64 := ⟨mul⟩
instance : Div Binary64 := ⟨div⟩
instance : Neg Binary64 := ⟨neg⟩

/-! ## Reading a decimal in two roundings -/

/-- The value of `significand · 10 ^ exponent`, read by rounding the significand and then scaling
it once by a power of ten that is itself rounded; `none` if it is beyond the finite values.
Exponents below `-308` are scaled down in two steps. -/
def ofScientific? (negative : Bool) (significand : Nat) (exponent : Int) : Option Binary64 :=
  let power (e : Nat) : Binary64 := ofNat (10 ^ e)
  let signed (x : Binary64) : Binary64 := if negative then x.neg else x
  let start := ofNat significand
  if exponent > 308 then
    if significand = 0 then some (zero negative) else none
  else if exponent ≥ 0 then
    let scaled := start * power exponent.toNat
    if scaled.isInfinite then none else some (signed scaled)
  else if exponent ≥ -308 then
    some (signed (start / power exponent.natAbs))
  else if exponent ≥ -616 then
    some (signed (start / power 308 / power (exponent.natAbs - 308)))
  else some (zero negative)

end Binary64

end TradeGate
