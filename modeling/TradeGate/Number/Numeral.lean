/-!
# Decimal numerals

Digits of natural numbers as lists of characters: `digits n` writes `n` without leading zeros,
`padded width n` with at least `width` digits, and `value` reads a list of digits back.
-/

namespace TradeGate.Numeral

-- Powers are those of the core library.
attribute [local instance (high)] instPowNat

/-- The decimal digits of `n`, the leading one not zero unless `n` is zero. -/
def digits (n : Nat) : List Char :=
  Nat.toDigits 10 n

/-- The digits of `n`, filled with zeros on the left to at least `width` of them. -/
def padded (width n : Nat) : List Char :=
  let written := digits n
  List.replicate (width - written.length) '0' ++ written

/-- The digit that a decimal character stands for. -/
def digit (c : Char) : Nat :=
  c.toNat - '0'.toNat

/-- The number that a list of decimal digits writes. -/
def value (cs : List Char) : Nat :=
  cs.foldl (fun n c => 10 * n + digit c) 0

/-- The longest run of decimal digits at the front, and what follows it. -/
def span (cs : List Char) : List Char × List Char :=
  (cs.takeWhile Char.isDigit, cs.dropWhile Char.isDigit)

/-- How many decimal digits `n` has. -/
def size (n : Nat) : Nat :=
  (digits n).length

/-- `n` without the zeros at its end, at most `fuel` of them, and how many were taken away. -/
def stripZeros : (fuel n : Nat) → Nat × Nat
  | 0, n => (n, 0)
  | fuel + 1, n =>
    if n % 10 = 0 then
      let (rest, taken) := stripZeros fuel (n / 10)
      (rest, taken + 1)
    else (n, 0)

theorem span_append (cs : List Char) : (span cs).1 ++ (span cs).2 = cs :=
  List.takeWhile_append_dropWhile

theorem stripZeros_fst_mul (fuel n : Nat) :
    (stripZeros fuel n).1 * 10 ^ (stripZeros fuel n).2 = n := by
  induction fuel generalizing n with
  | zero => simp [stripZeros]
  | succ fuel ih =>
    simp only [stripZeros]
    split
    · rename_i h
      have := ih (n / 10)
      simp only [Nat.pow_succ, ← Nat.mul_assoc, this]
      omega
    · simp

theorem stripZeros_snd_le (fuel n : Nat) : (stripZeros fuel n).2 ≤ fuel := by
  induction fuel generalizing n with
  | zero => simp [stripZeros]
  | succ fuel ih =>
    simp only [stripZeros]
    split
    · have := ih (n / 10)
      simp only
      omega
    · simp

end TradeGate.Numeral
