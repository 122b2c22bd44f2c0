/-!
# Rounding a quotient to the nearest integer

`divHalfEven num den` is the integer nearest to `num / den`, a tie going to the even neighbour, and
`divHalfUp num den` is the same with a tie going up. Results of arithmetic and fixed places are
rounded by the first, amounts that are read with too many places by the second. Main statements: an
exact quotient is kept (`divHalfEven_of_dvd`), and no quotient is off by more than half a unit
(`two_mul_divHalfEven_le`, `le_two_mul_divHalfEven`).
-/

namespace TradeGate

/-- The integer nearest to `num / den`; of two equally near ones the even one. -/
def divHalfEven (num den : Nat) : Nat :=
  let quotient := num / den
  let twice := 2 * (num % den)
  if twice > den ∨ (twice = den ∧ quotient % 2 = 1) then quotient + 1 else quotient

/-- The integer nearest to `num / den`; of two equally near ones the greater. -/
def divHalfUp (num den : Nat) : Nat := (2 * num + den) / (2 * den)

theorem divHalfEven_of_dvd {num den : Nat} (hden : 0 < den) (h : den ∣ num) :
    divHalfEven num den = num / den := by
  have hmod : num % den = 0 := Nat.mod_eq_zero_of_dvd h
  simp only [divHalfEven, hmod]
  split <;> omega

theorem divHalfEven_eq_or (num den : Nat) :
    divHalfEven num den = num / den ∨ divHalfEven num den = num / den + 1 := by
  simp only [divHalfEven]
  split <;> simp

/-- The rounded quotient exceeds the exact one by at most a half. -/
theorem two_mul_divHalfEven_le (num den : Nat) :
    2 * (den * divHalfEven num den) ≤ 2 * num + den := by
  have hdiv := Nat.div_add_mod num den
  simp only [divHalfEven]
  split
  · rw [Nat.mul_add]; omega
  · omega

/-- The rounded quotient falls short of the exact one by at most a half. -/
theorem le_two_mul_divHalfEven {num den : Nat} (hden : 0 < den) :
    2 * num ≤ 2 * (den * divHalfEven num den) + den := by
  have hdiv := Nat.div_add_mod num den
  have hmod := Nat.mod_lt num hden
  simp only [divHalfEven]
  split
  · rw [Nat.mul_add]; omega
  · omega

end TradeGate
