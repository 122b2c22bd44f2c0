import TradeGate.Proofs.Number.Order

/-!
# Rounding keeps the order

The value nearest to a quotient grows with the quotient (`roundUnits_mono`), also where the spacing
changes between two quotients: there a power of two lies between them that is a multiple of both
spacings. A representable quotient is kept, so what lies between representable values is rounded to
a value between them, and a share of a number, in percent, is a percentage (`percent_mem`).
-/

namespace TradeGate

-- Powers are those of the core library.
attribute [local instance (high)] instPowNat

/-- A greater quotient is not rounded to less. -/
theorem divHalfEven_mono {a b : Nat} (den : Nat) (h : a ≤ b) :
    divHalfEven a den ≤ divHalfEven b den := by
  have hdiv : a / den ≤ b / den := Nat.div_le_div_right h
  rcases Nat.lt_or_eq_of_le hdiv with hlt | hsame
  · have ha := divHalfEven_eq_or a den
    have hb := divHalfEven_eq_or b den
    omega
  · -- the same neighbours, and the remainder of the greater one is greater
    have hremainder : a % den ≤ b % den := by
      have ha := Nat.div_add_mod a den
      have hb := Nat.div_add_mod b den
      rw [hsame] at ha
      omega
    unfold divHalfEven
    dsimp only
    rw [hsame]
    split <;> split <;> omega

theorem divHalfEven_mul (k : Nat) {den : Nat} (hden : 0 < den) : divHalfEven (k * den) den = k := by
  rw [divHalfEven_of_dvd hden (Nat.dvd_mul_left den k), Nat.mul_div_cancel k hden]

namespace Binary64

/-! ## The spacing -/

theorem log2_mono {a b : Nat} (h : a ≤ b) : a.log2 ≤ b.log2 := by
  by_cases ha : a = 0
  · rw [ha, Nat.log2_zero]
    exact Nat.zero_le _
  · rw [Nat.le_log2 (by omega)]
    exact Nat.le_trans (Nat.log2_self_le ha) h

theorem spacing_pos (units : Nat) : 0 < spacing units := Nat.two_pow_pos _

/-- A power of two is a multiple of every spacing up to it. -/
theorem spacing_dvd_two_pow {units k : Nat} (h : units.log2 ≤ k) : spacing units ∣ 2 ^ k :=
  Nat.pow_dvd_pow 2 (by omega)

theorem representable_two_pow {k : Nat} (h : k < 2098) : Representable (2 ^ k) := by
  have hlt := Nat.pow_lt_pow_right Nat.one_lt_two h
  refine ⟨?_, Nat.mod_eq_zero_of_dvd (spacing_dvd_two_pow (Nat.le_of_eq Nat.log2_two_pow))⟩
  rwa [overflow]

theorem unitsPerOne_pos : 0 < unitsPerOne := by
  unfold unitsPerOne
  exact Nat.two_pow_pos 1074

/-- A power of two, as a number of units. -/
theorem representable_two_pow_mul {k : Nat} (h : k < 1024) : Representable (2 ^ k * unitsPerOne) := by
  have hsplit : 2 ^ k * unitsPerOne = 2 ^ (k + 1074) := by rw [Nat.pow_add, unitsPerOne]
  rw [hsplit]
  exact representable_two_pow (by omega)

theorem representable_unitsPerOne : Representable unitsPerOne := by
  have hone := representable_two_pow_mul (show 0 < 1024 by decide)
  rwa [Nat.pow_zero, Nat.one_mul] at hone

/-! ## Rounding -/

section Rounding

variable {a b num den bound : Nat}

/-- A multiple of the spacing that is no less than the quotient is no less than what it is rounded
to. -/
theorem roundUnits_le_of_dvd (hden : 0 < den) (hdvd : spacing (num / den) ∣ bound)
    (h : num ≤ bound * den) : roundUnits num den ≤ bound := by
  obtain ⟨k, rfl⟩ := hdvd
  have hstep := Nat.mul_pos hden (spacing_pos (num / den))
  have hnum : num ≤ k * (den * spacing (num / den)) := by
    rwa [Nat.mul_comm den, ← Nat.mul_assoc, Nat.mul_comm k]
  have hle := divHalfEven_mono (den * spacing (num / den)) hnum
  rw [divHalfEven_mul k hstep] at hle
  exact Nat.mul_le_mul_left _ hle

/-- A multiple of the spacing that is no greater than the quotient is no greater than what it is
rounded to. -/
theorem le_roundUnits_of_dvd (hden : 0 < den) (hdvd : spacing (num / den) ∣ bound)
    (h : bound * den ≤ num) : bound ≤ roundUnits num den := by
  obtain ⟨k, rfl⟩ := hdvd
  have hstep := Nat.mul_pos hden (spacing_pos (num / den))
  have hnum : k * (den * spacing (num / den)) ≤ num := by
    rwa [Nat.mul_comm den, ← Nat.mul_assoc, Nat.mul_comm k]
  have hle := divHalfEven_mono (den * spacing (num / den)) hnum
  rw [divHalfEven_mul k hstep] at hle
  exact Nat.mul_le_mul_left _ hle

/-- A greater quotient is not rounded to less. -/
theorem roundUnits_mono (hden : 0 < den) (h : a ≤ b) : roundUnits a den ≤ roundUnits b den := by
  have hdiv : a / den ≤ b / den := Nat.div_le_div_right h
  rcases Nat.lt_or_eq_of_le (log2_mono hdiv) with hlog | hlog
  · -- the power of two that opens the binade of the greater quotient lies between them
    have hzero : b / den ≠ 0 := by
      intro hzero
      rw [hzero, Nat.log2_zero] at hlog
      exact Nat.not_lt_zero _ hlog
    have hbelow : a / den < 2 ^ (b / den).log2 :=
      Nat.lt_of_lt_of_le Nat.lt_log2_self (Nat.pow_le_pow_right (by decide) hlog)
    have habove : 2 ^ (b / den).log2 ≤ b / den := Nat.log2_self_le hzero
    calc roundUnits a den
        ≤ 2 ^ (b / den).log2 := roundUnits_le_of_dvd hden
          (spacing_dvd_two_pow (Nat.le_of_lt hlog))
          (Nat.le_of_lt ((Nat.div_lt_iff_lt_mul hden).1 hbelow))
      _ ≤ roundUnits b den := le_roundUnits_of_dvd hden
          (spacing_dvd_two_pow (Nat.le_refl _)) ((Nat.le_div_iff_mul_le hden).1 habove)
  · have hspacing : spacing (a / den) = spacing (b / den) := by
      unfold spacing
      rw [hlog]
    unfold roundUnits
    dsimp only
    rw [hspacing]
    exact Nat.mul_le_mul_left _ (divHalfEven_mono _ h)

/-- A representable magnitude is kept. -/
theorem roundUnits_of_representable (hden : 0 < den) (h : Representable bound) :
    roundUnits (bound * den) den = bound := by
  have hdvd : spacing (bound * den / den) ∣ bound := by
    rw [Nat.mul_div_cancel bound hden]
    exact Nat.dvd_of_mod_eq_zero h.2
  exact Nat.le_antisymm (roundUnits_le_of_dvd hden hdvd (Nat.le_refl _))
    (le_roundUnits_of_dvd hden hdvd (Nat.le_refl _))

theorem roundUnits_le (hden : 0 < den) (hbound : Representable bound) (h : num ≤ bound * den) :
    roundUnits num den ≤ bound := by
  rw [← roundUnits_of_representable hden hbound]
  exact roundUnits_mono hden h

theorem le_roundUnits (hden : 0 < den) (hbound : Representable bound) (h : bound * den ≤ num) :
    bound ≤ roundUnits num den := by
  rw [← roundUnits_of_representable hden hbound]
  exact roundUnits_mono hden h

/-- A quotient is rounded to a multiple of the spacing at the result. -/
theorem spacing_roundUnits_dvd (hden : 0 < den) :
    spacing (roundUnits num den) ∣ roundUnits num den := by
  have hnext : num < 2 ^ ((num / den).log2 + 1) * den :=
    (Nat.div_lt_iff_lt_mul hden).1 Nat.lt_log2_self
  have hle : roundUnits num den ≤ 2 ^ ((num / den).log2 + 1) :=
    roundUnits_le_of_dvd hden (spacing_dvd_two_pow (Nat.le_succ _)) (Nat.le_of_lt hnext)
  rcases Nat.lt_or_eq_of_le hle with hlt | hsame
  · -- the result is in the binade of the quotient or below
    have hlog : (roundUnits num den).log2 ≤ (num / den).log2 := by
      by_cases hzero : roundUnits num den = 0
      · rw [hzero, Nat.log2_zero]
        exact Nat.zero_le _
      · exact Nat.le_of_lt_succ ((Nat.log2_lt hzero).2 hlt)
    exact Nat.dvd_trans (Nat.pow_dvd_pow 2 (Nat.sub_le_sub_right hlog 52)) (Nat.dvd_mul_right _ _)
  · -- it is the power of two above
    rw [hsame]
    exact spacing_dvd_two_pow (Nat.le_of_eq Nat.log2_two_pow)

/-- Up to a representable magnitude every quotient is rounded to a finite one. -/
theorem representable_roundUnits (hden : 0 < den) (hbound : Representable bound)
    (h : num ≤ bound * den) : Representable (roundUnits num den) :=
  ⟨Nat.lt_of_le_of_lt (roundUnits_le hden hbound h) hbound.1,
    Nat.mod_eq_zero_of_dvd (spacing_roundUnits_dvd hden)⟩

theorem ofUnits_of_representable (negative : Bool) (h : Representable (roundUnits num den)) :
    ofUnits negative num den = finite negative (roundUnits num den) h := by
  unfold ofUnits
  exact dif_pos h

end Rounding

/-! ## Shares in percent -/

/-- The magnitude of a natural number. -/
def unitsOf (n : Nat) : Nat := roundUnits (n * unitsPerOne) 1

theorem unitsOf_mono {m n : Nat} (h : m ≤ n) : unitsOf m ≤ unitsOf n :=
  roundUnits_mono Nat.one_pos (Nat.mul_le_mul_right _ h)

theorem unitsOf_pos {n : Nat} (h : 0 < n) : 0 < unitsOf n := by
  have hone : unitsPerOne * 1 ≤ n * unitsPerOne := by
    rw [Nat.mul_comm]
    exact Nat.mul_le_mul_right _ h
  exact Nat.lt_of_lt_of_le unitsPerOne_pos
    (le_roundUnits Nat.one_pos representable_unitsPerOne hone)

/-- A count of 64 bits is a finite value. -/
theorem representable_unitsOf {n : Nat} (h : n < 2 ^ (64 : Nat)) : Representable (unitsOf n) := by
  refine representable_roundUnits Nat.one_pos (representable_two_pow_mul (show 64 < 1024 by decide)) ?_
  rw [Nat.mul_one]
  exact Nat.mul_le_mul_right _ (Nat.le_of_lt h)

theorem ofNat_eq_finite {n : Nat} (h : n < 2 ^ (64 : Nat)) :
    ofNat n = finite false (unitsOf n) (representable_unitsOf h) :=
  ofUnits_of_representable false (representable_unitsOf h)

section Percent

variable {x y : Nat} (hx : Representable x) (hy : Representable y)

theorem finite_div_finite (s t : Bool) (hzero : y ≠ 0) :
    finite s x hx / finite t y hy = ofUnits (s != t) (x * unitsPerOne) y := by
  show div _ _ = _
  unfold div
  dsimp only
  rw [if_neg hzero]

theorem finite_mul_finite (s t : Bool) :
    finite s x hx * finite t y hy = ofUnits (s != t) (x * y) unitsPerOne := by
  show mul _ _ = _
  unfold mul
  dsimp only

/-- The share that a magnitude has in one that is no less is at most one. -/
theorem exists_div_eq (hle : x ≤ y) (hpos : 0 < y) :
    ∃ share hshare, finite false x hx / finite false y hy = finite false share hshare ∧
      share ≤ unitsPerOne := by
  have hunits : x * unitsPerOne ≤ unitsPerOne * y := by
    rw [Nat.mul_comm]
    exact Nat.mul_le_mul_left _ hle
  refine ⟨_, representable_roundUnits hpos representable_unitsPerOne hunits, ?_,
    roundUnits_le hpos representable_unitsPerOne hunits⟩
  rw [finite_div_finite hx hy false false (Nat.ne_of_gt hpos)]
  exact ofUnits_of_representable false _

/-- What is at most one scales a magnitude to at most that magnitude. -/
theorem exists_mul_eq (hle : x ≤ unitsPerOne) :
    ∃ scaled hscaled, finite false x hx * finite false y hy = finite false scaled hscaled ∧
      scaled ≤ y := by
  have hunits : x * y ≤ y * unitsPerOne := by
    rw [Nat.mul_comm]
    exact Nat.mul_le_mul_left _ hle
  refine ⟨_, representable_roundUnits unitsPerOne_pos hy hunits, ?_,
    roundUnits_le unitsPerOne_pos hy hunits⟩
  rw [finite_mul_finite]
  exact ofUnits_of_representable false _

end Percent

/-- A part of a whole is between 0 and 100 percent of it, although each step is rounded. -/
theorem percent_mem {part whole : Nat} (hpart : part ≤ whole) (hwhole : 0 < whole)
    (hcount : whole < 2 ^ (64 : Nat)) :
    le (ofNat 0) (ofNat part / ofNat whole * ofNat 100) = true ∧
      le (ofNat part / ofNat whole * ofNat 100) (ofNat 100) = true := by
  have hhundred : 100 < 2 ^ (64 : Nat) := by decide
  rw [ofNat_eq_finite (Nat.lt_of_le_of_lt hpart hcount), ofNat_eq_finite hcount,
    ofNat_eq_finite hhundred]
  obtain ⟨share, hshare, hdiv, hone⟩ := exists_div_eq
    (representable_unitsOf (Nat.lt_of_le_of_lt hpart hcount)) (representable_unitsOf hcount)
    (unitsOf_mono hpart) (unitsOf_pos hwhole)
  obtain ⟨scaled, hscaled, hmul, hle⟩ :=
    exists_mul_eq hshare (representable_unitsOf hhundred) hone
  rw [hdiv, hmul]
  exact ⟨ofNat_zero_le_finite hscaled, finite_le_finite _ _ hle⟩

end Binary64

end TradeGate
