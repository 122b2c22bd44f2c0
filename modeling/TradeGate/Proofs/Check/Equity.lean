import TradeGate.Check.Consistency
import TradeGate.Proofs.Number.Amount

/-!
# Equities that agree

Equities agree when they are at most the tolerated percentage apart. The percentage is computed on
amounts, so a difference of equities may be rounded away: two equities of 29 digits that differ in the
last one count as equal (`ConsistencyPolicy.equitiesDiffer_largest`). No more than that is rounded away:
equities that pass are within the tolerance, or above it by less than the amounts at hand can express
unless they have some 26 digits or more (`ConsistencyPolicy.reconciled_of_equitiesDiffer`).
-/

namespace TradeGate

-- Powers are those of the core library.
attribute [local instance (high)] instPowNat

open Amount (distance)

/-- The percentage that rounding may hide beside one of `pct`. -/
def hiddenPct (pct : ℚ) : ℚ := 5 / 10 ^ 27 + 3 / 10 ^ 28 * pct

theorem hiddenPct_mono {pct tolerance : ℚ} (h : pct ≤ tolerance) :
    hiddenPct pct ≤ hiddenPct tolerance := by
  unfold hiddenPct
  linarith

/-- The equities are at most `tolerance` percent of the second one apart, as exactly as amounts can
tell. -/
structure Reconciled (tolerance system exchange : Amount) : Prop where
  near : distance system exchange * 100 ≤
    (tolerance.toRat + hiddenPct tolerance.toRat) * exchange.magnitude
  exact : hiddenPct tolerance.toRat * exchange.magnitude *
      10 ^ (max system.scale exchange.scale + tolerance.scale) < 1 →
    distance system exchange * 100 ≤ tolerance.toRat * exchange.magnitude
  equal : tolerance.toRat = 0 →
    exchange.magnitude * 10 ^ max system.scale exchange.scale < 2 * 10 ^ 28 →
    system.toRat = exchange.toRat

/-! ## The percentage -/

/-- The steps of the percentage: a difference, a quotient and a hundredfold, which is exact. -/
theorem steps_of_equityMismatchPct? {system exchange pct : Amount}
    (h : equityMismatchPct? system exchange = some pct) :
    0 < exchange.magnitude ∧ ∃ difference ratio, system.sub? exchange = some difference ∧
      difference.abs.div? exchange.abs = some ratio ∧ pct.toRat = ratio.magnitude * 100 := by
  unfold equityMismatchPct? at h
  cases hzero : exchange.isZero with
  | true =>
    rw [hzero, if_pos rfl] at h
    exact nomatch h
  | false =>
    rw [hzero, if_neg Bool.false_ne_true] at h
    obtain ⟨difference, hdifference, h⟩ := Option.bind_eq_some_iff.1 h
    obtain ⟨ratio, hratio, hpct⟩ := Option.bind_eq_some_iff.1 h
    obtain ⟨hunsigned, -⟩ := Amount.magnitude_div? rfl rfl hratio
    obtain ⟨hhundredfold, hpositive⟩ := Amount.magnitude_mul?_hundred hpct
    refine ⟨lt_of_le_of_ne exchange.magnitude_nonneg fun heq => ?_, difference, ratio,
      hdifference, hratio, ?_⟩
    · rw [(Amount.isZero_iff exchange).2 heq.symm] at hzero
      exact nomatch hzero
    · rw [Amount.toRat_of_not_negative (hpositive hunsigned), hhundredfold]

/-- The percentage is that of the equities, up to what rounding hides. A difference below half of the
second equity is exact, so that a small percentage has the error of the quotient alone. -/
theorem near_of_equityMismatchPct? {system exchange pct : Amount}
    (h : equityMismatchPct? system exchange = some pct) :
    distance system exchange * 100 ≤ (pct.toRat + hiddenPct pct.toRat) * exchange.magnitude := by
  obtain ⟨hwhole, difference, ratio, hdifference, hratio, hpct⟩ := steps_of_equityMismatchPct? h
  have hlow := (abs_le.1 (Amount.magnitude_sub? hdifference).1).1
  have hnear := Amount.magnitude_sub?_of_near hdifference
  have hquotient := (Amount.magnitude_div? rfl rfl hratio).2
  rw [Amount.magnitude_abs, Amount.magnitude_abs] at hquotient
  have hshare := ratio.magnitude_nonneg
  rw [hpct]
  generalize distance system exchange = apart at *
  generalize exchange.magnitude = whole at *
  generalize ratio.magnitude = share at *
  have hpart : difference.magnitude = difference.magnitude / whole * whole := by field_simp
  generalize difference.magnitude / whole = quotient at *
  have hround : quotient ≤ share + 1 / (2 * 10 ^ 28) ∨
      7 ≤ quotient ∧ quotient * (1 - 1 / 10 ^ 28) ≤ share := by
    rcases hquotient with hquotient | ⟨hlarge, hquotient⟩
    · exact Or.inl (by linarith [(abs_le.1 hquotient).1])
    · exact Or.inr ⟨hlarge, by linarith [(abs_le.1 hquotient).1]⟩
  unfold hiddenPct
  by_cases hfar : 2 * apart < whole
  · rw [hnear hfar] at hpart
    have hsmall : quotient < 1 := by nlinarith
    have hmost : quotient * 100 ≤ share * 100 + (5 / 10 ^ 27 + 3 / 10 ^ 28 * (share * 100)) := by
      rcases hround with hround | ⟨hlarge, -⟩ <;> linarith
    calc apart * 100 = quotient * 100 * whole := by rw [hpart]; ring
      _ ≤ _ := mul_le_mul_of_nonneg_right hmost hwhole.le
  · have hpart' : apart * (1 - 1 / 10 ^ 28) ≤ quotient * whole := by linarith
    have hhalf : 1 / 4 ≤ quotient := by nlinarith
    have hmost : quotient * (100 + 15 / 10 ^ 27) ≤
        share * 100 + (5 / 10 ^ 27 + 3 / 10 ^ 28 * (share * 100)) := by
      rcases hround with hround | ⟨-, hround⟩ <;> linarith
    calc apart * 100 ≤ quotient * (100 + 15 / 10 ^ 27) * whole := by nlinarith
      _ ≤ _ := mul_le_mul_of_nonneg_right hmost hwhole.le

/-! ## What is within reach of the digits -/

/-- Amounts of the same value have no distance. -/
theorem distance_eq_zero (x y : Amount) : distance x y = 0 ↔ x.toRat = y.toRat := by
  unfold distance
  rw [abs_eq_zero, sub_eq_zero]

/-- Both sides of the comparison are whole numbers of units in the last place. -/
theorem exists_units (tolerance system exchange : Amount) : ∃ apart tolerated : Int,
    distance system exchange * 100 *
        10 ^ (max system.scale exchange.scale + tolerance.scale) = apart ∧
      tolerance.toRat * exchange.magnitude *
        10 ^ (max system.scale exchange.scale + tolerance.scale) = tolerated := by
  have happart := Amount.distance_mul_pow system exchange
  have hwhole := Amount.magnitude_mul_pow (Nat.le_max_right system.scale exchange.scale)
  have htolerance := Amount.signed_mul_pow (le_refl tolerance.scale)
  generalize Int.natAbs _ = apart at happart
  generalize (exchange.coefficient * 10 ^ _ : Nat) = whole at hwhole
  generalize tolerance.signed * _ = tolerated at htolerance
  rw [pow_add]
  refine ⟨apart * 100 * 10 ^ tolerance.scale, tolerated * whole, ?_, ?_⟩
  · push_cast
    rw [← happart]
    ring
  · push_cast
    rw [hwhole, htolerance]
    ring

/-- Equities whose percentage is tolerated agree. -/
theorem reconciled_of_near {tolerance system exchange : Amount}
    (hnear : distance system exchange * 100 ≤
      (tolerance.toRat + hiddenPct tolerance.toRat) * exchange.magnitude) :
    Reconciled tolerance system exchange where
  near := hnear
  exact hdigits := by
    obtain ⟨apart, tolerated, happart, htolerated⟩ := exists_units tolerance system exchange
    have hunit : (0 : ℚ) < 10 ^ (max system.scale exchange.scale + tolerance.scale) := by positivity
    -- what is hidden is less than one unit
    have hmost := mul_le_mul_of_nonneg_right hnear hunit.le
    rw [add_mul, add_mul, happart, htolerated] at hmost
    have hless : (apart : ℚ) < tolerated + 1 := by linarith
    have hle : apart ≤ tolerated := Int.lt_add_one_iff.1 (by exact_mod_cast hless)
    refine le_of_mul_le_mul_right ?_ hunit
    rw [happart, htolerated]
    exact_mod_cast hle
  equal htolerance hdigits := by
    have happart := Amount.distance_mul_pow system exchange
    generalize Int.natAbs _ = apart at happart
    have hplaces : (0 : ℚ) < 10 ^ max system.scale exchange.scale := by positivity
    rw [← distance_eq_zero]
    rw [htolerance] at hnear
    unfold hiddenPct at hnear
    have hlt : (apart : ℚ) < 1 := by
      rw [← happart]
      nlinarith
    have hzero : apart = 0 := Nat.lt_one_iff.1 (by exact_mod_cast hlt)
    rw [hzero, Nat.cast_zero] at happart
    exact (mul_eq_zero_iff_right hplaces.ne').1 happart

/-! ## The check -/

theorem Reconciled.of_equitiesAgree {policy : ConsistencyPolicy} {system exchange : Amount}
    (h : policy.equitiesAgree system exchange = true) :
    Reconciled policy.equityMismatchTolerancePct system exchange := by
  apply reconciled_of_near
  unfold ConsistencyPolicy.equitiesAgree at h
  split at h
  · rename_i pct hpct
    have hle := (Amount.le_iff _ _).1 h
    calc distance system exchange * 100
        ≤ (pct.toRat + hiddenPct pct.toRat) * exchange.magnitude := near_of_equityMismatchPct? hpct
      _ ≤ _ := mul_le_mul_of_nonneg_right (add_le_add hle (hiddenPct_mono hle))
        exchange.magnitude_nonneg
  · rw [Bool.and_eq_true, Amount.isZero_iff, Amount.isZero_iff] at h
    obtain ⟨hexchange, hsystem⟩ := h
    have hequal : distance system exchange = 0 := by
      rw [distance_eq_zero, abs_eq_zero.1 ((Amount.abs_toRat _).trans hexchange),
        abs_eq_zero.1 ((Amount.abs_toRat _).trans hsystem)]
    rw [hequal, hexchange, zero_mul, mul_zero]

namespace ConsistencyPolicy

/-- Equities that the check lets pass are within the tolerance, up to what rounding hides: exactly
within it if the digits of the equities and of the tolerance are not too many, and equal if nothing
is tolerated. -/
theorem reconciled_of_equitiesDiffer (policy : ConsistencyPolicy) (account : AccountState)
    {system exchange : Amount} (hmatch : policy.requireEquityMatch = true)
    (hsystem : account.systemEquity = some system)
    (hexchange : account.exchangeEquity = some exchange)
    (h : policy.equitiesDiffer account = none) :
    Reconciled policy.equityMismatchTolerancePct system exchange := by
  apply Reconciled.of_equitiesAgree
  unfold equitiesDiffer at h
  rw [hsystem, hexchange, hmatch] at h
  cases hagree : policy.equitiesAgree system exchange with
  | true => rfl
  | false =>
    simp only [Option.bind_eq_bind, Option.bind_some, hagree] at h
    exact nomatch h

/-- An account of which only the equities are known. -/
def accountOf (system exchange : Amount) : AccountState :=
  ⟨none, none, some system, some exchange, none, none, none, none⟩

theorem reconciled_tenThousand :
    standard.equitiesDiffer (accountOf (.ofUInt64 10100) (.ofUInt64 10000)) = none ∧
      Reconciled standard.equityMismatchTolerancePct (.ofUInt64 10100) (.ofUInt64 10000) :=
  ⟨by decide +kernel, reconciled_of_equitiesDiffer standard
    (accountOf (.ofUInt64 10100) (.ofUInt64 10000)) rfl rfl rfl (by decide +kernel)⟩

/-- The policy that tolerates no difference of equities. -/
def exacting : ConsistencyPolicy := { standard with equityMismatchTolerancePct := .zero }

/-- The largest amount. -/
def largest : Amount :=
  ⟨false, 79228162514264337593543950335, 0, by decide, Amount.zero.scale_le⟩

/-- The largest amount but one. -/
def secondLargest : Amount :=
  ⟨false, 79228162514264337593543950334, 0, by decide, Amount.zero.scale_le⟩

/-- Where nothing is tolerated, equities of 29 digits that differ in the last one pass: their
percentage is rounded to zero. -/
theorem equitiesDiffer_largest :
    exacting.requireEquityMatch = true ∧ exacting.equityMismatchTolerancePct.toRat = 0 ∧
      exacting.equitiesDiffer (accountOf secondLargest largest) = none ∧
      secondLargest.toRat ≠ largest.toRat ∧
      ¬ distance secondLargest largest * 100 ≤
        exacting.equityMismatchTolerancePct.toRat * largest.magnitude := by
  have hzero : exacting.equityMismatchTolerancePct.toRat = 0 := by
    simp [exacting, Amount.toRat, Amount.signed, Amount.zero]
  have happart : distance secondLargest largest = 1 := by
    simp [distance, Amount.toRat, Amount.signed, secondLargest, largest]
    norm_num
  refine ⟨rfl, hzero, by decide +kernel, fun heq => ?_, ?_⟩
  · rw [(distance_eq_zero _ _).2 heq] at happart
    exact zero_ne_one happart
  · rw [happart, hzero, zero_mul]
    norm_num

end ConsistencyPolicy

end TradeGate
