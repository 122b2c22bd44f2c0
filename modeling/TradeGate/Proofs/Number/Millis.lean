import TradeGate.Proofs.Number.Nearest

/-!
# Milliseconds, counted in seconds

A number of milliseconds becomes a number of seconds in two ways: as the value nearest to the exact
quotient (`Binary64.ofMillis`), which is how a limit is written down, and by dividing the value
nearest to the number, which is how an age is measured. Up to `2 ^ 43` seconds neither loses a
millisecond (`Binary64.millisUnits_lt_succ`), and a measured age is within a limit exactly if it has
no more milliseconds (`Binary64.le_div_thousand_iff`). Beyond, neighbouring values are nearly two
milliseconds apart.
-/

namespace TradeGate

-- Powers are those of the core library.
attribute [local instance (high)] instPowNat

theorem divHalfEven_mul_right (num den : Nat) {c : Nat} (hc : 0 < c) :
    divHalfEven (num * c) (den * c) = divHalfEven num den := by
  unfold divHalfEven
  dsimp only
  rw [Nat.mul_div_mul_right num den hc, Nat.mul_mod_mul_right, ← Nat.mul_assoc]
  have hlt : den * c < 2 * (num % den) * c ↔ den < 2 * (num % den) := Nat.mul_lt_mul_right hc
  have heq : 2 * (num % den) * c = den * c ↔ 2 * (num % den) = den :=
    Nat.mul_right_cancel_iff hc
  simp only [GT.gt, hlt, heq]

namespace Binary64

/-! ## Rounding keeps distances -/

section Distance

variable {a b num den step c : Nat}

theorem two_mul_roundUnits_le (num den : Nat) :
    2 * (den * roundUnits num den) ≤ 2 * num + den * spacing (num / den) := by
  have h := two_mul_divHalfEven_le num (den * spacing (num / den))
  rwa [Nat.mul_assoc den] at h

theorem le_two_mul_roundUnits (num : Nat) (hden : 0 < den) :
    2 * num ≤ 2 * (den * roundUnits num den) + den * spacing (num / den) := by
  have h := @le_two_mul_divHalfEven num _ (Nat.mul_pos hden (spacing_pos (num / den)))
  rwa [Nat.mul_assoc den] at h

/-- Quotients that are farther apart than their neighbours among the values are told apart. -/
theorem roundUnits_lt_roundUnits (hden : 0 < den) (ha : spacing (a / den) ≤ step)
    (hb : spacing (b / den) ≤ step) (hgap : a + den * step < b) :
    roundUnits a den < roundUnits b den := by
  have hbelow := two_mul_roundUnits_le a den
  have habove := le_two_mul_roundUnits b hden
  have ha' := Nat.mul_le_mul_left den ha
  have hb' := Nat.mul_le_mul_left den hb
  have hlt : den * roundUnits a den < den * roundUnits b den := by omega
  exact Nat.lt_of_mul_lt_mul_left hlt

/-- A quotient is rounded alike in all its forms. -/
theorem roundUnits_mul_right (num den : Nat) (hc : 0 < c) :
    roundUnits (num * c) (den * c) = roundUnits num den := by
  unfold roundUnits
  dsimp only
  rw [Nat.mul_div_mul_right num den hc, Nat.mul_right_comm den c, divHalfEven_mul_right _ _ hc]

/-- What has no more digits than a value keeps is a multiple of no greater a spacing. -/
theorem spacing_dvd_of_lt {units k step : Nat} (hstep : step = 2 ^ k)
    (h : units < 2 ^ (53 : Nat) * step) : spacing units ∣ step := by
  subst hstep
  refine Nat.pow_dvd_pow 2 ?_
  rw [← Nat.pow_add] at h
  by_cases hzero : units = 0
  · rw [hzero, Nat.log2_zero]
    exact Nat.zero_le k
  · have := (Nat.log2_lt hzero).2 h
    omega

end Distance

/-! ## Whole numbers -/

/-- A number of 53 binary digits is a value. -/
theorem representable_mul_unitsPerOne {n : Nat} (h : n < 2 ^ (53 : Nat)) :
    Representable (n * unitsPerOne) := by
  have hlt : n * unitsPerOne < 2 ^ (53 : Nat) * unitsPerOne :=
    Nat.mul_lt_mul_of_pos_right h unitsPerOne_pos
  have hbound := representable_two_pow_mul (show 53 < 1024 by decide)
  have hdvd : spacing (n * unitsPerOne) ∣ unitsPerOne := spacing_dvd_of_lt rfl hlt
  exact ⟨Nat.lt_trans hlt hbound.1, Nat.mod_eq_zero_of_dvd (Nat.dvd_mul_left_of_dvd hdvd n)⟩

theorem unitsOf_of_lt {n : Nat} (h : n < 2 ^ (53 : Nat)) : unitsOf n = n * unitsPerOne := by
  have hkept := roundUnits_of_representable Nat.one_pos (representable_mul_unitsPerOne h)
  rwa [Nat.mul_one] at hkept

/-! ## Counts of milliseconds -/

/-- The value nearest to a number of milliseconds in seconds. -/
def ofMillis (m : Int) : Binary64 := ofRatio (m < 0) m.natAbs 1000

/-- The magnitude of the seconds nearest to a number of milliseconds. -/
def millisUnits (n : Nat) : Nat := roundUnits (n * unitsPerOne) 1000

/-- The magnitude of the seconds that a number of milliseconds is divided into. -/
def dividedUnits (n : Nat) : Nat := roundUnits (unitsOf n * unitsPerOne) (unitsOf 1000)

/-- The milliseconds of `2 ^ 43` seconds, some 278731 years. -/
def exactMillis : Nat := 2 ^ (43 : Nat) * 1000

theorem unitsOf_thousand : unitsOf 1000 = 1000 * unitsPerOne := unitsOf_of_lt (by decide)

theorem dividedUnits_mono {m n : Nat} (h : m ≤ n) : dividedUnits m ≤ dividedUnits n :=
  roundUnits_mono (unitsOf_pos (by decide)) (Nat.mul_le_mul_right _ (unitsOf_mono h))

/-- A count that is a value itself is divided exactly and rounded once. -/
theorem dividedUnits_of_lt {n : Nat} (h : n < 2 ^ (53 : Nat)) : dividedUnits n = millisUnits n := by
  unfold dividedUnits millisUnits
  rw [unitsOf_of_lt h, unitsOf_thousand, roundUnits_mul_right _ _ unitsPerOne_pos]

/-- The spacing below `2 ^ 43` seconds. -/
def exactSpacing : Nat := 2 ^ (1064 : Nat)

theorem spacing_millis {n : Nat} (h : n < exactMillis) :
    spacing (n * unitsPerOne / 1000) ≤ exactSpacing := by
  have hbound : exactMillis * unitsPerOne = 2 ^ (53 : Nat) * exactSpacing * 1000 := by
    decide +kernel
  have hlt := Nat.mul_lt_mul_of_pos_right h unitsPerOne_pos
  rw [hbound] at hlt
  have hquotient := (Nat.div_lt_iff_lt_mul (show 0 < 1000 by decide)).2 hlt
  exact Nat.le_of_dvd (by decide +kernel) (spacing_dvd_of_lt rfl hquotient)

/-- Up to the bound another millisecond is another value. -/
theorem millisUnits_lt_succ {n : Nat} (h : n ≤ exactMillis) :
    millisUnits n < millisUnits (n + 1) := by
  rcases Nat.lt_or_ge (n + 1) exactMillis with hlt | hge
  · apply roundUnits_lt_roundUnits (by decide) (spacing_millis (by omega)) (spacing_millis hlt)
    have hgap : 1000 * exactSpacing < unitsPerOne := by decide +kernel
    rw [Nat.add_mul, Nat.one_mul]
    exact Nat.add_lt_add_left hgap _
  · -- next to the bound the spacing changes
    have hedge : n = exactMillis - 1 ∨ n = exactMillis := by omega
    rcases hedge with rfl | rfl <;> decide +kernel

theorem exactMillis_lt : exactMillis + 1 < 2 ^ (53 : Nat) := by decide

theorem dividedUnits_le_millisUnits_iff {n m : Nat} (hm : m ≤ exactMillis) :
    dividedUnits n ≤ millisUnits m ↔ n ≤ m := by
  have hbound := exactMillis_lt
  rw [← dividedUnits_of_lt (by omega : m < 2 ^ (53 : Nat))]
  refine ⟨fun hle => Nat.le_of_not_lt fun hlt => ?_, dividedUnits_mono⟩
  have hnext := millisUnits_lt_succ hm
  rw [← dividedUnits_of_lt (by omega), ← dividedUnits_of_lt (by omega)] at hnext
  have hmono := dividedUnits_mono (by omega : m + 1 ≤ n)
  omega

theorem millisUnits_le_dividedUnits_iff {n m : Nat} (hm : m ≤ exactMillis) :
    millisUnits m ≤ dividedUnits n ↔ m ≤ n := by
  have hbound := exactMillis_lt
  constructor
  · refine fun hle => Nat.le_of_not_lt fun hlt => ?_
    have hnext := millisUnits_lt_succ (by omega : n ≤ exactMillis)
    have hmono := dividedUnits_mono (by omega : n + 1 ≤ m)
    rw [dividedUnits_of_lt (by omega), dividedUnits_of_lt (by omega)] at hmono
    rw [dividedUnits_of_lt (by omega)] at hle
    omega
  · intro hle
    rw [← dividedUnits_of_lt (by omega : m < 2 ^ (53 : Nat))]
    exact dividedUnits_mono hle

/-! ## Seconds from milliseconds -/

/-- Values are compared as the numbers they stand for, if their magnitudes are. -/
theorem signedUnits_le_signedUnits_iff {s t : Bool} {k m : Int} {x y : Nat}
    (hs : signedUnits s k.natAbs = k) (ht : signedUnits t m.natAbs = m)
    (hle : x ≤ y ↔ k.natAbs ≤ m.natAbs) (hge : y ≤ x ↔ m.natAbs ≤ k.natAbs)
    (hx : x = 0 ↔ k = 0) (hy : y = 0 ↔ m = 0) :
    signedUnits s x ≤ signedUnits t y ↔ k ≤ m := by
  unfold signedUnits at *
  cases s <;> cases t <;> simp only [if_true, Bool.false_eq_true, if_false] at * <;> omega

theorem signedUnits_sign (k : Int) : signedUnits (k < 0) k.natAbs = k := by
  unfold signedUnits
  split <;> simp only [decide_eq_true_eq] at * <;> omega

theorem dividedUnits_eq_zero_iff (k : Int) : dividedUnits k.natAbs = 0 ↔ k = 0 := by
  have h := dividedUnits_le_millisUnits_iff (n := k.natAbs) (Nat.zero_le exactMillis)
  have hzero : millisUnits 0 = 0 := by decide +kernel
  omega

theorem millisUnits_eq_zero_iff {m : Int} (hm : m.natAbs ≤ exactMillis) :
    millisUnits m.natAbs = 0 ↔ m = 0 := by
  have h := millisUnits_le_dividedUnits_iff (n := 0) hm
  have hzero : dividedUnits 0 = 0 := by decide +kernel
  omega

theorem exists_div_thousand_eq {k : Int} (h : k.natAbs < 2 ^ (64 : Nat)) :
    ∃ hk, ofInt k / ofNat 1000 = finite (k < 0) (dividedUnits k.natAbs) hk := by
  have hcount := representable_unitsOf h
  have hthousand := representable_unitsOf (show 1000 < 2 ^ (64 : Nat) by decide)
  have hle : unitsOf k.natAbs * unitsPerOne ≤ unitsOf k.natAbs * unitsOf 1000 := by
    rw [unitsOf_thousand]
    exact Nat.mul_le_mul_left _ (Nat.le_mul_of_pos_left _ (by decide))
  have hpos := unitsOf_pos (show 0 < 1000 by decide)
  refine ⟨representable_roundUnits hpos hcount hle, ?_⟩
  have hint : ofInt k = finite (k < 0) (unitsOf k.natAbs) hcount := by
    unfold ofInt ofRatio
    exact ofUnits_of_representable _ hcount
  rw [hint, ofNat_eq_finite (by decide), finite_div_finite hcount hthousand _ _ (Nat.ne_of_gt hpos),
    Bool.bne_false]
  exact ofUnits_of_representable _ (representable_roundUnits hpos hcount hle)

theorem exists_ofMillis_eq {m : Int} (hm : m.natAbs ≤ exactMillis) :
    ∃ hunits, ofMillis m = finite (m < 0) (millisUnits m.natAbs) hunits := by
  have hbound := exactMillis_lt
  have hexact := representable_mul_unitsPerOne (show m.natAbs < 2 ^ (53 : Nat) by omega)
  have hunits : Representable (millisUnits m.natAbs) :=
    representable_roundUnits (by decide) hexact (Nat.le_mul_of_pos_right _ (by decide))
  refine ⟨hunits, ?_⟩
  unfold ofMillis ofRatio
  exact ofUnits_of_representable _ hunits

section Compared

variable {k m : Int}

/-- Divided milliseconds are within a limit exactly if there are no more of them. -/
theorem le_div_thousand_iff (hk : k.natAbs < 2 ^ (64 : Nat)) (hm : m.natAbs ≤ exactMillis) :
    le (ofInt k / ofNat 1000) (ofMillis m) = true ↔ k ≤ m := by
  obtain ⟨_, hage⟩ := exists_div_thousand_eq hk
  obtain ⟨_, hlimit⟩ := exists_ofMillis_eq hm
  rw [hage, hlimit, le, decide_eq_true_eq]
  exact signedUnits_le_signedUnits_iff (signedUnits_sign k) (signedUnits_sign m)
    (dividedUnits_le_millisUnits_iff hm) (millisUnits_le_dividedUnits_iff hm)
    (dividedUnits_eq_zero_iff k) (millisUnits_eq_zero_iff hm)

/-- The same with a limit on the other side of zero. -/
theorem neg_ofMillis_le_iff (hk : k.natAbs < 2 ^ (64 : Nat)) (hm : m.natAbs ≤ exactMillis) :
    le (-ofMillis m) (ofInt k / ofNat 1000) = true ↔ -m ≤ k := by
  obtain ⟨_, hage⟩ := exists_div_thousand_eq hk
  obtain ⟨hunits, hlimit⟩ := exists_ofMillis_eq hm
  have hneg : -finite (m < 0) (millisUnits m.natAbs) hunits =
      finite (!decide (m < 0)) (millisUnits m.natAbs) hunits := rfl
  have hsign : signedUnits (!decide (m < 0)) (-m).natAbs = -m := by
    unfold signedUnits
    split <;> simp only [Bool.not_eq_true', decide_eq_false_iff_not] at * <;> omega
  rw [hage, hlimit, hneg, le, decide_eq_true_eq]
  apply signedUnits_le_signedUnits_iff hsign (signedUnits_sign k)
  · rw [Int.natAbs_neg]
    exact millisUnits_le_dividedUnits_iff hm
  · rw [Int.natAbs_neg]
    exact dividedUnits_le_millisUnits_iff hm
  · rw [millisUnits_eq_zero_iff hm, Int.neg_eq_zero]
  · exact dividedUnits_eq_zero_iff k

end Compared

end Binary64

end TradeGate
