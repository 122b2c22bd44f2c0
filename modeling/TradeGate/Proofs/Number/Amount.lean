import Mathlib.Algebra.Order.Field.Basic
import Mathlib.Algebra.Order.AbsoluteValue.Basic
import Mathlib.Data.Nat.Cast.Field
import Mathlib.Data.Rat.Cast.Order
import Mathlib.Tactic.FieldSimp
import Mathlib.Tactic.Linarith
import Mathlib.Tactic.NormNum
import Mathlib.Tactic.Positivity
import Mathlib.Tactic.Ring
import TradeGate.Number.Amount

/-!
# Amounts as rational numbers

An amount stands for a rational number (`Amount.toRat`), by which it is compared. A difference of
amounts is exact unless its digits do not fit, and then it is off by at most one part in `10²⁸`
(`Amount.magnitude_sub?`). A quotient is off by at most half a unit of the 28th place, or by one part
in `10²⁸` (`Amount.magnitude_div?`). A hundred times an amount, if there is such an amount, is exact
(`Amount.magnitude_mul?_hundred`).
-/

namespace TradeGate

-- Powers are those of the core library.
attribute [local instance (high)] instPowNat

/-- A rounded quotient is off by at most a half. -/
theorem abs_divHalfEven_sub_le (num : Nat) {den : Nat} (hden : 0 < den) :
    |(divHalfEven num den : ℚ) - num / den| ≤ 1 / 2 := by
  have hden' : (0 : ℚ) < den := Nat.cast_pos.2 hden
  have hbelow : (2 * (den * divHalfEven num den) : ℚ) ≤ 2 * num + den := by
    exact_mod_cast two_mul_divHalfEven_le num den
  have habove : (2 * num : ℚ) ≤ 2 * (den * divHalfEven num den) + den := by
    exact_mod_cast le_two_mul_divHalfEven hden
  have hnum : (num : ℚ) = num / den * den := by field_simp
  rw [abs_le]
  constructor <;> nlinarith

/-- A rounded quotient that does not fit into 96 bits is that of a large number. -/
theorem le_div_of_le_divHalfEven {num den : Nat} (hden : 0 < den) (h : 2 ^ 96 ≤ divHalfEven num den) :
    7 * 10 ^ 28 ≤ (num / den : ℚ) := by
  have hround := (abs_le.1 (abs_divHalfEven_sub_le num hden)).2
  have hlarge : (2 ^ 96 : ℚ) ≤ divHalfEven num den := by exact_mod_cast h
  linarith

/-- What is found first in an ordered list stands before all else that could have been found. -/
theorem exists_first {α β : Type} {r : α → α → Prop} {f : α → Option β} {items : List α} {b : β}
    (hitems : items.Pairwise r) (h : items.findSome? f = some b) :
    ∃ a ∈ items, f a = some b ∧ ∀ c ∈ items, f c ≠ none → c = a ∨ r a c := by
  obtain ⟨before, a, after, rfl, ha, hbefore⟩ := List.findSome?_eq_some_iff.1 h
  refine ⟨a, by simp, ha, fun c hc hfound => ?_⟩
  rcases List.mem_append.1 hc with hc | hc
  · exact absurd (hbefore c hc) hfound
  · rcases List.mem_cons.1 hc with rfl | hc
    · exact Or.inl rfl
    · have hlater := (List.pairwise_append.1 hitems).2.1
      exact Or.inr ((List.pairwise_cons.1 hlater).1 c hc)

namespace Amount

/-! ## The number of an amount -/

/-- The number that an amount stands for, without its sign. -/
def magnitude (x : Amount) : ℚ := x.coefficient / 10 ^ x.scale

/-- The number that an amount stands for. -/
def toRat (x : Amount) : ℚ := x.signed / 10 ^ x.scale

theorem magnitude_nonneg (x : Amount) : 0 ≤ x.magnitude := by
  unfold magnitude
  positivity

theorem abs_toRat (x : Amount) : |x.toRat| = x.magnitude := by
  unfold toRat magnitude signed
  rw [abs_div, abs_of_pos (show (0 : ℚ) < 10 ^ x.scale by positivity)]
  cases x.negative <;> simp

theorem toRat_of_not_negative {x : Amount} (h : x.negative = false) : x.toRat = x.magnitude := by
  unfold toRat magnitude signed
  simp [h]

theorem magnitude_abs (x : Amount) : x.abs.magnitude = x.magnitude := rfl

theorem isZero_iff (x : Amount) : x.isZero = true ↔ x.magnitude = 0 := by
  unfold isZero magnitude
  simp

theorem units_eq (x : Amount) : (x.units : ℚ) = x.toRat * 10 ^ 28 := by
  unfold units toRat
  rw [← pow_sub_mul_pow (10 : ℚ) x.scale_le]
  push_cast
  field_simp

/-- Amounts are compared by the numbers that they stand for. -/
theorem le_iff (x y : Amount) : x.le y = true ↔ x.toRat ≤ y.toRat := by
  have hpos : (0 : ℚ) < 10 ^ 28 := by positivity
  unfold le
  rw [decide_eq_true_eq, ← Int.cast_le (R := ℚ), units_eq, units_eq, mul_le_mul_iff_left₀ hpos]

/-! ## Digits that do not fit -/

theorem ofParts?_eq_some {negative : Bool} {coefficient scale : Nat} {z : Amount}
    (h : ofParts? negative coefficient scale = some z) :
    z.negative = negative ∧ z.coefficient = coefficient ∧ z.scale = scale := by
  unfold ofParts? at h
  split at h
  · rw [← Option.some.inj h]
    exact ⟨rfl, rfl, rfl⟩
  · exact nomatch h

theorem ofParts?_ne_none (negative : Bool) {coefficient scale : Nat} (hcoefficient : coefficient < 2 ^ 96)
    (hscale : scale ≤ 28) : ofParts? negative coefficient scale ≠ none := by
  unfold ofParts?
  rw [dif_pos ⟨hcoefficient, hscale⟩]
  exact Option.some_ne_none _

/-- Digits are dropped only while those that are left do not fit. -/
theorem exists_dropped {negative : Bool} {num scale : Nat} {z : Amount} (hscale : scale ≤ 28)
    (h : fit? negative num scale = some z) :
    ∃ dropped ≤ scale, z.negative = negative ∧ z.coefficient = divHalfEven num (10 ^ dropped) ∧
      z.scale = scale - dropped ∧ ∀ fewer < dropped, 2 ^ 96 ≤ divHalfEven num (10 ^ fewer) := by
  obtain ⟨dropped, hmem, hparts, hfirst⟩ := exists_first List.pairwise_lt_range' h
  rw [List.mem_range'_1] at hmem
  obtain ⟨hnegative, hcoefficient, hplaces⟩ := ofParts?_eq_some hparts
  refine ⟨dropped, by omega, hnegative, hcoefficient, hplaces, fun fewer hfewer => ?_⟩
  by_contra hfits
  have hfound := ofParts?_ne_none negative (Nat.not_le.1 hfits)
    (show scale - fewer ≤ 28 by omega)
  rcases hfirst fewer (by rw [List.mem_range'_1]; omega) hfound with heq | hlt
  · omega
  · omega

theorem divHalfEven_one (num : Nat) : divHalfEven num 1 = num := by
  rw [divHalfEven_of_dvd Nat.one_pos (Nat.one_dvd num), Nat.div_one]

/-- Digits that were dropped because they did not fit are at most one part in `10²⁸`. -/
theorem abs_magnitude_sub_le {num scale k : Nat} {z : Amount} (hdropped : k + 1 ≤ scale)
    (hcoefficient : z.coefficient = divHalfEven num (10 ^ (k + 1))) (hplaces : z.scale = scale - (k + 1))
    (hlast : 2 ^ 96 ≤ divHalfEven num (10 ^ k)) :
    |z.magnitude - num / 10 ^ scale| ≤ num / 10 ^ scale / 10 ^ 28 := by
  have hround := abs_divHalfEven_sub_le num (Nat.pow_pos (show 0 < 10 by decide) : 0 < 10 ^ (k + 1))
  have hlarge := le_div_of_le_divHalfEven (Nat.pow_pos (show 0 < 10 by decide)) hlast
  push_cast at hround hlarge
  have hnum : 5 * 10 ^ k ≤ (num : ℚ) / 10 ^ 28 := by
    rw [le_div_iff₀ (by positivity)] at hlarge ⊢
    have hplace : (0 : ℚ) < 10 ^ k := by positivity
    linarith
  have hdiff : z.magnitude - num / 10 ^ scale =
      (divHalfEven num (10 ^ (k + 1)) - num / 10 ^ (k + 1)) * (10 ^ (k + 1) / 10 ^ scale) := by
    unfold magnitude
    rw [hcoefficient, hplaces, ← pow_sub_mul_pow (10 : ℚ) hdropped]
    field_simp
  rw [hdiff, abs_mul, abs_of_pos (show (0 : ℚ) < 10 ^ (k + 1) / 10 ^ scale by positivity)]
  calc |(divHalfEven num (10 ^ (k + 1)) : ℚ) - num / 10 ^ (k + 1)| * (10 ^ (k + 1) / 10 ^ scale)
      ≤ 1 / 2 * (10 ^ (k + 1) / 10 ^ scale) := by gcongr
    _ = 5 * 10 ^ k / 10 ^ scale := by ring
    _ ≤ num / 10 ^ 28 / 10 ^ scale := by gcongr
    _ = num / 10 ^ scale / 10 ^ 28 := by ring

/-- What has been dropped is at most one part in `10²⁸`, and nothing of what fits. -/
theorem magnitude_fit? {negative : Bool} {num scale : Nat} {z : Amount} (hscale : scale ≤ 28)
    (h : fit? negative num scale = some z) :
    |z.magnitude - num / 10 ^ scale| ≤ num / 10 ^ scale / 10 ^ 28 ∧
      (num < 2 ^ 96 → z.magnitude = num / 10 ^ scale) := by
  obtain ⟨dropped, hdropped, -, hcoefficient, hplaces, hfewer⟩ := exists_dropped hscale h
  cases dropped with
  | zero =>
    have hexact : z.magnitude = num / 10 ^ scale := by
      unfold magnitude
      rw [hcoefficient, hplaces, pow_zero, divHalfEven_one, Nat.sub_zero]
    refine ⟨?_, fun _ => hexact⟩
    rw [hexact, sub_self, abs_zero]
    positivity
  | succ k =>
    refine ⟨abs_magnitude_sub_le hdropped hcoefficient hplaces (hfewer k (Nat.lt_succ_self k)), ?_⟩
    intro hfits
    have hfirst := hfewer 0 (Nat.succ_pos k)
    rw [pow_zero, divHalfEven_one] at hfirst
    omega

/-! ## Differences -/

/-- How far two amounts are apart. -/
def distance (x y : Amount) : ℚ := |x.toRat - y.toRat|

theorem signed_mul_pow {x : Amount} {scale : Nat} (h : x.scale ≤ scale) :
    ((x.signed * 10 ^ (scale - x.scale) : Int) : ℚ) = x.toRat * 10 ^ scale := by
  unfold toRat
  rw [← pow_sub_mul_pow (10 : ℚ) h]
  push_cast
  field_simp

theorem magnitude_mul_pow {x : Amount} {scale : Nat} (h : x.scale ≤ scale) :
    ((x.coefficient * 10 ^ (scale - x.scale) : Nat) : ℚ) = x.magnitude * 10 ^ scale := by
  unfold magnitude
  rw [← pow_sub_mul_pow (10 : ℚ) h]
  push_cast
  field_simp

/-- The digits by which two amounts differ. -/
theorem distance_mul_pow (x y : Amount) :
    distance x y * 10 ^ max x.scale y.scale =
      ((x.signed * 10 ^ (max x.scale y.scale - x.scale) -
        y.signed * 10 ^ (max x.scale y.scale - y.scale)).natAbs : ℚ) := by
  have hx := signed_mul_pow (Nat.le_max_left x.scale y.scale)
  have hy := signed_mul_pow (Nat.le_max_right x.scale y.scale)
  have hplaces : (0 : ℚ) < 10 ^ max x.scale y.scale := by positivity
  rw [Nat.cast_natAbs, Int.cast_abs, Int.cast_sub, hx, hy, ← sub_mul, abs_mul, abs_of_pos hplaces]
  rfl

/-- A difference has the digits of the exact one, as far as they fit. -/
theorem magnitude_sub? {x y z : Amount} (h : x.sub? y = some z) :
    |z.magnitude - distance x y| ≤ distance x y / 10 ^ 28 ∧
      (distance x y * 10 ^ max x.scale y.scale < 2 ^ 96 → z.magnitude = distance x y) := by
  have hdigits := distance_mul_pow x y
  have hscale : max x.scale y.scale ≤ 28 := Nat.max_le.2 ⟨x.scale_le, y.scale_le⟩
  have hplaces : (0 : ℚ) < 10 ^ max x.scale y.scale := by positivity
  unfold sub? at h
  obtain ⟨herror, hexact⟩ := magnitude_fit? hscale h
  rw [← hdigits, mul_div_cancel_right₀ _ hplaces.ne'] at herror hexact
  refine ⟨herror, fun hfits => hexact ?_⟩
  rw [hdigits] at hfits
  exact_mod_cast hfits

theorem magnitude_mul_pow_lt {x : Amount} {scale : Nat} (h : x.scale = scale) :
    x.magnitude * 10 ^ scale < 2 ^ 96 := by
  have hplaces : (10 : ℚ) ^ scale ≠ 0 := by positivity
  unfold magnitude
  rw [h, div_mul_cancel₀ _ hplaces]
  exact_mod_cast x.coefficient_lt

/-- Amounts that are nearer to each other than half of one of them have an exact difference. -/
theorem magnitude_sub?_of_near {x y z : Amount} (h : x.sub? y = some z)
    (hnear : 2 * distance x y < y.magnitude) : z.magnitude = distance x y := by
  have hapart : 0 ≤ distance x y := abs_nonneg _
  have hplaces : (0 : ℚ) < 10 ^ max x.scale y.scale := by positivity
  have hy : y.magnitude ≤ x.magnitude + distance x y := by
    have htriangle := abs_sub_abs_le_abs_sub y.toRat x.toRat
    rw [abs_toRat, abs_toRat, abs_sub_comm] at htriangle
    exact sub_le_iff_le_add'.1 htriangle
  -- the one with more places has the digits of the difference, and more
  refine (magnitude_sub? h).2 ?_
  rcases max_choice x.scale y.scale with hscale | hscale
  · calc distance x y * 10 ^ max x.scale y.scale
        ≤ x.magnitude * 10 ^ max x.scale y.scale := by gcongr; linarith
      _ < 2 ^ 96 := magnitude_mul_pow_lt hscale.symm
  · calc distance x y * 10 ^ max x.scale y.scale
        ≤ y.magnitude * 10 ^ max x.scale y.scale := by gcongr; linarith
      _ < 2 ^ 96 := magnitude_mul_pow_lt hscale.symm

/-! ## Quotients -/

/-- Zeros at the end of the places can go. -/
theorem normalize_spec (x : Amount) : x.normalize.magnitude = x.magnitude ∧
    (x.negative = false → x.normalize.negative = false) := by
  unfold normalize
  cases hzero : x.isZero with
  | true =>
    rw [if_pos rfl, (isZero_iff x).1 hzero]
    exact ⟨by simp [magnitude, zero], fun _ => rfl⟩
  | false =>
    rw [if_neg Bool.false_ne_true]
    have hvalue := Numeral.stripZeros_fst_mul x.scale x.coefficient
    have htaken := Numeral.stripZeros_snd_le x.scale x.coefficient
    generalize Numeral.stripZeros x.scale x.coefficient = stripped at *
    obtain ⟨coefficient, taken⟩ := stripped
    dsimp only at *
    cases hparts : ofParts? x.negative coefficient (x.scale - taken) with
    | none => exact ⟨rfl, id⟩
    | some z =>
      obtain ⟨hnegative, hcoefficient, hscale⟩ := ofParts?_eq_some hparts
      refine ⟨?_, fun h => hnegative.trans h⟩
      show z.magnitude = _
      unfold magnitude
      rw [hcoefficient, hscale, ← hvalue, ← pow_sub_mul_pow (10 : ℚ) htaken]
      push_cast
      field_simp

/-- A quotient is rounded at the 28th place, or at an earlier one if it is so large that no more
places fit. -/
theorem magnitude_of_places {num den : Nat} (hden : 0 < den) {z : Amount}
    (h : ((List.range 29).reverse.findSome? fun places =>
      ofParts? false (divHalfEven (num * 10 ^ places) den) places) = some z) :
    z.negative = false ∧ (|z.magnitude - num / den| ≤ 1 / (2 * 10 ^ 28) ∨
      7 ≤ (num / den : ℚ) ∧ |z.magnitude - num / den| ≤ num / den / 10 ^ 28) := by
  obtain ⟨places, hmem, hparts, hfirst⟩ :=
    exists_first (List.pairwise_reverse.2 List.pairwise_lt_range) h
  obtain ⟨hnegative, hcoefficient, hscale⟩ := ofParts?_eq_some hparts
  rw [List.mem_reverse, List.mem_range] at hmem
  have hround := abs_divHalfEven_sub_le (num * 10 ^ places) hden
  have herror : |z.magnitude - num / den| ≤ 1 / (2 * 10 ^ places) := by
    have hdiff : z.magnitude - num / den =
        (divHalfEven (num * 10 ^ places) den - (num * 10 ^ places : Nat) / den) / 10 ^ places := by
      unfold magnitude
      rw [hcoefficient, hscale]
      push_cast
      field_simp
    rw [hdiff, abs_div, abs_of_pos (show (0 : ℚ) < 10 ^ places by positivity),
      div_le_iff₀ (by positivity)]
    refine hround.trans (le_of_eq ?_)
    field_simp
  refine ⟨hnegative, ?_⟩
  by_cases hall : places = 28
  · left
    rwa [hall] at herror
  · right
    -- with one place more the digits would not fit
    have hlarge : 2 ^ 96 ≤ divHalfEven (num * 10 ^ (places + 1)) den := by
      by_contra hfits
      have hfound := ofParts?_ne_none false (Nat.not_le.1 hfits)
        (show places + 1 ≤ 28 by omega)
      rcases hfirst (places + 1) (by simp; omega) hfound with heq | hlt
      · omega
      · omega
    have hquotient : 7 * 10 ^ 28 ≤ (num / den : ℚ) * 10 ^ (places + 1) := by
      have hquotient := le_div_of_le_divHalfEven hden hlarge
      push_cast at hquotient
      rwa [div_mul_eq_mul_div]
    have hnonneg : (0 : ℚ) ≤ num / den := by positivity
    have hplaces : (10 : ℚ) ^ (places + 1) ≤ 10 ^ 28 := pow_le_pow_right₀ (by norm_num) (by omega)
    refine ⟨?_, herror.trans ?_⟩
    · have hmul := mul_le_mul_of_nonneg_left hplaces hnonneg
      linarith
    · have hpos : (0 : ℚ) < 10 ^ places := by positivity
      rw [pow_succ (10 : ℚ) places] at hquotient
      rw [div_le_div_iff₀ (by positivity) (by positivity)]
      linarith

/-- A quotient of the digits without a rest is the quotient of the amounts. -/
theorem magnitude_of_dvd {negative : Bool} {x y z : Amount} (hden : 0 < y.coefficient)
    (hdvd : y.coefficient ∣ x.coefficient) (hscale : y.scale ≤ x.scale)
    (h : ofParts? negative (x.coefficient / y.coefficient) (x.scale - y.scale) = some z) :
    z.negative = negative ∧ z.magnitude = x.magnitude / y.magnitude := by
  obtain ⟨hnegative, hcoefficient, hplaces⟩ := ofParts?_eq_some h
  have hcast : ((x.coefficient / y.coefficient : Nat) : ℚ) = x.coefficient / y.coefficient :=
    Nat.cast_div hdvd (Nat.cast_ne_zero.2 hden.ne')
  refine ⟨hnegative, ?_⟩
  unfold magnitude
  rw [hcoefficient, hplaces, hcast, ← pow_sub_mul_pow (10 : ℚ) hscale]
  field_simp

/-- The quotient of two amounts without sign, as the digits that fit: off by half a unit of the 28th
place, or by one part in `10²⁸` if it is so large that not all places fit. -/
theorem magnitude_div? {x y z : Amount} (hx : x.negative = false) (hy : y.negative = false)
    (h : x.div? y = some z) : z.negative = false ∧
      (|z.magnitude - x.magnitude / y.magnitude| ≤ 1 / (2 * 10 ^ 28) ∨
        7 ≤ x.magnitude / y.magnitude ∧
          |z.magnitude - x.magnitude / y.magnitude| ≤ x.magnitude / y.magnitude / 10 ^ 28) := by
  unfold div? at h
  rw [hx, hy] at h
  cases hyzero : y.isZero with
  | true =>
    rw [hyzero, if_pos rfl] at h
    exact nomatch h
  | false =>
    rw [hyzero, if_neg Bool.false_ne_true] at h
    have hden : 0 < y.coefficient := by
      unfold isZero at hyzero
      simpa [Nat.pos_iff_ne_zero] using hyzero
    cases hxzero : x.isZero with
    | true =>
      rw [hxzero, if_pos rfl] at h
      rw [← Option.some.inj h, (isZero_iff x).1 hxzero]
      refine ⟨rfl, Or.inl ?_⟩
      simp [magnitude, zero]
    | false =>
      rw [hxzero, if_neg Bool.false_ne_true] at h
      dsimp only at h
      have hquotient : x.magnitude / y.magnitude =
          ((x.coefficient * 10 ^ y.scale : Nat) : ℚ) / (y.coefficient * 10 ^ x.scale : Nat) := by
        unfold magnitude
        push_cast
        field_simp
      split at h
      · rename_i hexact
        obtain ⟨hnegative, hvalue⟩ :=
          magnitude_of_dvd hden (Nat.dvd_of_mod_eq_zero hexact.1) hexact.2 h
        refine ⟨hnegative, Or.inl ?_⟩
        rw [hvalue, sub_self, abs_zero]
        positivity
      · obtain ⟨w, hw, hz⟩ := Option.map_eq_some_iff.1 h
        obtain ⟨hmagnitude, hsign⟩ := normalize_spec w
        obtain ⟨hnegative, herror⟩ := magnitude_of_places (by positivity) hw
        rw [← hz, hmagnitude, hquotient]
        exact ⟨hsign hnegative, herror⟩

/-! ## Hundredfolds -/

/-- A hundred times an amount, if there is such an amount, is exact: at most two zeros are dropped. -/
theorem magnitude_mul?_hundred {x z : Amount} (h : x.mul? hundred = some z) :
    z.magnitude = x.magnitude * 100 ∧ (x.negative = false → z.negative = false) := by
  unfold mul? at h
  cases hzero : x.isZero with
  | true =>
    rw [hzero, Bool.true_or, if_pos rfl] at h
    rw [← Option.some.inj h, (isZero_iff x).1 hzero]
    exact ⟨by simp [magnitude, zero], fun _ => rfl⟩
  | false =>
    have hhundred : hundred.isZero = false := rfl
    rw [hzero, hhundred, Bool.or_false, if_neg Bool.false_ne_true] at h
    obtain ⟨dropped, hdropped, hnegative, hcoefficient, hplaces, hfewer⟩ :=
      exists_dropped x.scale_le h
    have hzeros : 10 ^ 2 ∣ x.coefficient * hundred.coefficient := Dvd.intro_left x.coefficient rfl
    have htwo : dropped ≤ 2 := by
      by_contra hmore
      have hlarge := hfewer 2 (Nat.not_le.1 hmore)
      rw [divHalfEven_of_dvd (by decide) hzeros] at hlarge
      have hcancel : x.coefficient * hundred.coefficient / 10 ^ 2 = x.coefficient :=
        Nat.mul_div_cancel _ (by decide)
      rw [hcancel] at hlarge
      exact absurd x.coefficient_lt (Nat.not_lt.2 hlarge)
    have hdvd : 10 ^ dropped ∣ x.coefficient * hundred.coefficient :=
      (Nat.pow_dvd_pow 10 htwo).trans hzeros
    have hvalue : z.coefficient * 10 ^ dropped = x.coefficient * 100 := by
      rw [hcoefficient, divHalfEven_of_dvd (Nat.pow_pos (by decide)) hdvd]
      exact Nat.div_mul_cancel hdvd
    refine ⟨?_, fun hx => by rw [hnegative, hx]; rfl⟩
    have hvalue' : (z.coefficient * 10 ^ dropped : ℚ) = x.coefficient * 100 := by
      exact_mod_cast hvalue
    unfold magnitude
    rw [hplaces, ← pow_sub_mul_pow (10 : ℚ) hdropped, div_mul_eq_mul_div, ← hvalue']
    show (z.coefficient : ℚ) / 10 ^ (x.scale - dropped) = _
    field_simp

end Amount

end TradeGate
