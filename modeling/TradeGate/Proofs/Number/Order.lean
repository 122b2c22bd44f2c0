import TradeGate.Number.Binary64

/-!
# The order of binary64 values

The order is total apart from what is not a number, changing signs turns it round, and no natural
number is below zero.
-/

namespace TradeGate

namespace Binary64

theorem eq_nan_of_isNaN {x : Binary64} (h : x.isNaN = true) : x = nan := by
  cases x with
  | nan => rfl
  | infinity s => exact nomatch h
  | finite s u _ => exact nomatch h

theorem le_total_of_isNaN_eq_false {x y : Binary64} (hx : x.isNaN = false)
    (hy : y.isNaN = false) : le x y = true ∨ le y x = true := by
  cases x with
  | nan => exact nomatch hx
  | infinity s =>
    cases y with
    | nan => exact nomatch hy
    | infinity t => cases s <;> cases t <;> simp [le]
    | finite t v _ => cases s <;> simp [le]
  | finite s u _ =>
    cases y with
    | nan => exact nomatch hy
    | infinity t => cases t <;> simp [le]
    | finite t v _ =>
      simp only [le, decide_eq_true_eq]
      exact Int.le_total _ _

/-- Values that are not ordered one way are ordered the other way, strictly, or one of them is not a
number. -/
theorem le_eq_false_iff (x y : Binary64) :
    le x y = false ↔ lt y x = true ∨ x.isNaN = true ∨ y.isNaN = true := by
  cases hx : x.isNaN with
  | true =>
    obtain rfl := eq_nan_of_isNaN hx
    simp [le]
  | false =>
    cases hy : y.isNaN with
    | true =>
      obtain rfl := eq_nan_of_isNaN hy
      simp [le_nan]
    | false =>
      have htotal := le_total_of_isNaN_eq_false hx hy
      unfold lt
      cases hxy : le x y with
      | true => simp
      | false =>
        rcases htotal with h | h
        · rw [hxy] at h
          exact absurd h Bool.false_ne_true
        · simp [h]

theorem isNaN_eq_false_of_le {x y : Binary64} (h : le x y = true) : y.isNaN = false := by
  cases hy : y.isNaN with
  | false => rfl
  | true =>
    rw [eq_nan_of_isNaN hy, le_nan] at h
    exact nomatch h

/-- What is not below a number is no less than it. -/
theorem le_of_not_lt {x y : Binary64} (hx : x.isNaN = false) (hy : y.isNaN = false)
    (h : lt x y = false) : le y x = true := by
  rcases le_total_of_isNaN_eq_false hx hy with hle | hle
  · simpa [lt, hle] using h
  · exact hle

theorem lt_irrefl (x : Binary64) : lt x x = false := by
  unfold lt
  exact Bool.and_not_self _

theorem lt_trans {x y z : Binary64} (hxy : lt x y = true) (hyz : lt y z = true) :
    lt x z = true := by
  unfold lt at *
  rw [Bool.and_eq_true, Bool.not_eq_true'] at *
  refine ⟨le_trans hxy.1 hyz.1, ?_⟩
  cases hzx : le z x with
  | false => rfl
  | true => exact absurd (hxy.2.symm.trans (le_trans hyz.1 hzx)) Bool.false_ne_true

theorem neg_le_neg {x y : Binary64} (h : le x y = true) : le (-y) (-x) = true := by
  show le y.neg x.neg = true
  match x, y with
  | nan, _ => exact nomatch h
  | _, nan => rw [le_nan] at h; exact nomatch h
  | infinity true, infinity true => rfl
  | infinity true, infinity false => rfl
  | infinity true, finite .. => rfl
  | infinity false, infinity false => rfl
  | infinity false, infinity true => exact nomatch h
  | infinity false, finite .. => exact nomatch h
  | finite .., infinity false => rfl
  | finite .., infinity true => exact nomatch h
  | finite s u _, finite t v _ =>
    simp only [neg, le, signedUnits] at h ⊢
    cases s <;> cases t <;> simp at h ⊢ <;> omega

theorem finite_le_finite {x y : Nat} (hx : Representable x) (hy : Representable y) (h : x ≤ y) :
    le (finite false x hx) (finite false y hy) = true :=
  decide_eq_true (Int.ofNat_le.2 h)

theorem exists_ofNat_zero_eq : ∃ hzero, ofNat 0 = finite false 0 hzero :=
  ⟨by decide +kernel, by decide +kernel⟩

theorem ofNat_zero_le_finite {units : Nat} (h : Representable units) :
    le (ofNat 0) (finite false units h) = true := by
  obtain ⟨_, hzero⟩ := exists_ofNat_zero_eq
  rw [hzero]
  exact finite_le_finite _ _ (Nat.zero_le units)

theorem ofNat_zero_le (n : Nat) : le (ofNat 0) (ofNat n) = true := by
  obtain ⟨_, hzero⟩ := exists_ofNat_zero_eq
  rw [hzero]
  unfold ofNat ofRatio ofUnits
  dsimp only
  split
  · exact finite_le_finite _ _ (Nat.zero_le _)
  · rfl

/-- Numbers above zero are told apart by the order. -/
theorem eq_of_not_lt {x y : Binary64} (hx : lt (ofNat 0) x = true) (hy : lt (ofNat 0) y = true)
    (hxy : lt x y = false) (hyx : lt y x = false) : x = y := by
  obtain ⟨_, hzero⟩ := exists_ofNat_zero_eq
  rw [hzero] at hx hy
  match x, y with
  | nan, _ => exact nomatch hx
  | _, nan => exact nomatch hy
  | infinity true, _ => exact nomatch hx
  | _, infinity true => exact nomatch hy
  | infinity false, infinity false => rfl
  | infinity false, finite .. => exact nomatch hyx
  | finite .., infinity false => exact nomatch hxy
  | finite true u _, _ => exact absurd hx (by simp [lt, le, signedUnits])
  | _, finite true v _ => exact absurd hy (by simp [lt, le, signedUnits])
  | finite false u _, finite false v _ =>
    simp only [lt, le, signedUnits, Bool.false_eq_true, if_false] at hxy hyx
    obtain rfl : u = v := by
      simp at hxy hyx
      omega
    rfl

theorem lt_ofNat_zero (n : Nat) : lt (ofNat n) (ofNat 0) = false := by
  unfold lt
  rw [ofNat_zero_le, Bool.not_true, Bool.and_false]

end Binary64

end TradeGate
