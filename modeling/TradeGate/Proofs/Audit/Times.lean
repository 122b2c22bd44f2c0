import Mathlib.Algebra.BigOperators.Group.List.Basic
import Mathlib.Algebra.Order.Field.Rat
import Mathlib.Data.List.Induction
import Mathlib.Tactic.FieldSimp
import Mathlib.Tactic.NormNum
import Mathlib.Tactic.Positivity
import Mathlib.Tactic.Ring
import TradeGate.Audit.DailyStats
import TradeGate.Proofs.Number.Order

/-!
# The times of a row

A row keeps the mean and the greatest of its evaluation times as they come in. Both are computed here
with any arithmetic (`Times.of`), so that they can be followed with the one of a row, which rounds,
and with exact rational numbers. Exactly, the running mean is the sum over the number
(`of_rational_mean`), whatever the order; rounded it depends on the order. The greatest time does not
(`greatest_of_perm`): nothing is rounded in it.
-/

namespace TradeGate

/-- What the mean and the greatest of times are computed with. -/
structure Arithmetic (α : Type) where
  ofNat : Nat → α
  add : α → α → α
  sub : α → α → α
  div : α → α → α
  lt : α → α → Bool

namespace Arithmetic

/-- Every result is rounded. -/
def binary64 : Arithmetic Binary64 where
  ofNat := .ofNat
  add := (· + ·)
  sub := (· - ·)
  div := (· / ·)
  lt := Binary64.lt

/-- No result is rounded. -/
def rational : Arithmetic ℚ where
  ofNat n := n
  add := (· + ·)
  sub := (· - ·)
  div := (· / ·)
  lt x y := x < y

/-- The comparison is a strict order that tells values above zero apart. -/
structure Ordered {α : Type} (arithmetic : Arithmetic α) : Prop where
  lt_irrefl : ∀ x, arithmetic.lt x x = false
  lt_trans : ∀ {x y z}, arithmetic.lt x y = true → arithmetic.lt y z = true →
    arithmetic.lt x z = true
  eq_of_not_lt : ∀ {x y}, arithmetic.lt (arithmetic.ofNat 0) x = true →
    arithmetic.lt (arithmetic.ofNat 0) y = true → arithmetic.lt x y = false →
    arithmetic.lt y x = false → x = y

theorem binary64_lt : binary64.lt = Binary64.lt := rfl

theorem binary64_ofNat (n : Nat) : binary64.ofNat n = Binary64.ofNat n := by rw [binary64]

theorem ordered_binary64 : binary64.Ordered where
  lt_irrefl := Binary64.lt_irrefl
  lt_trans := Binary64.lt_trans
  eq_of_not_lt := by
    rw [binary64_lt, binary64_ofNat]
    intro x y
    exact Binary64.eq_of_not_lt

theorem ordered_rational : rational.Ordered where
  lt_irrefl x := decide_eq_false (lt_irrefl x)
  lt_trans hxy hyz := decide_eq_true ((of_decide_eq_true hxy).trans (of_decide_eq_true hyz))
  eq_of_not_lt _ _ hxy hyx :=
    le_antisymm (not_lt.1 (of_decide_eq_false hyx)) (not_lt.1 (of_decide_eq_false hxy))

end Arithmetic

/-- The number, the mean and the greatest of the times so far. -/
@[ext]
structure Times (α : Type) where
  count : Nat
  mean : α
  greatest : α

namespace Times

variable {α : Type} (arithmetic : Arithmetic α)

/-- One more time. -/
def add (times : Times α) (time : α) : Times α where
  count := times.count + 1
  mean := arithmetic.add times.mean
    (arithmetic.div (arithmetic.sub time times.mean) (arithmetic.ofNat (times.count + 1)))
  greatest := if arithmetic.lt times.greatest time then time else times.greatest

/-- The times of a list, one after the other. -/
def of (times : List α) : Times α :=
  times.foldl (add arithmetic) ⟨0, arithmetic.ofNat 0, arithmetic.ofNat 0⟩

theorem of_append_singleton (times : List α) (time : α) :
    of arithmetic (times ++ [time]) = (of arithmetic times).add arithmetic time := by
  unfold of
  rw [List.foldl_append, List.foldl_cons, List.foldl_nil]

theorem of_count (times : List α) : (of arithmetic times).count = times.length := by
  induction times using List.reverseRecOn with
  | nil => rfl
  | append_singleton times time ih =>
    rw [of_append_singleton, List.length_append, ← ih]
    rfl

/-! ## The greatest time -/

/-- No time is above the value, which is one of them or the zero that it started from. -/
structure IsGreatest (greatest : α) (times : List α) : Prop where
  lt_eq_false : ∀ time ∈ times, arithmetic.lt greatest time = false
  eq_or : greatest = arithmetic.ofNat 0 ∨
    greatest ∈ times ∧ arithmetic.lt (arithmetic.ofNat 0) greatest = true

variable {arithmetic}

section Greatest

variable (h : arithmetic.Ordered)

include h

theorem isGreatest_of (times : List α) :
    IsGreatest arithmetic (of arithmetic times).greatest times := by
  induction times using List.reverseRecOn with
  | nil => exact ⟨fun _ htime => (nomatch htime), Or.inl rfl⟩
  | append_singleton times time ih =>
    rw [of_append_singleton]
    unfold add
    dsimp only
    cases hlt : arithmetic.lt (of arithmetic times).greatest time with
    | false =>
      refine ⟨fun other hother => ?_, ih.eq_or.imp_right fun hmem => ?_⟩
      · rcases List.mem_append.1 hother with hother | hother
        · exact ih.lt_eq_false other hother
        · rw [List.mem_singleton.1 hother]
          exact hlt
      · exact ⟨List.mem_append_left _ hmem.1, hmem.2⟩
    | true =>
      rw [if_pos rfl]
      refine ⟨fun other hother => ?_, Or.inr ⟨by simp, ?_⟩⟩
      · rcases List.mem_append.1 hother with hother | hother
        · -- what is above the new one is above the one before it
          cases habove : arithmetic.lt time other with
          | false => rfl
          | true =>
            have hnot := ih.lt_eq_false other hother
            rw [h.lt_trans hlt habove] at hnot
            exact nomatch hnot
        · rw [List.mem_singleton.1 hother]
          exact h.lt_irrefl time
      · rcases ih.eq_or with hzero | ⟨-, hpos⟩
        · rw [← hzero]
          exact hlt
        · exact h.lt_trans hpos hlt

theorem IsGreatest.unique {x y : α} {times : List α} (hx : IsGreatest arithmetic x times)
    (hy : IsGreatest arithmetic y times) : x = y := by
  -- a time above zero is above a greatest that is zero
  have hzero : ∀ {x y}, IsGreatest arithmetic x times → x = arithmetic.ofNat 0 →
      IsGreatest arithmetic y times → y = arithmetic.ofNat 0 := by
    intro x y hx hzero hy
    refine hy.eq_or.resolve_right fun hmem => ?_
    have hnot := hx.lt_eq_false y hmem.1
    rw [hzero, hmem.2] at hnot
    exact nomatch hnot
  rcases hx.eq_or with hxzero | ⟨hxmem, hxpos⟩
  · rw [hxzero, hzero hx hxzero hy]
  · rcases hy.eq_or with hyzero | ⟨hymem, hypos⟩
    · rw [hyzero, hzero hy hyzero hx]
    · exact h.eq_of_not_lt hxpos hypos (hx.lt_eq_false y hymem) (hy.lt_eq_false x hxmem)

/-- The greatest time does not depend on the order. -/
theorem greatest_of_perm {times others : List α} (hperm : times.Perm others) :
    (of arithmetic times).greatest = (of arithmetic others).greatest := by
  have hothers := isGreatest_of h others
  refine (isGreatest_of h times).unique h ⟨fun time htime => ?_, hothers.eq_or.imp_right ?_⟩
  · exact hothers.lt_eq_false time (hperm.mem_iff.1 htime)
  · exact And.imp_left hperm.mem_iff.2

end Greatest

/-- Of times above or at zero the greatest is one of them, up to the sign of zero. -/
theorem IsGreatest.of_binary64 {greatest : Binary64} {times : List Binary64}
    (h : IsGreatest .binary64 greatest times)
    (hpast : ∀ time ∈ times, Binary64.le (.ofNat 0) time = true) :
    (∀ time ∈ times, Binary64.le time greatest = true) ∧
      (times ≠ [] → ∃ time ∈ times, Binary64.le greatest time = true) := by
  have hnumber : greatest.isNaN = false := by
    rcases h.eq_or with hzero | ⟨hmem, -⟩
    · rw [hzero, Arithmetic.binary64_ofNat]
      exact Binary64.isNaN_eq_false_of_le (Binary64.ofNat_zero_le 0)
    · exact Binary64.isNaN_eq_false_of_le (hpast _ hmem)
  refine ⟨fun time htime => ?_, fun hne => ?_⟩
  · have hnot := h.lt_eq_false time htime
    rw [Arithmetic.binary64_lt] at hnot
    exact Binary64.le_of_not_lt hnumber (Binary64.isNaN_eq_false_of_le (hpast time htime)) hnot
  · rcases h.eq_or with hzero | ⟨hmem, -⟩
    · obtain ⟨time, htime⟩ := List.exists_mem_of_ne_nil times hne
      refine ⟨time, htime, ?_⟩
      rw [hzero, Arithmetic.binary64_ofNat]
      exact hpast time htime
    · exact ⟨greatest, hmem, Binary64.le_refl_of_isNaN_eq_false hnumber⟩

/-- Of times above or at zero the greatest is one of them. -/
theorem IsGreatest.of_rational {greatest : ℚ} {times : List ℚ}
    (h : IsGreatest .rational greatest times) (hpast : ∀ time ∈ times, 0 ≤ time) :
    (∀ time ∈ times, time ≤ greatest) ∧ (times ≠ [] → greatest ∈ times) := by
  have hle : ∀ time ∈ times, time ≤ greatest := fun time htime =>
    not_lt.1 (of_decide_eq_false (h.lt_eq_false time htime))
  refine ⟨hle, fun hne => ?_⟩
  rcases h.eq_or with hzero | ⟨hmem, -⟩
  · -- then all times are zero
    obtain ⟨time, htime⟩ := List.exists_mem_of_ne_nil times hne
    have hsame : greatest = time := by
      refine le_antisymm ?_ (hle time htime)
      rw [hzero]
      exact_mod_cast hpast time htime
    rwa [hsame]
  · exact hmem

/-! ## The mean of rational times -/

theorem of_rational_mean_mul (times : List ℚ) :
    (of .rational times).mean * times.length = times.sum := by
  induction times using List.reverseRecOn with
  | nil => simp
  | append_singleton times time ih =>
    have hcount : ((times.length : ℚ) + 1) ≠ 0 := by positivity
    rw [of_append_singleton, List.sum_append, ← ih]
    simp only [add, Arithmetic.rational, of_count, List.length_append, List.length_singleton,
      List.sum_singleton, Nat.cast_add, Nat.cast_one]
    field_simp
    ring

theorem of_rational_mean (times : List ℚ) :
    (of .rational times).mean = times.sum / times.length := by
  by_cases hnil : times = []
  · subst hnil
    simp [of, Arithmetic.rational]
  · have hcount : (times.length : ℚ) ≠ 0 := Nat.cast_ne_zero.2 (mt List.length_eq_zero_iff.1 hnil)
    rw [eq_div_iff hcount]
    exact of_rational_mean_mul times

/-- The values are followed without rounding. -/
structure Exact (times : Times ℚ) (values : List ℚ) : Prop where
  count_eq : times.count = values.length
  mean_mul : times.mean * times.count = values.sum
  le_greatest : ∀ value ∈ values, value ≤ times.greatest
  greatest_mem : values ≠ [] → times.greatest ∈ values

theorem exact_of_rational {values : List ℚ} (hpast : ∀ value ∈ values, 0 ≤ value) :
    (of .rational values).Exact values := by
  obtain ⟨hle, hmem⟩ := (isGreatest_of Arithmetic.ordered_rational values).of_rational hpast
  refine ⟨of_count _ values, ?_, hle, hmem⟩
  rw [of_count]
  exact of_rational_mean_mul values

/-- With rational numbers nothing depends on the order. -/
theorem of_rational_perm {times others : List ℚ} (hperm : times.Perm others) :
    of .rational times = of .rational others := by
  refine Times.ext ?_ ?_ (greatest_of_perm Arithmetic.ordered_rational hperm)
  · rw [of_count, of_count, hperm.length_eq]
  · rw [of_rational_mean, of_rational_mean, hperm.sum_eq, hperm.length_eq]

/-- Rounded, the mean of a time of zero and two of one depends on which comes first. -/
example : (of .binary64 (List.map Binary64.ofNat [1, 1, 0])).mean ≠
    (of .binary64 (List.map Binary64.ofNat [0, 1, 1])).mean := by decide +kernel

end Times

end TradeGate
