import Mathlib.Data.List.Induction
import Mathlib.Data.List.TakeWhile
import TradeGate.Number.Numeral

/-!
# Numerals are read back

`Numeral.value` reads what `digits` and `padded` write, the run of digits at the front of a text
ends where they end, and among numerals of one width the order of the texts is that of the numbers
(`Numeral.lt_of_value_lt`).
-/

namespace TradeGate

namespace Numeral

-- Powers are those of the core library.
attribute [local instance (high)] instPowNat

/-! ## Digits -/

theorem isDigit_of_mem_digits {n : Nat} {c : Char} (h : c ∈ digits n) : c.isDigit = true :=
  Nat.isDigit_of_mem_toDigits (by decide) (by decide) h

theorem digits_ne_nil (n : Nat) : digits n ≠ [] := Nat.toDigits_ne_nil

theorem digits_zero : digits 0 = ['0'] := Nat.toDigits_zero 10

theorem value_digits (n : Nat) : value (digits n) = n := by
  have h : Nat.ofDigitChars 10 (Nat.toDigits 10 n) 0 = n :=
    Nat.ofDigitChars_toDigits (by decide) (by decide)
  exact h

/-- Only zero starts with a zero. -/
theorem eq_zero_of_head?_digits {n : Nat} (h : (digits n).head? = some '0') : n = 0 := by
  induction n using Nat.strongRecOn with
  | ind n ih =>
    unfold digits at h ih
    rw [Nat.toDigits_eq_if (by decide)] at h
    by_cases hn : n < 10
    · rw [if_pos hn] at h
      simpa using h
    · rw [if_neg hn, List.head?_append] at h
      obtain ⟨c, rest, hfront⟩ := List.exists_cons_of_ne_nil
        (Nat.toDigits_ne_nil (n := n / 10) (b := 10))
      rw [hfront] at h
      have hzero := ih (n / 10) (by omega) (by rw [hfront]; simpa using h)
      omega

/-! ## Numerals of a width -/

theorem value_append (front back : List Char) :
    value (front ++ back) = value front * 10 ^ back.length + value back := by
  induction back using List.reverseRecOn with
  | nil => simp [value]
  | append_singleton back c ih =>
    simp only [value, ← List.append_assoc, List.foldl_append, List.foldl_cons, List.foldl_nil] at ih ⊢
    rw [ih, List.length_append, List.length_singleton, Nat.pow_succ, ← Nat.mul_assoc]
    omega

theorem value_zeros_append (width : Nat) (cs : List Char) :
    value (List.replicate width '0' ++ cs) = value cs := by
  have hzeros : value (List.replicate width '0') = 0 := by
    induction width with
    | zero => rfl
    | succ width ih =>
      rw [List.replicate_succ', value_append, ih]
      simp [value, digit]
  rw [value_append, hzeros]
  simp

theorem value_padded (width n : Nat) : value (padded width n) = n := by
  unfold padded
  rw [value_zeros_append, value_digits]

theorem isDigit_of_mem_padded {width n : Nat} {c : Char} (h : c ∈ padded width n) :
    c.isDigit = true := by
  unfold padded at h
  rcases List.mem_append.1 h with hzero | hdigit
  · rw [List.eq_of_mem_replicate hzero]
    decide
  · exact isDigit_of_mem_digits hdigit

theorem length_padded {width n : Nat} (hwidth : 0 < width) (h : n < 10 ^ width) :
    (padded width n).length = width := by
  have hdigits : (digits n).length ≤ width :=
    (Nat.length_toDigits_le_iff (by decide) hwidth).2 h
  unfold padded
  rw [List.length_append, List.length_replicate]
  omega

/-- A numeral of a width is told apart from what stands before it. -/
theorem append_padded_inj {width m n : Nat} {front front' : List Char} (hwidth : 0 < width)
    (hm : m < 10 ^ width) (hn : n < 10 ^ width)
    (h : front ++ padded width m = front' ++ padded width n) : front = front' ∧ m = n := by
  obtain ⟨hfront, hback⟩ :=
    List.append_inj' h ((length_padded hwidth hm).trans (length_padded hwidth hn).symm)
  have hvalue := congrArg value hback
  rw [value_padded, value_padded] at hvalue
  exact ⟨hfront, hvalue⟩

theorem padded_ne_nil (width n : Nat) : padded width n ≠ [] := by
  unfold padded
  exact List.append_ne_nil_of_right_ne_nil _ (digits_ne_nil n)

/-! ## Where a run of digits ends -/

/-- The text does not start with a digit. -/
def EndsRun (cs : List Char) : Prop := ∀ c ∈ cs.head?, c.isDigit = false

theorem span_append_of_isDigit {run rest : List Char} (hrun : ∀ c ∈ run, c.isDigit = true)
    (hrest : EndsRun rest) : span (run ++ rest) = (run, rest) := by
  have hnone : rest.takeWhile Char.isDigit = [] ∧ rest.dropWhile Char.isDigit = rest := by
    cases rest with
    | nil => exact ⟨rfl, rfl⟩
    | cons c rest =>
      have hc : c.isDigit = false := hrest c rfl
      simp [hc]
  unfold span
  rw [List.takeWhile_append_of_pos hrun, List.dropWhile_append_of_pos hrun, hnone.1, hnone.2,
    List.append_nil]

theorem isDigit_of_mem_span {cs : List Char} {c : Char} (h : c ∈ (span cs).1) :
    c.isDigit = true :=
  List.mem_takeWhile_imp h

theorem endsRun_span (cs : List Char) : EndsRun (span cs).2 := by
  intro c hc
  have hnot := List.head?_dropWhile_not Char.isDigit cs
  unfold span at hc
  rw [Option.mem_def.1 hc] at hnot
  simpa using hnot

/-- More text behind a run of digits and what ends it changes nothing. -/
theorem span_append_right {cs run tail rest : List Char} (h : span cs = (run, tail))
    (hrest : EndsRun rest) : span (cs ++ rest) = (run, tail ++ rest) := by
  have hcs := span_append cs
  have hrun : ∀ c ∈ run, c.isDigit = true := fun c hc => isDigit_of_mem_span (by rwa [h])
  have htail := endsRun_span cs
  rw [h] at hcs htail
  rw [← hcs, List.append_assoc]
  apply span_append_of_isDigit hrun
  cases tail with
  | nil => exact hrest
  | cons c tail => exact fun d hd => htail d hd

/-! ## Order -/

theorem digit_lt_ten {c : Char} (h : c.isDigit = true) : digit c < 10 := by
  have hrange := Char.isDigit_iff_toNat.1 h
  have hlow : '0'.toNat = 48 := rfl
  have hhigh : '9'.toNat = 57 := rfl
  unfold digit
  omega

theorem value_lt {cs : List Char} (h : ∀ c ∈ cs, c.isDigit = true) : value cs < 10 ^ cs.length := by
  induction cs using List.reverseRecOn with
  | nil => decide
  | append_singleton cs c ih =>
    have hc := digit_lt_ten (h c (by simp))
    have hcs := ih fun d hd => h d (by simp [hd])
    rw [value_append, List.length_append, List.length_singleton, Nat.pow_succ]
    have : value [c] = digit c := by simp [value]
    omega

/-- Of two numerals of one width the one of the smaller number comes first. -/
theorem lt_of_value_lt {cs ds : List Char} (hcs : ∀ c ∈ cs, c.isDigit = true)
    (hds : ∀ d ∈ ds, d.isDigit = true) (hlength : cs.length = ds.length)
    (hvalue : value cs < value ds) : cs < ds := by
  induction cs generalizing ds with
  | nil =>
    obtain rfl : ds = [] := List.length_eq_zero_iff.1 hlength.symm
    exact absurd hvalue (Nat.lt_irrefl _)
  | cons c cs ih =>
    obtain ⟨d, ds, rfl⟩ := List.exists_cons_of_length_eq_add_one hlength.symm
    rw [List.forall_mem_cons] at hcs hds
    have hlength : cs.length = ds.length := by simpa using hlength
    have hc := value_append [c] cs
    have hd := value_append [d] ds
    have hlow := value_lt hds.2
    have hone : ∀ e, value [e] = digit e := fun e => by simp [value]
    rw [List.singleton_append, hone] at hc hd
    rw [hc, hd, hlength] at hvalue
    have hc' := Char.isDigit_iff_toNat.1 hcs.1
    have hd' := Char.isDigit_iff_toNat.1 hds.1
    rw [List.cons_lt_cons_iff]
    by_cases hsame : digit c = digit d
    · right
      have hchar : c = d := by
        apply Char.toNat_inj.1
        unfold digit at hsame
        omega
      refine ⟨hchar, ih hcs.2 hds.2 hlength ?_⟩
      rw [hsame] at hvalue
      omega
    · left
      have hlt : digit c < digit d := by
        by_contra hnot
        have hmul : (digit d + 1) * 10 ^ ds.length ≤ digit c * 10 ^ ds.length :=
          Nat.mul_le_mul_right _ (by omega)
        rw [Nat.add_mul] at hmul
        omega
      unfold digit at hlt
      have hval : c.toNat < d.toNat := by omega
      exact UInt32.lt_iff_toNat_lt.2 hval

end Numeral

end TradeGate
