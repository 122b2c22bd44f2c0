import TradeGate.Number.Amount
import TradeGate.Proofs.Number.Numeral

/-!
# Amounts are read back

The text of an amount is read as that amount, with its scale; only a zero loses its sign
(`Amount.read?_text`).
-/

namespace TradeGate

-- Powers are those of the core library.
attribute [local instance (high)] instPowNat

open Numeral

namespace Amount

/-- The amount, without the sign that a zero may have. -/
def unsignedZero (x : Amount) : Amount :=
  { x with negative := x.negative && x.coefficient != 0 }

theorem unsignedZero_unsignedZero (x : Amount) : x.unsignedZero.unsignedZero = x.unsignedZero := by
  unfold unsignedZero
  cases x.negative <;> simp

/-- A sign of zero does not count. -/
theorem units_unsignedZero (x : Amount) : x.unsignedZero.units = x.units := by
  unfold unsignedZero units signed
  cases x.negative with
  | false => rfl
  | true =>
    by_cases h : x.coefficient = 0
    · simp [h]
    · simp [h]

/-! ## Runs of digits -/

/-- What has been read after more digits. -/
def Progress.after (state : Progress) (run : List Char) : Progress :=
  { state with
    coefficient := state.coefficient * 10 ^ run.length + value run
    scale := if state.point then state.scale + run.length else state.scale
    digits := state.digits || !run.isEmpty }

theorem Progress.after_nil (state : Progress) : state.after [] = state := by
  unfold Progress.after
  cases state
  simp [value]

theorem Progress.after_append (state : Progress) (run more : List Char) :
    (state.after run).after more = state.after (run ++ more) := by
  unfold Progress.after
  rw [value_append, List.length_append, Nat.pow_add]
  simp only [Progress.mk.injEq, true_and]
  refine ⟨by rw [Nat.add_mul, Nat.mul_assoc, Nat.add_assoc], ?_, by cases run <;> simp⟩
  cases state.point with
  | false => rfl
  | true => exact Nat.add_assoc _ _ _

/-- A digit is taken up as long as the number fits, and at most 28 of them behind the point. -/
theorem readDigits_cons (negative : Bool) {state : Progress} {c : Char} (hc : c.isDigit = true)
    (hfits : (state.after [c]).coefficient < 2 ^ (96 : Nat))
    (hpoint : state.point = true → state.scale < 28)
    (hwhole : state.point = false → state.scale = 0) (rest : List Char) :
    readDigits negative state (c :: rest) = readDigits negative (state.after [c]) rest := by
  have hcoefficient : (state.after [c]).coefficient = 10 * state.coefficient + digit c := by
    simp [Progress.after, value, Nat.mul_comm]
  have hroom : ¬ (state.point && state.digits && 28 ≤ state.scale) = true := by
    simp only [Bool.and_eq_true, decide_eq_true_eq]
    rintro ⟨⟨hp, -⟩, hscale⟩
    exact absurd (hpoint hp) (Nat.not_lt.2 hscale)
  rw [hcoefficient] at hfits
  rw [readDigits, if_neg hroom, if_pos hc]
  dsimp only
  rw [if_pos hfits]
  congr 1
  unfold Progress.after
  cases hp : state.point with
  | false => simp [value, Nat.mul_comm, hwhole hp]
  | true => simp [value, Nat.mul_comm]

/-- So is a run of digits. -/
theorem readDigits_append (negative : Bool) {state : Progress} {run : List Char}
    (hrun : ∀ c ∈ run, c.isDigit = true) (hfits : (state.after run).coefficient < 2 ^ (96 : Nat))
    (hpoint : state.point = true → state.scale + run.length ≤ 28)
    (hwhole : state.point = false → state.scale = 0) (rest : List Char) :
    readDigits negative state (run ++ rest) = readDigits negative (state.after run) rest := by
  induction run generalizing state with
  | nil => rw [Progress.after_nil, List.nil_append]
  | cons c run ih =>
    rw [List.forall_mem_cons] at hrun
    have hsplit : (state.after [c]).after run = state.after (c :: run) := state.after_append [c] run
    have hone : (state.after [c]).coefficient ≤ (state.after (c :: run)).coefficient := by
      rw [← hsplit]
      unfold Progress.after
      exact Nat.le_add_right_of_le (Nat.le_mul_of_pos_right _ (Nat.pow_pos (by decide)))
    rw [List.length_cons] at hpoint
    rw [List.cons_append, readDigits_cons negative hrun.1 (Nat.lt_of_le_of_lt hone hfits)
      (fun hp => by have := hpoint hp; omega) hwhole, ← hsplit]
    refine ih hrun.2 (by rwa [hsplit]) (fun hp => ?_) fun hp => ?_
    · have hp : state.point = true := hp
      have := hpoint hp
      simp only [Progress.after, hp, if_true, List.length_singleton]
      omega
    · have hp : state.point = false := hp
      simp [Progress.after, hp, hwhole hp]

/-! ## Whole texts -/

theorem readDigits_nil (negative : Bool) (coefficient scale : Nat) (point : Bool) :
    readDigits negative ⟨coefficient, scale, point, true⟩ [] =
      ofParts? (negative && coefficient != 0) coefficient scale := rfl

theorem readDigits_point (negative : Bool) (coefficient : Nat) (rest : List Char) :
    readDigits negative ⟨coefficient, 0, false, true⟩ ('.' :: rest) =
      readDigits negative ⟨coefficient, 0, true, true⟩ rest := by
  rw [readDigits]
  rfl

/-- Digits with a point somewhere among them are read as their number and the places behind it. -/
theorem readDigits_digits (negative : Bool) {whole places : List Char}
    (hwhole : ∀ c ∈ whole, c.isDigit = true) (hplaces : ∀ c ∈ places, c.isDigit = true)
    (hne : whole ≠ []) (hfits : value (whole ++ places) < 2 ^ (96 : Nat))
    (hlength : places.length ≤ 28) :
    readDigits negative ⟨0, 0, false, false⟩
        (if places.length = 0 then whole ++ places else whole ++ '.' :: places) =
      ofParts? (negative && value (whole ++ places) != 0) (value (whole ++ places)) places.length := by
  rw [value_append] at hfits ⊢
  have hbelow : value whole < 2 ^ (96 : Nat) := by
    refine Nat.lt_of_le_of_lt ?_ hfits
    exact Nat.le_add_right_of_le (Nat.le_mul_of_pos_right _ (Nat.pow_pos (by decide)))
  have hfront : (Progress.mk 0 0 false false).after whole = ⟨value whole, 0, false, true⟩ := by
    simp [Progress.after, hne]
  have hread (rest : List Char) : readDigits negative ⟨0, 0, false, false⟩ (whole ++ rest) =
      readDigits negative ⟨value whole, 0, false, true⟩ rest := by
    rw [readDigits_append negative hwhole (by rw [hfront]; exact hbelow)
      (fun hp => absurd hp Bool.false_ne_true) (fun _ => rfl),
      hfront]
  by_cases hnone : places.length = 0
  · obtain rfl : places = [] := List.length_eq_zero_iff.1 hnone
    rw [if_pos hnone, hread, readDigits_nil]
    simp [value]
  · have hbehind : (Progress.mk (value whole) 0 true true).after places =
        ⟨value whole * 10 ^ places.length + value places, places.length, true, true⟩ := by
      simp [Progress.after]
    rw [if_neg hnone, hread, readDigits_point, ← List.append_nil places,
      readDigits_append negative hplaces (by rw [hbehind]; exact hfits)
        (fun _ => by rw [Nat.zero_add]; exact hlength) (fun hp => absurd hp.symm Bool.false_ne_true),
      hbehind, readDigits_nil,
      List.append_nil]

/-- The digits of an amount with their point, as its text has them. -/
def digitChars (x : Amount) : List Char :=
  let written := padded (x.scale + 1) x.coefficient
  let whole := written.length - x.scale
  if x.scale = 0 then written else written.take whole ++ '.' :: written.drop whole

theorem readDigits_digitChars (negative : Bool) (x : Amount) :
    readDigits negative ⟨0, 0, false, false⟩ x.digitChars =
      ofParts? (negative && x.coefficient != 0) x.coefficient x.scale := by
  have hvalue := value_padded (x.scale + 1) x.coefficient
  have hdigits : ∀ c ∈ padded (x.scale + 1) x.coefficient, c.isDigit = true :=
    fun c hc => isDigit_of_mem_padded hc
  have hlong : x.scale + 1 ≤ (padded (x.scale + 1) x.coefficient).length := by
    unfold padded
    rw [List.length_append, List.length_replicate]
    omega
  unfold digitChars
  dsimp only
  generalize padded (x.scale + 1) x.coefficient = written at *
  generalize hcut : written.length - x.scale = cut
  have hplaces : (written.drop cut).length = x.scale := by
    rw [List.length_drop]
    omega
  have hread := @readDigits_digits negative (written.take cut) (written.drop cut)
    (fun c hc => hdigits c (List.mem_of_mem_take hc)) (fun c hc => hdigits c (List.mem_of_mem_drop hc))
    (by rw [← List.length_pos_iff, List.length_take]; omega)
    (by rw [List.take_append_drop, hvalue]; exact x.coefficient_lt) (by rw [hplaces]; exact x.scale_le)
  rwa [hplaces, List.take_append_drop, hvalue] at hread

theorem chars_eq (x : Amount) :
    x.chars = if x.negative then '-' :: x.digitChars else x.digitChars := by
  unfold chars digitChars
  cases x.negative <;> rfl

theorem exists_cons_digitChars (x : Amount) :
    ∃ c rest, x.digitChars = c :: rest ∧ c.isDigit = true := by
  have hlong : x.scale < (padded (x.scale + 1) x.coefficient).length := by
    unfold padded
    rw [List.length_append, List.length_replicate]
    omega
  obtain ⟨c, rest, hwritten⟩ := List.exists_cons_of_ne_nil (padded_ne_nil (x.scale + 1) x.coefficient)
  have hc : c.isDigit = true :=
    isDigit_of_mem_padded (hwritten ▸ List.mem_cons_self : c ∈ padded (x.scale + 1) x.coefficient)
  unfold digitChars
  rw [hwritten] at hlong ⊢
  dsimp only
  split
  · exact ⟨c, rest, rfl, hc⟩
  · obtain ⟨cut, hcut⟩ : ∃ cut, (c :: rest).length - x.scale = cut + 1 :=
      ⟨(c :: rest).length - x.scale - 1, by omega⟩
    rw [hcut, List.take_succ_cons, List.cons_append]
    exact ⟨c, _, rfl, hc⟩

theorem readPlain?_of_isDigit {c : Char} (hc : c.isDigit = true) (rest : List Char) :
    readPlain? (c :: rest) = readDigits false ⟨0, 0, false, false⟩ (c :: rest) := by
  unfold readPlain?
  split
  · rename_i heq
    rw [(List.cons.inj heq).1] at hc
    exact absurd hc (by decide)
  · rename_i heq
    rw [(List.cons.inj heq).1] at hc
    exact absurd hc (by decide)
  · rfl

theorem readPlain?_chars (x : Amount) : readPlain? x.chars = some x.unsignedZero := by
  have hparts (negative : Bool) :
      ofParts? negative x.coefficient x.scale = some { x with negative } :=
    dif_pos ⟨x.coefficient_lt, x.scale_le⟩
  rw [chars_eq]
  cases hsign : x.negative with
  | true =>
    rw [if_pos rfl, readPlain?, readDigits_digitChars, hparts]
    unfold unsignedZero
    rw [hsign]
  | false =>
    obtain ⟨c, rest, hchars, hc⟩ := exists_cons_digitChars x
    have hread := readDigits_digitChars false x
    rw [if_neg Bool.false_ne_true, hchars, readPlain?_of_isDigit hc, ← hchars, hread, hparts]
    unfold unsignedZero
    rw [hsign]

/-- The text of an amount is read as the amount. -/
theorem read?_text (x : Amount) : read? x.text = some x.unsignedZero := by
  unfold read? text
  rw [String.toList_ofList, readPlain?_chars]
  rfl

end Amount

end TradeGate
