import TradeGate.Proofs.Json.Number
import TradeGate.Proofs.Number.Nearest

/-!
# Texts of binary64 values are numbers

The text of a finite value is a number with a fraction or an exponent, and all of it is read
(`Json.exists_number_floatChars`). Which value it is read as is another matter: the digits are rounded
and then scaled, so it may be a neighbour of the one that was written, or beyond the finite values.
What it takes is that the shortest digits of a value are not zero (`Binary64.shortest_ne_zero`), for
no number starts with a zero before other digits.
-/

namespace TradeGate

-- Powers are those of the core library.
attribute [local instance (high)] instPowNat

namespace Binary64

/-! ## The shortest digits -/

/-- Zero reads back as no other value. -/
theorem readsBack_zero {units : Nat} (h : units ≠ 0) (exponent : Int) :
    readsBack units 0 exponent = false := by
  have hstep : spacing units ≤ units := by
    calc spacing units ≤ 2 ^ units.log2 := Nat.pow_le_pow_right (by decide) (Nat.sub_le _ _)
      _ ≤ units := Nat.log2_self_le h
  have hlow : 0 < (roundingInterval units).1 := by
    unfold roundingInterval
    dsimp only
    split <;> omega
  have hnum : (quarterUnits 0 exponent).1 = 0 := by simp [quarterUnits]
  have hden : 0 < (quarterUnits 0 exponent).2 := Nat.pow_pos (by decide)
  have hproduct := Nat.mul_pos hlow hden
  unfold readsBack
  dsimp only
  rw [hnum]
  split
  · rw [Bool.and_eq_false_iff, decide_eq_false_iff_not]
    exact .inl (by omega)
  · rw [Bool.and_eq_false_iff, decide_eq_false_iff_not]
    exact .inl (by omega)

theorem readsBack_of_shortestWith? {tieUp : Bool} {units count digits : Nat} {exponent : Int}
    (h : shortestWith? tieUp units count = some (digits, exponent)) :
    readsBack units digits exponent = true := by
  unfold shortestWith? at h
  dsimp only at h
  split at h
  case h_1 => exact nomatch h
  case h_2 hlower _ =>
    obtain ⟨rfl, rfl⟩ := Prod.mk.inj (Option.some.inj h)
    exact hlower
  case h_3 _ hupper =>
    obtain ⟨rfl, rfl⟩ := Prod.mk.inj (Option.some.inj h)
    exact hupper
  case h_4 hlower hupper =>
    split at h
    · obtain ⟨rfl, rfl⟩ := Prod.mk.inj (Option.some.inj h)
      exact hlower
    · obtain ⟨rfl, rfl⟩ := Prod.mk.inj (Option.some.inj h)
      exact hupper

/-- The shortest digits of a value that is not zero are not zero. -/
theorem shortest_ne_zero (tieUp : Bool) {units : Nat} (h : units ≠ 0) :
    (shortest tieUp units).1 ≠ 0 := by
  have hfound : (((List.range' 1 17).findSome? (shortestWith? tieUp units)).getD (units, 0)).1 ≠
      0 := by
    cases hsome : (List.range' 1 17).findSome? (shortestWith? tieUp units) with
    | none => exact h
    | some found =>
      obtain ⟨digits, exponent⟩ := found
      obtain ⟨count, -, hcount⟩ := List.exists_of_findSome?_eq_some hsome
      rintro rfl
      exact absurd (readsBack_of_shortestWith? hcount)
        (Bool.eq_false_iff.1 (readsBack_zero h exponent))
  unfold shortest
  dsimp only
  intro hzero
  have hmul := Numeral.stripZeros_fst_mul 17
    ((List.range' 1 17).findSome? (shortestWith? tieUp units) |>.getD (units, 0)).1
  rw [hzero, Nat.zero_mul] at hmul
  exact hfound hmul.symm

end Binary64

namespace Json

/-! ## Runs of digits -/

/-- The text is digits, and at least one. -/
structure IsRun (run : List Char) : Prop where
  ne_nil : run ≠ []
  isDigit : ∀ c ∈ run, c.isDigit = true

/-- The text is what may stand before the point: digits that do not start with a zero, or a zero. -/
structure IsWhole (run : List Char) : Prop extends IsRun run where
  length_eq : run.head? = some '0' → run.length = 1

theorem isRun_digits (n : Nat) : IsRun (Numeral.digits n) :=
  ⟨Numeral.digits_ne_nil n, fun _ => Numeral.isDigit_of_mem_digits⟩

theorem isWhole_digits (n : Nat) : IsWhole (Numeral.digits n) := by
  refine ⟨isRun_digits n, fun hhead => ?_⟩
  rw [Numeral.eq_zero_of_head?_digits hhead, Numeral.digits_zero]
  rfl

theorem isWhole_zero : IsWhole ['0'] := isWhole_digits 0

variable {run rest whole fraction : List Char}

theorem IsRun.append (h : IsRun run) (hrest : ∀ c ∈ rest, c.isDigit = true) :
    IsRun (run ++ rest) := by
  refine ⟨List.append_ne_nil_of_left_ne_nil h.ne_nil rest, fun c hc => ?_⟩
  rcases List.mem_append.1 hc with hc | hc
  · exact h.isDigit c hc
  · exact hrest c hc

theorem isDigit_of_mem_zeros {width : Nat} {c : Char} (h : c ∈ List.replicate width '0') :
    c.isDigit = true := by
  rw [List.eq_of_mem_replicate h]
  decide

theorem IsRun.head (h : IsRun run) (rest : List Char) : ∀ c ∈ (run ++ rest).head?, c ≠ '-' := by
  obtain ⟨c, others, rfl⟩ := List.exists_cons_of_ne_nil h.ne_nil
  rintro _ ⟨⟩ rfl
  exact absurd (h.isDigit _ List.mem_cons_self) (by decide)

theorem digits1_of_isRun (h : IsRun run) (hrest : Numeral.EndsRun rest) :
    digits1 (run ++ rest) = some (run, rest) := by
  obtain ⟨c, others, rfl⟩ := List.exists_cons_of_ne_nil h.ne_nil
  unfold digits1
  rw [Numeral.span_append_of_isDigit h.isDigit hrest]

theorem wholeDigits_of_isWhole (h : IsWhole run) (hrest : Numeral.EndsRun rest) :
    wholeDigits (run ++ rest) = some (run, rest) := by
  have hlegal : ¬ (run.head? = some '0' ∧ run.length ≠ 1) := fun hzero => hzero.2 (h.length_eq hzero.1)
  unfold wholeDigits
  rw [digits1_of_isRun h.toIsRun hrest]
  exact if_neg hlegal

theorem power_of_isRun (sign : Int) (h : IsRun run) :
    power sign run = some (some (sign * Numeral.value run), []) := by
  have hdigits := digits1_of_isRun h (nofun : Numeral.EndsRun [])
  rw [List.append_nil] at hdigits
  unfold power
  rw [hdigits]
  rfl

/-! ## Numbers with a fraction or an exponent -/

/-- The text is a number without a sign that is read by scaling its digits. -/
def IsScaled (cs : List Char) : Prop :=
  (∀ c ∈ cs.head?, c ≠ '-') ∧ ∃ whole fraction exponent, ∀ negative,
    unsigned negative cs = some (scaledNumber negative whole fraction exponent, [])

theorem isScaled_point (hwhole : IsWhole whole) (hfraction : IsRun fraction) :
    IsScaled (whole ++ '.' :: fraction) := by
  have hpoint : Numeral.EndsRun ('.' :: fraction) := by
    rintro _ ⟨⟩
    decide
  have hread : fractionDigits ('.' :: fraction) = some (fraction, []) := by
    have hdigits := digits1_of_isRun hfraction (nofun : Numeral.EndsRun [])
    rwa [List.append_nil] at hdigits
  refine ⟨hwhole.head _, whole, fraction, 0, fun negative => ?_⟩
  unfold unsigned
  rw [wholeDigits_of_isWhole hwhole hpoint]
  dsimp only [Option.bind_eq_bind, Option.bind_some]
  rw [hread]
  dsimp only [Option.bind_some]
  rw [exponentPart_of_ne (by simp)]
  exact if_neg fun h => hfraction.ne_nil h.1

/-- An exponent with or without a sign, all of which is read. -/
theorem exists_exponentPart {sign : List Char} (hsign : sign = [] ∨ sign = ['+'] ∨ sign = ['-'])
    (hrun : IsRun run) :
    ∃ exponent, exponentPart ('e' :: (sign ++ run)) = some (some exponent, []) := by
  rcases hsign with rfl | rfl | rfl
  · refine ⟨1 * Numeral.value run, ?_⟩
    rw [exponentPart_cons (.inl rfl), List.nil_append]
    obtain ⟨c, others, rfl⟩ := List.exists_cons_of_ne_nil hrun.ne_nil
    have hc := hrun.isDigit c List.mem_cons_self
    split
    · rename_i heq
      rw [(List.cons.inj heq).1] at hc
      exact absurd hc (by decide)
    · rename_i heq
      rw [(List.cons.inj heq).1] at hc
      exact absurd hc (by decide)
    · exact power_of_isRun 1 hrun
  · exact ⟨_, (exponentPart_cons (.inl rfl) _).trans (power_of_isRun 1 hrun)⟩
  · exact ⟨_, (exponentPart_cons (.inl rfl) _).trans (power_of_isRun (-1) hrun)⟩

theorem isScaled_power {point sign : List Char} (hwhole : IsWhole whole)
    (hpoint : point = [] ∨ ∃ fraction, point = '.' :: fraction ∧ IsRun fraction)
    (hsign : sign = [] ∨ sign = ['+'] ∨ sign = ['-']) (hrun : IsRun run) :
    IsScaled (whole ++ (point ++ 'e' :: (sign ++ run))) := by
  obtain ⟨exponent, hexponent⟩ := exists_exponentPart hsign hrun
  have hmark : Numeral.EndsRun ('e' :: (sign ++ run)) := by
    rintro _ ⟨⟩
    decide
  have hends : Numeral.EndsRun (point ++ 'e' :: (sign ++ run)) := by
    rcases hpoint with rfl | ⟨fraction, rfl, -⟩
    · exact hmark
    · rintro _ ⟨⟩
      decide
  obtain ⟨fraction, hfraction⟩ : ∃ fraction,
      fractionDigits (point ++ 'e' :: (sign ++ run)) = some (fraction, 'e' :: (sign ++ run)) := by
    rcases hpoint with rfl | ⟨fraction, rfl, hrun⟩
    · refine ⟨[], fractionDigits_of_ne ?_⟩
      rintro _ ⟨⟩
      decide
    · exact ⟨fraction, digits1_of_isRun hrun hmark⟩
  refine ⟨hwhole.head _, whole, fraction, exponent, fun negative => ?_⟩
  unfold unsigned
  rw [wholeDigits_of_isWhole hwhole hends]
  dsimp only [Option.bind_eq_bind, Option.bind_some]
  rw [hfraction]
  dsimp only [Option.bind_some]
  rw [hexponent]
  exact if_neg fun h => nomatch h.2

/-! ## Layout -/

section Layout

variable {c : Char} {others : List Char} (hrun : IsRun (c :: others)) (hlead : c ≠ '0')

include hrun hlead

/-- A whole number: zeros and a point follow the digits. -/
theorem isScaled_zeros (width : Nat) :
    IsScaled (c :: others ++ List.replicate width '0' ++ ['.', '0']) := by
  refine isScaled_point ⟨hrun.append fun _ => isDigit_of_mem_zeros, fun hhead => ?_⟩ (isRun_digits 0)
  exact absurd (Option.some.inj hhead) hlead

/-- The point stands between two of the digits. -/
theorem isScaled_split {point : Nat} (hpos : 0 < point) (hlt : point < (c :: others).length) :
    IsScaled ((c :: others).take point ++ '.' :: (c :: others).drop point) := by
  refine isScaled_point ⟨⟨?_, ?_⟩, ?_⟩ ⟨?_, ?_⟩
  · rw [Ne, List.take_eq_nil_iff, not_or]
    exact ⟨Nat.ne_of_gt hpos, hrun.ne_nil⟩
  · exact fun d hd => hrun.isDigit d (List.mem_of_mem_take hd)
  · intro hhead
    rw [List.head?_take, if_neg (Nat.ne_of_gt hpos)] at hhead
    exact absurd (Option.some.inj hhead) hlead
  · rw [Ne, List.drop_eq_nil_iff, Nat.not_le]
    exact hlt
  · exact fun d hd => hrun.isDigit d (List.mem_of_mem_drop hd)

omit hlead in
/-- The digits stand behind the point and zeros. -/
theorem isScaled_places (width : Nat) :
    IsScaled ('0' :: '.' :: (List.replicate width '0' ++ c :: others)) := by
  refine isScaled_point isWhole_zero
    ⟨List.append_ne_nil_of_right_ne_nil _ hrun.ne_nil, fun d hd => ?_⟩
  rcases List.mem_append.1 hd with hd | hd
  · exact isDigit_of_mem_zeros hd
  · exact hrun.isDigit d hd

omit hlead in
/-- One digit before the point if there are more, and an exponent. -/
theorem isScaled_exponent {sign : List Char} (hsign : sign = [] ∨ sign = ['+'] ∨ sign = ['-'])
    (power : Nat) :
    IsScaled ((match c :: others with
      | lead :: rest@(_ :: _) => lead :: '.' :: rest
      | short => short) ++ 'e' :: sign ++ Numeral.digits power) := by
  rw [List.append_assoc, List.cons_append]
  have hwhole : IsWhole [c] := by
    refine ⟨⟨List.cons_ne_nil _ _, fun d hd => ?_⟩, fun _ => rfl⟩
    rw [List.mem_singleton.1 hd]
    exact hrun.isDigit c List.mem_cons_self
  cases others with
  | nil => exact isScaled_power hwhole (.inl rfl) hsign (isRun_digits power)
  | cons d others =>
    have hfraction : IsRun (d :: others) :=
      ⟨List.cons_ne_nil _ _, fun e he => hrun.isDigit e (List.mem_cons_of_mem _ he)⟩
    exact isScaled_power hwhole (.inr ⟨_, rfl, hfraction⟩) hsign (isRun_digits power)

end Layout

/-- Digits that are not zero are laid out as a number. -/
theorem isScaled_layout {digits : Nat} (h : digits ≠ 0) (exponent : Int) :
    IsScaled (FloatText.data.layout digits exponent) := by
  have hrun := isRun_digits digits
  obtain ⟨c, others, hdigits⟩ := List.exists_cons_of_ne_nil hrun.ne_nil
  have hlead : c ≠ '0' := by
    rintro rfl
    exact h (Numeral.eq_zero_of_head?_digits (by rw [hdigits]; rfl))
  unfold FloatText.layout
  dsimp only
  rw [hdigits] at hrun ⊢
  split
  · split
    · exact isScaled_zeros hrun hlead exponent.toNat
    · split
      · exact isScaled_split hrun hlead (by omega) (by omega)
      · exact isScaled_places hrun _
  · have hsign : ∀ power : Int, (if power < 0 then ['-'] else ['+']) = [] ∨
        (if power < 0 then ['-'] else ['+']) = ['+'] ∨
        (if power < 0 then ['-'] else ['+']) = ['-'] := by
      intro power
      split <;> decide
    exact isScaled_exponent hrun (hsign _) _

/-- All of the text of a finite value is read as one number. -/
theorem exists_number_floatChars {x : Binary64} (h : x.isFinite = true) :
    ∃ whole fraction exponent,
      number (floatChars x) = some (scaledNumber x.negative whole fraction exponent, []) := by
  cases x with
  | nan => exact nomatch h
  | infinity negative => exact nomatch h
  | finite negative units representable =>
    obtain ⟨cs, hcs, hhead, whole, fraction, exponent, hread⟩ : ∃ cs,
        floatChars (.finite negative units representable) =
          (if negative then ['-'] else []) ++ cs ∧ IsScaled cs := by
      unfold floatChars Binary64.text
      rw [if_pos h, String.toList_ofList]
      refine ⟨_, rfl, ?_⟩
      split
      · exact isScaled_point isWhole_zero (isRun_digits 0)
      · exact isScaled_layout (Binary64.shortest_ne_zero _ (by assumption)) _
    refine ⟨whole, fraction, exponent, ?_⟩
    rw [hcs]
    cases negative with
    | true => exact hread true
    | false => exact (number_of_ne hhead).trans (hread false)

end Json

end TradeGate
