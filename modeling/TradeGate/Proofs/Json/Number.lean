import TradeGate.Json.Printer
import TradeGate.Json.Reader
import TradeGate.Proofs.Number.Numeral

/-!
# Numbers at the front of a text

A number is read the same whatever follows it that cannot belong to it (`Json.number_append`), and a
whole number of 64 bits is read back (`Json.number_intChars`, `Json.wholeNumber_digits`). A number
with a fraction is read by rounding twice and need not be; `Binary64.Legible` says of one that it is.
-/

namespace TradeGate

namespace Json

-- Powers are those of the core library.
attribute [local instance (high)] instPowNat

open Text (Front)

/-- The text does not start with what could belong to a number. -/
def EndsNumber (cs : List Char) : Prop :=
  ∀ c ∈ cs.head?, c.isDigit = false ∧ c ≠ '.' ∧ c ≠ 'e' ∧ c ≠ 'E'

section Number

variable {cs run tail rest : List Char}

theorem EndsNumber.endsRun (h : EndsNumber cs) : Numeral.EndsRun cs := fun c hc => (h c hc).1

theorem digits1_append (h : digits1 cs = some (run, tail)) (hrest : EndsNumber rest) :
    digits1 (cs ++ rest) = some (run, tail ++ rest) := by
  unfold digits1 at h ⊢
  rcases hspan : Numeral.span cs with ⟨_ | ⟨c, front⟩, back⟩
  · rw [hspan] at h
    exact nomatch h
  · rw [hspan] at h
    obtain ⟨rfl, rfl⟩ := Prod.mk.inj (Option.some.inj h)
    rw [Numeral.span_append_right hspan hrest.endsRun]

theorem wholeDigits_append (h : wholeDigits cs = some (run, tail)) (hrest : EndsNumber rest) :
    wholeDigits (cs ++ rest) = some (run, tail ++ rest) := by
  unfold wholeDigits at h ⊢
  obtain ⟨⟨front, back⟩, hdigits, hzero⟩ := Option.bind_eq_some_iff.1 h
  rw [digits1_append hdigits hrest]
  dsimp only [Option.bind_eq_bind, Option.bind_some] at hzero ⊢
  split at hzero
  · exact nomatch hzero
  · rw [if_neg (by assumption)]
    obtain ⟨rfl, rfl⟩ := Prod.mk.inj (Option.some.inj hzero)
    rfl

theorem fractionDigits_of_ne (h : ∀ c ∈ cs.head?, c ≠ '.') : fractionDigits cs = some ([], cs) := by
  unfold fractionDigits
  split
  · exact absurd rfl (h '.' rfl)
  · rfl

theorem fractionDigits_append (h : fractionDigits cs = some (run, tail)) (hrest : EndsNumber rest) :
    fractionDigits (cs ++ rest) = some (run, tail ++ rest) := by
  cases cs with
  | nil =>
    obtain ⟨rfl, rfl⟩ := Prod.mk.inj (Option.some.inj h)
    exact fractionDigits_of_ne fun c hc => (hrest c hc).2.1
  | cons c cs =>
    by_cases hpoint : c = '.'
    · subst hpoint
      exact digits1_append h hrest
    · rw [fractionDigits_of_ne (by simpa using hpoint)] at h
      obtain ⟨rfl, rfl⟩ := Prod.mk.inj (Option.some.inj h)
      exact fractionDigits_of_ne (by simpa using hpoint)

theorem exponentPart_of_ne (h : ∀ c ∈ cs.head?, c ≠ 'e' ∧ c ≠ 'E') :
    exponentPart cs = some (none, cs) := by
  cases cs with
  | nil => rfl
  | cons c cs =>
    have hc := h c rfl
    rw [exponentPart, if_neg (by simp [hc.1, hc.2])]

/-- The digits of an exponent. -/
def power (sign : Int) : Front (Option Int) := fun cs =>
  (digits1 cs).map fun (run, rest) => (some (sign * Numeral.value run), rest)

theorem power_append {sign : Int} {exponent : Option Int} (h : power sign cs = some (exponent, tail))
    (hrest : EndsNumber rest) : power sign (cs ++ rest) = some (exponent, tail ++ rest) := by
  unfold power at h ⊢
  obtain ⟨⟨run, back⟩, hdigits, heq⟩ := Option.map_eq_some_iff.1 h
  obtain ⟨rfl, rfl⟩ := Prod.mk.inj heq
  rw [digits1_append hdigits hrest]
  rfl

theorem exponentPart_cons {mark : Char} (hmark : mark = 'e' ∨ mark = 'E') (cs : List Char) :
    exponentPart (mark :: cs) = match cs with
      | '-' :: cs => power (-1) cs
      | '+' :: cs => power 1 cs
      | cs => power 1 cs := by
  rw [exponentPart, if_pos hmark]
  rfl

theorem exponentPart_append {exponent : Option Int} (h : exponentPart cs = some (exponent, tail))
    (hrest : EndsNumber rest) : exponentPart (cs ++ rest) = some (exponent, tail ++ rest) := by
  cases cs with
  | nil =>
    obtain ⟨rfl, rfl⟩ := Prod.mk.inj (Option.some.inj h)
    exact exponentPart_of_ne fun c hc => (hrest c hc).2.2
  | cons mark cs =>
    by_cases hmark : mark = 'e' ∨ mark = 'E'
    · rw [exponentPart_cons hmark] at h
      rw [List.cons_append, exponentPart_cons hmark]
      cases cs with
      | nil => exact nomatch h
      | cons c cs =>
        rw [List.cons_append]
        split at h
        · rename_i heq
          obtain ⟨rfl, rfl⟩ := List.cons.inj heq
          exact power_append h hrest
        · rename_i heq
          obtain ⟨rfl, rfl⟩ := List.cons.inj heq
          exact power_append h hrest
        · rename_i hminus hplus
          split
          · rename_i heq
            obtain ⟨rfl, -⟩ := List.cons.inj heq
            exact absurd rfl (hminus cs)
          · rename_i heq
            obtain ⟨rfl, -⟩ := List.cons.inj heq
            exact absurd rfl (hplus cs)
          · exact power_append h hrest
    · rw [exponentPart, if_neg hmark] at h
      obtain ⟨rfl, rfl⟩ := Prod.mk.inj (Option.some.inj h)
      rw [List.cons_append, exponentPart, if_neg hmark]

/-- A number after its sign. -/
def unsigned (negative : Bool) : Front Json := fun cs => do
  let (whole, cs) ← wholeDigits cs
  let (fraction, cs) ← fractionDigits cs
  let (exponent, cs) ← exponentPart cs
  if fraction = [] ∧ exponent = none then some (wholeNumber negative whole, cs)
  else some (scaledNumber negative whole fraction (exponent.getD 0), cs)

theorem unsigned_append {negative : Bool} {value : Json}
    (h : unsigned negative cs = some (value, tail)) (hrest : EndsNumber rest) :
    unsigned negative (cs ++ rest) = some (value, tail ++ rest) := by
  unfold unsigned at h ⊢
  obtain ⟨⟨whole, afterWhole⟩, hwhole, h⟩ := Option.bind_eq_some_iff.1 h
  obtain ⟨⟨fraction, afterFraction⟩, hfraction, h⟩ := Option.bind_eq_some_iff.1 h
  obtain ⟨⟨exponent, afterExponent⟩, hexponent, h⟩ := Option.bind_eq_some_iff.1 h
  rw [wholeDigits_append hwhole hrest]
  dsimp only [Option.bind_eq_bind, Option.bind_some]
  rw [fractionDigits_append hfraction hrest]
  dsimp only [Option.bind_some]
  rw [exponentPart_append hexponent hrest]
  dsimp only [Option.bind_some] at h ⊢
  split at h
  · rw [if_pos (by assumption)]
    obtain ⟨rfl, rfl⟩ := Prod.mk.inj (Option.some.inj h)
    rfl
  · rw [if_neg (by assumption)]
    obtain ⟨rfl, rfl⟩ := Prod.mk.inj (Option.some.inj h)
    rfl

theorem number_minus (cs : List Char) : number ('-' :: cs) = unsigned true cs := rfl

theorem number_of_ne (h : ∀ c ∈ cs.head?, c ≠ '-') : number cs = unsigned false cs := by
  cases cs with
  | nil => rfl
  | cons c cs =>
    have hc : c ≠ '-' := h c rfl
    unfold number
    split
    rename_i heq
    split at heq
    · rename_i hcons
      exact absurd (List.cons.inj hcons).1 hc
    · obtain ⟨rfl, rfl⟩ := Prod.mk.inj heq
      rfl

/-- A number is read the same whatever follows it that cannot belong to it. -/
theorem number_append {value : Json} (h : number cs = some (value, tail))
    (hrest : EndsNumber rest) : number (cs ++ rest) = some (value, tail ++ rest) := by
  cases cs with
  | nil => exact nomatch h
  | cons c cs =>
    by_cases hminus : c = '-'
    · subst hminus
      exact unsigned_append h hrest
    · rw [number_of_ne (by simpa using hminus)] at h
      rw [List.cons_append, number_of_ne (by simpa using hminus)]
      exact unsigned_append h hrest

/-- A number starts with a minus sign or a digit. -/
theorem head?_of_number {value : Json} (h : number cs = some (value, tail)) :
    ∃ c, cs.head? = some c ∧ (c = '-' ∨ c.isDigit = true) := by
  cases cs with
  | nil => exact nomatch h
  | cons c cs =>
    refine ⟨c, rfl, ?_⟩
    by_cases hminus : c = '-'
    · exact .inl hminus
    · right
      rw [number_of_ne (by simpa using hminus)] at h
      by_contra hdigit
      have hspan : Numeral.span (c :: cs) = ([], c :: cs) := by
        simp [Numeral.span, hdigit]
      have hnone : unsigned false (c :: cs) = none := by
        simp [unsigned, wholeDigits, digits1, hspan]
      rw [hnone] at h
      exact nomatch h

end Number

theorem unsigned_digits (negative : Bool) (n : Nat) :
    unsigned negative (Numeral.digits n) =
      some (wholeNumber negative (Numeral.digits n), []) := by
  have hspan : Numeral.span (Numeral.digits n) = (Numeral.digits n, []) := by
    have hend : Numeral.EndsRun [] := by simp [Numeral.EndsRun]
    have hrun : ∀ c ∈ Numeral.digits n, c.isDigit = true := fun c => Numeral.isDigit_of_mem_digits
    have happend := Numeral.span_append_of_isDigit hrun hend
    rwa [List.append_nil] at happend
  have hdigits : digits1 (Numeral.digits n) = some (Numeral.digits n, []) := by
    unfold digits1
    rw [hspan]
    split
    · rename_i hnil
      exact absurd (Prod.mk.inj hnil).1 (Numeral.digits_ne_nil n)
    · rfl
  have hzero : ¬ ((Numeral.digits n).head? = some '0' ∧ (Numeral.digits n).length ≠ 1) := by
    rintro ⟨hhead, hlength⟩
    rw [Numeral.eq_zero_of_head?_digits hhead, Numeral.digits_zero] at hlength
    exact hlength rfl
  simp [unsigned, wholeDigits, hdigits, hzero, fractionDigits, exponentPart]

/-- All of the text of a whole number is read as one number. -/
theorem number_intChars (n : Int) : number (intChars n) =
    some (wholeNumber (n < 0) (Numeral.digits n.natAbs), []) := by
  unfold intChars
  by_cases hnegative : n < 0
  · rw [if_pos hnegative, List.singleton_append, number_minus, unsigned_digits,
      decide_eq_true hnegative]
  · have hhead : ∀ c ∈ (Numeral.digits n.natAbs).head?, c ≠ '-' := by
      rintro c hc rfl
      exact absurd (Numeral.isDigit_of_mem_digits (List.mem_of_mem_head? hc)) (by decide)
    rw [if_neg hnegative, List.nil_append, number_of_ne hhead, unsigned_digits,
      decide_eq_false hnegative]

/-- A whole number of 64 bits is read back. -/
theorem wholeNumber_digits {n : Int} (hlow : -2 ^ (63 : Nat) ≤ n) (hhigh : n < 2 ^ (64 : Nat)) :
    wholeNumber (n < 0) (Numeral.digits n.natAbs) = int n := by
  unfold wholeNumber
  rw [Numeral.value_digits]
  dsimp only
  by_cases hnegative : n < 0
  · have hne : n.natAbs ≠ 0 := by omega
    have hle : n.natAbs ≤ 2 ^ (63 : Nat) := by omega
    have habs : -(n.natAbs : Int) = n := by omega
    rw [decide_eq_true hnegative, if_pos rfl, if_neg hne, if_pos hle, habs]
  · have hlt : n.natAbs < 2 ^ (64 : Nat) := by omega
    have habs : (n.natAbs : Int) = n := by omega
    rw [decide_eq_false hnegative, if_neg Bool.false_ne_true, if_pos hlt, habs]

end Json

/-- The number is finite and its text is read back. -/
def Binary64.Legible (x : Binary64) : Prop :=
  x.isFinite = true ∧ Json.number (Json.floatChars x) = some (.float x, [])

theorem Binary64.legible_iff (x : Binary64) : x.Legible ↔ x.isFinite = true ∧
    (match Json.number (Json.floatChars x) with
      | some (.float y, []) => decide (y = x)
      | _ => false) = true := by
  unfold Binary64.Legible
  apply and_congr_right
  intro _
  constructor
  · intro h
    rw [h]
    exact decide_eq_true rfl
  · intro h
    split at h
    · rename_i y hread
      rw [hread, of_decide_eq_true h]
    · exact nomatch h

instance (x : Binary64) : Decidable x.Legible := decidable_of_iff' _ x.legible_iff

end TradeGate
