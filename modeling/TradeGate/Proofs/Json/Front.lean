import TradeGate.Proofs.Json.Reader
import TradeGate.Text.Blank

/-!
# What reading a number or a text uses

A reader uses the front of a text and returns the rest. What it uses of a number or of a quoted text
ends with a character that is not blank, and from that alone it comes to the same result, whatever
follows: behind a number, whatever cannot belong to it (`Json.used_of_number`); behind the closing
quote, anything (`Json.used_of_textBody`).
-/

namespace TradeGate

namespace Json

open Text (isBlank)

/-- The text ends with a character that is not blank. -/
def Closed (used : List Char) : Prop := ∃ c, used.getLast? = some c ∧ isBlank c = false

theorem Closed.append {used : List Char} (h : Closed used) (front : List Char) :
    Closed (front ++ used) := by
  obtain ⟨c, hlast, hc⟩ := h
  exact ⟨c, by rw [List.getLast?_append, hlast]; rfl, hc⟩

theorem Closed.cons {used : List Char} (h : Closed used) (c : Char) : Closed (c :: used) :=
  h.append [c]

theorem closed_singleton {c : Char} (h : isBlank c = false) : Closed [c] := ⟨c, rfl, h⟩

theorem Closed.ne_nil {used : List Char} (h : Closed used) : used ≠ [] := by
  rintro rfl
  obtain ⟨c, hlast, -⟩ := h
  exact nomatch hlast

/-! ## Numbers -/

section Number

variable {cs run rest tail : List Char}

theorem isBlank_of_isDigit {c : Char} (h : c.isDigit = true) : isBlank c = false := by
  have hrange : 48 ≤ c.toNat ∧ c.toNat ≤ 57 := Char.isDigit_iff_toNat.1 h
  by_contra hblank
  simp only [isBlank, Text.blankRanges, List.any_cons, List.any_nil, Bool.not_eq_false,
    Bool.or_eq_true, Bool.and_eq_true, decide_eq_true_eq, Bool.or_false] at hblank
  omega

/-- Digits that are read end what is used, and are read likewise whatever follows but a digit. -/
theorem used_of_digits1 (h : digits1 cs = some (run, tail)) :
    cs = run ++ tail ∧ Closed run ∧
      ∀ {rest}, Numeral.EndsRun rest → digits1 (run ++ rest) = some (run, rest) := by
  unfold digits1 at h
  rcases hspan : Numeral.span cs with ⟨_ | ⟨c, front⟩, back⟩
  · rw [hspan] at h
    exact nomatch h
  · rw [hspan] at h
    obtain ⟨rfl, rfl⟩ := Prod.mk.inj (Option.some.inj h)
    have hcs := Numeral.span_append cs
    have hdigits : ∀ d ∈ c :: front, d.isDigit = true := fun d hd =>
      Numeral.isDigit_of_mem_span (by rwa [hspan])
    rw [hspan] at hcs
    refine ⟨hcs.symm, ⟨_, List.getLast?_eq_some_getLast (List.cons_ne_nil c front),
      isBlank_of_isDigit (hdigits _ (List.getLast_mem _))⟩, fun hrest => ?_⟩
    unfold digits1
    rw [Numeral.span_append_of_isDigit hdigits hrest]

theorem used_of_wholeDigits (h : wholeDigits cs = some (run, tail)) :
    cs = run ++ tail ∧ Closed run ∧
      ∀ {rest}, Numeral.EndsRun rest → wholeDigits (run ++ rest) = some (run, rest) := by
  unfold wholeDigits at h
  obtain ⟨⟨front, back⟩, hdigits, hzero⟩ := Option.bind_eq_some_iff.1 h
  dsimp only at hzero
  split at hzero
  · exact nomatch hzero
  · rename_i hlegal
    obtain ⟨rfl, rfl⟩ := Prod.mk.inj (Option.some.inj hzero)
    obtain ⟨hcs, hclosed, hread⟩ := used_of_digits1 hdigits
    refine ⟨hcs, hclosed, fun hrest => ?_⟩
    unfold wholeDigits
    rw [hread hrest]
    exact if_neg hlegal

/-- What is used of a part that may be missing: nothing, or something that starts with a mark. -/
def Marked (mark : Char → Prop) (used : List Char) : Prop :=
  used = [] ∨ (∃ c ∈ used.head?, mark c) ∧ Closed used

theorem Marked.closed_append {mark : Char → Prop} {used front : List Char} (h : Marked mark used)
    (hfront : Closed front) : Closed (front ++ used) := by
  rcases h with rfl | ⟨-, hclosed⟩
  · rwa [List.append_nil]
  · exact hclosed.append front

/-- What starts with a marked part starts with its mark or as what follows the part. -/
theorem Marked.head?_append {mark : Char → Prop} {used : List Char} (h : Marked mark used)
    {rest : List Char} {c : Char} (hc : c ∈ (used ++ rest).head?) : mark c ∨ c ∈ rest.head? := by
  rcases h with rfl | ⟨⟨d, hd, hmark⟩, -⟩
  · exact .inr hc
  · rw [List.head?_append, hd] at hc
    obtain rfl := Option.some.inj hc
    exact .inl hmark

theorem used_of_fractionDigits (h : fractionDigits cs = some (run, tail)) :
    ∃ used, cs = used ++ tail ∧ Marked (· = '.') used ∧
      ∀ {rest}, (∀ c ∈ rest.head?, c.isDigit = false ∧ c ≠ '.') →
        fractionDigits (used ++ rest) = some (run, rest) := by
  have hmissing : fractionDigits cs = some ([], cs) → ∃ used, cs = used ++ tail ∧
      Marked (· = '.') used ∧ ∀ {rest}, (∀ c ∈ rest.head?, c.isDigit = false ∧ c ≠ '.') →
        fractionDigits (used ++ rest) = some (run, rest) := by
    intro hnone
    obtain ⟨rfl, rfl⟩ := Prod.mk.inj (Option.some.inj (h.symm.trans hnone))
    exact ⟨[], rfl, .inl rfl, fun hrest => fractionDigits_of_ne fun c hc => (hrest c hc).2⟩
  cases cs with
  | nil => exact hmissing rfl
  | cons c cs =>
    by_cases hpoint : c = '.'
    · subst hpoint
      obtain ⟨rfl, hclosed, hread⟩ := used_of_digits1 (show digits1 cs = some (run, tail) from h)
      exact ⟨'.' :: run, rfl, .inr ⟨⟨_, rfl, rfl⟩, hclosed.cons _⟩,
        fun hrest => hread fun c hc => (hrest c hc).1⟩
    · exact hmissing (fractionDigits_of_ne (by simpa using hpoint))

theorem used_of_power {sign : Int} {exponent : Option Int}
    (h : power sign cs = some (exponent, tail)) :
    ∃ run, cs = run ++ tail ∧ Closed run ∧
      ∀ {rest}, EndsNumber rest → power sign (run ++ rest) = some (exponent, rest) := by
  unfold power at h
  obtain ⟨⟨run, back⟩, hdigits, heq⟩ := Option.map_eq_some_iff.1 h
  obtain ⟨rfl, rfl⟩ := Prod.mk.inj heq
  obtain ⟨hcs, hclosed, hread⟩ := used_of_digits1 hdigits
  refine ⟨run, hcs, hclosed, fun hrest => ?_⟩
  unfold power
  rw [hread hrest.endsRun]
  rfl

theorem used_of_exponentPart {exponent : Option Int}
    (h : exponentPart cs = some (exponent, tail)) :
    ∃ used, cs = used ++ tail ∧ Marked (fun c => c = 'e' ∨ c = 'E') used ∧
      ∀ {rest}, EndsNumber rest → exponentPart (used ++ rest) = some (exponent, rest) := by
  cases cs with
  | nil =>
    obtain ⟨rfl, rfl⟩ := Prod.mk.inj (Option.some.inj h)
    exact ⟨[], rfl, .inl rfl, fun hrest => exponentPart_of_ne fun c hc => (hrest c hc).2.2⟩
  | cons mark cs =>
    by_cases hmark : mark = 'e' ∨ mark = 'E'
    · have hused : ∀ {used : List Char}, Closed used →
          Marked (fun c => c = 'e' ∨ c = 'E') (mark :: used) := fun hclosed =>
        .inr ⟨⟨_, rfl, hmark⟩, hclosed.cons _⟩
      rw [exponentPart_cons hmark] at h
      split at h
      · obtain ⟨run, rfl, hclosed, hread⟩ := used_of_power h
        refine ⟨mark :: '-' :: run, rfl, hused (hclosed.cons _), fun hrest => ?_⟩
        rw [List.cons_append, exponentPart_cons hmark]
        exact hread hrest
      · obtain ⟨run, rfl, hclosed, hread⟩ := used_of_power h
        refine ⟨mark :: '+' :: run, rfl, hused (hclosed.cons _), fun hrest => ?_⟩
        rw [List.cons_append, exponentPart_cons hmark]
        exact hread hrest
      · rename_i hminus hplus
        obtain ⟨run, rfl, hclosed, hread⟩ := used_of_power h
        refine ⟨mark :: run, rfl, hused hclosed, fun hrest => ?_⟩
        obtain ⟨c, run, rfl⟩ := List.exists_cons_of_ne_nil hclosed.ne_nil
        rw [List.cons_append, exponentPart_cons hmark, List.cons_append]
        split
        · rename_i heq
          obtain ⟨rfl, -⟩ := List.cons.inj heq
          exact absurd rfl (hminus (run ++ tail))
        · rename_i heq
          obtain ⟨rfl, -⟩ := List.cons.inj heq
          exact absurd rfl (hplus (run ++ tail))
        · exact hread hrest
    · have hnone : exponentPart (mark :: cs) = some (none, mark :: cs) := by
        rw [exponentPart, if_neg hmark]
      obtain ⟨rfl, rfl⟩ := Prod.mk.inj (Option.some.inj (h.symm.trans hnone))
      exact ⟨[], rfl, .inl rfl, fun hrest => exponentPart_of_ne fun c hc => (hrest c hc).2.2⟩

theorem used_of_unsigned {negative : Bool} {value : Json}
    (h : unsigned negative cs = some (value, tail)) :
    ∃ used, cs = used ++ tail ∧ Closed used ∧
      ∀ {rest}, EndsNumber rest → unsigned negative (used ++ rest) = some (value, rest) := by
  unfold unsigned at h
  obtain ⟨⟨whole, afterWhole⟩, hwhole, h⟩ := Option.bind_eq_some_iff.1 h
  obtain ⟨⟨fraction, afterFraction⟩, hfraction, h⟩ := Option.bind_eq_some_iff.1 h
  obtain ⟨⟨exponent, afterExponent⟩, hexponent, hvalue⟩ := Option.bind_eq_some_iff.1 h
  obtain ⟨rfl, hclosed, hreadWhole⟩ := used_of_wholeDigits hwhole
  obtain ⟨point, rfl, hpoint, hreadFraction⟩ := used_of_fractionDigits hfraction
  obtain ⟨power, rfl, hpower, hreadExponent⟩ := used_of_exponentPart hexponent
  have hresult : ∀ rest : List Char, (if fraction = [] ∧ exponent = none then
      some (wholeNumber negative whole, rest)
    else some (scaledNumber negative whole fraction (exponent.getD 0), rest)) =
      some (value, rest) ∧ afterExponent = tail := by
    intro rest
    dsimp only at hvalue
    split at hvalue
    · obtain ⟨rfl, rfl⟩ := Prod.mk.inj (Option.some.inj hvalue)
      exact ⟨if_pos (by assumption), rfl⟩
    · obtain ⟨rfl, rfl⟩ := Prod.mk.inj (Option.some.inj hvalue)
      exact ⟨if_neg (by assumption), rfl⟩
  obtain rfl := (hresult []).2
  refine ⟨whole ++ (point ++ power), by simp, ?_, fun {rest} hrest => ?_⟩
  · rw [← List.append_assoc]
    exact hpower.closed_append (hpoint.closed_append hclosed)
  · -- each part is followed by the mark of a later one, or by what ends a number
    have hafterPoint : ∀ c ∈ (power ++ rest).head?, c.isDigit = false ∧ c ≠ '.' := by
      intro c hc
      rcases hpower.head?_append hc with (rfl | rfl) | hc
      · decide
      · decide
      · exact ⟨(hrest c hc).1, (hrest c hc).2.1⟩
    have hafterWhole : Numeral.EndsRun (point ++ (power ++ rest)) := by
      intro c hc
      rcases hpoint.head?_append hc with rfl | hc
      · decide
      · exact (hafterPoint c hc).1
    unfold unsigned
    rw [List.append_assoc, List.append_assoc, hreadWhole hafterWhole]
    simp only [Option.bind_eq_bind, Option.bind_some]
    rw [hreadFraction hafterPoint]
    simp only [Option.bind_some]
    rw [hreadExponent hrest]
    exact (hresult rest).1

/-- A number is read the same from what is used of its text, whatever follows that ends it. -/
theorem used_of_number {value : Json} (h : number cs = some (value, tail)) :
    ∃ used, cs = used ++ tail ∧ Closed used ∧
      ∀ {rest}, EndsNumber rest → number (used ++ rest) = some (value, rest) := by
  cases cs with
  | nil => exact nomatch h
  | cons c cs =>
    by_cases hminus : c = '-'
    · subst hminus
      obtain ⟨used, rfl, hclosed, hread⟩ := used_of_unsigned ((number_minus cs).symm.trans h)
      exact ⟨'-' :: used, rfl, hclosed.cons _, hread⟩
    · rw [number_of_ne (by simpa using hminus)] at h
      obtain ⟨used, hcs, hclosed, hread⟩ := used_of_unsigned h
      refine ⟨used, hcs, hclosed, fun {rest} hrest => ?_⟩
      obtain ⟨d, used, rfl⟩ := List.exists_cons_of_ne_nil hclosed.ne_nil
      obtain rfl := (List.cons.inj hcs).1
      rw [number_of_ne (by simpa using hminus)]
      exact hread hrest

end Number

/-! ## Texts -/

section Text

variable {cs rest : List Char}

theorem used_of_hexUnit {unit : Nat} (h : hexUnit cs = some (unit, rest)) :
    ∃ used, cs = used ++ rest ∧ ∀ rest, hexUnit (used ++ rest) = some (unit, rest) := by
  unfold hexUnit at h
  split at h
  · rename_i a b c d tail
    simp only [Option.bind_eq_bind, Option.bind_eq_some_iff] at h
    obtain ⟨x, hx, y, hy, z, hz, w, hw, heq⟩ := h
    obtain ⟨hunit, rfl⟩ := Prod.mk.inj (Option.some.inj heq)
    refine ⟨[a, b, c, d], rfl, fun rest => ?_⟩
    simp only [List.cons_append, List.nil_append, hexUnit, hx, hy, hz, hw, Option.bind_eq_bind,
      Option.bind_some, hunit]
  · cases h

/-- The units of a text are read from what is used up to the quote, whatever follows. -/
theorem used_of_textUnits {fuel : Nat} {units : List TextUnit}
    (h : textUnits fuel cs = some (units, rest)) :
    ∃ used, cs = used ++ rest ∧ Closed used ∧ ∀ {fuel rest}, used.length ≤ fuel →
      textUnits fuel (used ++ rest) = some (units, rest) := by
  induction fuel generalizing cs units with
  | zero =>
    rw [textUnits] at h
    cases h
  | succ fuel ih =>
    unfold textUnits at h
    split at h
    · cases h
    · -- the closing quote
      obtain ⟨rfl, rfl⟩ := Prod.mk.inj (Option.some.inj h)
      refine ⟨['"'], rfl, closed_singleton (by decide), fun {fuel rest} hfuel => ?_⟩
      obtain ⟨fuel, rfl⟩ := Nat.exists_eq_add_one_of_ne_zero (Nat.ne_of_gt hfuel)
      rfl
    · -- four hexadecimal digits
      obtain ⟨⟨unit, afterUnit⟩, hunit, h⟩ := Option.bind_eq_some_iff.1 h
      obtain ⟨⟨others, afterOthers⟩, hothers, heq⟩ := Option.bind_eq_some_iff.1 h
      obtain ⟨rfl, rfl⟩ := Prod.mk.inj (Option.some.inj heq)
      obtain ⟨digits, rfl, hdigits⟩ := used_of_hexUnit hunit
      obtain ⟨used, rfl, hclosed, hread⟩ := ih hothers
      refine ⟨'\\' :: 'u' :: (digits ++ used), by simp, ((hclosed.append _).cons _).cons _,
        fun {fuel rest} hfuel => ?_⟩
      simp only [List.length_cons, List.length_append] at hfuel
      obtain ⟨fuel, rfl⟩ := Nat.exists_eq_add_one_of_ne_zero (by omega : fuel ≠ 0)
      simp only [List.cons_append, List.append_assoc]
      rw [textUnits, hdigits]
      simp only [Option.bind_eq_bind, Option.bind_some]
      rw [hread (by omega)]
      rfl
    · -- a letter behind a backslash
      rename_i letter tail hletter
      obtain ⟨c, hc, h⟩ := Option.bind_eq_some_iff.1 h
      obtain ⟨⟨others, afterOthers⟩, hothers, heq⟩ := Option.bind_eq_some_iff.1 h
      obtain ⟨rfl, rfl⟩ := Prod.mk.inj (Option.some.inj heq)
      obtain ⟨used, rfl, hclosed, hread⟩ := ih hothers
      refine ⟨'\\' :: letter :: used, by simp, (hclosed.cons _).cons _, fun {fuel rest} hfuel => ?_⟩
      simp only [List.length_cons] at hfuel
      obtain ⟨fuel, rfl⟩ := Nat.exists_eq_add_one_of_ne_zero (by omega : fuel ≠ 0)
      rw [List.cons_append, List.cons_append, textUnits_letter _ _ hc, hread (by omega)]
      rfl
    · -- a character that stands for itself
      rename_i c tail hquote _ _
      split at h
      · cases h
      · rename_i hlegal
        rw [not_or] at hlegal
        obtain ⟨⟨others, afterOthers⟩, hothers, heq⟩ := Option.bind_eq_some_iff.1 h
        obtain ⟨rfl, rfl⟩ := Prod.mk.inj (Option.some.inj heq)
        obtain ⟨used, rfl, hclosed, hread⟩ := ih hothers
        refine ⟨c :: used, by simp, hclosed.cons _, fun {fuel rest} hfuel => ?_⟩
        simp only [List.length_cons] at hfuel
        obtain ⟨fuel, rfl⟩ := Nat.exists_eq_add_one_of_ne_zero (by omega : fuel ≠ 0)
        rw [List.cons_append, textUnits_plain _ _ (by simpa using hquote) hlegal.2
          (Nat.not_lt.1 hlegal.1), hread (by omega)]
        rfl

theorem used_of_textBody {s : Option String} (h : textBody cs = some (s, rest)) :
    ∃ used, cs = used ++ rest ∧ Closed used ∧ ∀ {rest}, textBody (used ++ rest) = some (s, rest) := by
  unfold textBody at h
  obtain ⟨⟨units, after⟩, hunits, heq⟩ := Option.bind_eq_some_iff.1 h
  obtain ⟨rfl, rfl⟩ := Prod.mk.inj (Option.some.inj heq)
  obtain ⟨used, hcs, hclosed, hread⟩ := used_of_textUnits hunits
  refine ⟨used, hcs, hclosed, fun {rest} => ?_⟩
  unfold textBody
  rw [hread (by rw [List.length_append]; omega)]
  rfl

end Text

end Json

end TradeGate
