import TradeGate.Json.Printer

/-!
# Written values are lines

A value that is written on one line holds no line feed (`Json.newline_not_mem_chars`): texts escape
theirs, and nothing else has any.
-/

namespace TradeGate

theorem Numeral.newline_not_mem_digits (n : Nat) : '\n' ∉ digits n := by
  intro h
  have hdigit := Nat.isDigit_of_mem_toDigits (by decide) (by decide) h
  exact absurd hdigit (by decide)

/-- Whatever the digits, no layout breaks the line. -/
theorem FloatText.newline_not_mem_layout (style : FloatText) (digits : Nat) (exponent : Int) :
    '\n' ∉ style.layout digits exponent := by
  have hdigits := Numeral.newline_not_mem_digits
  have hwritten := hdigits digits
  unfold layout
  generalize Numeral.digits digits = written at hwritten ⊢
  dsimp only
  split
  · split
    · have hzero : '\n' ∉ List.replicate exponent.toNat '0' := by simp [List.mem_replicate]
      split <;> simp [hwritten, hzero]
    · split
      · have htake : ∀ n, '\n' ∉ written.take n := fun n h => hwritten (List.mem_of_mem_take h)
        have hdrop : ∀ n, '\n' ∉ written.drop n := fun n h => hwritten (List.mem_of_mem_drop h)
        simp [htake, hdrop]
      · simp [hwritten, List.mem_replicate]
  · have hsign : ∀ power : Int, '\n' ∉ (if power < 0 then ['-']
        else if style.signedExponent then ['+'] else []) := by
      intro power
      split
      · decide
      · split <;> decide
    simp only [List.mem_append, List.mem_cons, not_or]
    refine ⟨⟨?mantissa, by decide, hsign _⟩, hdigits _⟩
    -- the point stands between the first digit and the rest, if there is a rest
    split
    · simp only [List.mem_cons] at hwritten ⊢
      rintro (h | h | h)
      · exact hwritten (Or.inl h)
      · exact absurd h (by decide)
      · exact hwritten (Or.inr h)
    · exact hwritten

namespace Json

theorem newline_not_mem_escape (c : Char) : '\n' ∉ escape c := by
  have hdigit : ∀ n, '\n' ≠ hexDigit n := by
    intro n
    have hall : ∀ k < 16, '\n' ≠ Nat.digitChar k := by decide
    exact hall (n % 16) (Nat.mod_lt _ (by decide))
  unfold escape
  repeat' split
  all_goals simp_all [eq_comm]

theorem newline_not_mem_quoted (s : String) : '\n' ∉ quoted s := by
  unfold quoted
  simp [newline_not_mem_escape]

theorem newline_not_mem_intChars (n : Int) : '\n' ∉ intChars n := by
  unfold intChars
  split <;> simp [Numeral.newline_not_mem_digits]

theorem newline_not_mem_floatChars (x : Binary64) : '\n' ∉ floatChars x := by
  unfold floatChars
  cases x with
  | nan => decide
  | infinity negative =>
    show '\n' ∉ "null".toList
    decide
  | finite negative units representable =>
    show '\n' ∉ ((Binary64.finite negative units representable).text FloatText.data).toList
    unfold Binary64.text
    have hsign : '\n' ∉ (if negative then ['-'] else []) := by
      split <;> decide
    rw [String.toList_ofList, List.mem_append, not_or]
    refine ⟨hsign, ?_⟩
    split
    · decide
    · exact FloatText.newline_not_mem_layout _ _ _

mutual

theorem newline_not_mem_chars : (value : Json) → '\n' ∉ value.chars
  | null => by decide
  | bool true => by decide
  | bool false => by decide
  | int n => newline_not_mem_intChars n
  | float x => newline_not_mem_floatChars x
  | str s => newline_not_mem_quoted s
  | arr items => by
    rw [chars]
    simp [newline_not_mem_itemChars items]
  | obj members => by
    rw [chars]
    simp [newline_not_mem_memberChars members]
  | malformed => by decide

theorem newline_not_mem_itemChars : (items : List Json) → '\n' ∉ itemChars items
  | [] => List.not_mem_nil
  | [item] => newline_not_mem_chars item
  | item :: next :: rest => by
    rw [itemChars]
    simp [newline_not_mem_chars item, newline_not_mem_itemChars (next :: rest)]

theorem newline_not_mem_memberChars :
    (members : List (String × Json)) → '\n' ∉ memberChars members
  | [] => List.not_mem_nil
  | [(name, value)] => by
    rw [memberChars]
    simp [newline_not_mem_quoted, newline_not_mem_chars value]
  | (name, value) :: next :: rest => by
    rw [memberChars]
    simp [newline_not_mem_quoted, newline_not_mem_chars value,
      newline_not_mem_memberChars (next :: rest)]

end

/-- A written value is one line. -/
theorem newline_not_mem_compact (value : Json) : '\n' ∉ value.compact.toList := by
  unfold compact
  rw [String.toList_ofList]
  exact newline_not_mem_chars value

end Json

end TradeGate
