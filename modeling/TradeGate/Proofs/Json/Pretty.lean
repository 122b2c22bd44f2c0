import TradeGate.Proofs.Json.Uses

/-!
# Values over several lines

A value is read from the lines that `Json.pretty` writes as it is from its one line
(`Json.readChars?_prettyChars`): the line ends and the blanks before a line stand where blanks are
passed over. The induction goes over the value; what follows the first
item or member is read by `elements_prettyItems` and `members_prettyMembers`, behind any blanks.
-/

namespace TradeGate

namespace Json

variable {spaces : List Char}

theorem all_isSpace_newline (level : Nat) : (newline level).all isSpace = true := by
  simp [newline, isSpace]

theorem value_blank (fuel : Nat) (cs : List Char) : value fuel (' ' :: cs) = value fuel cs :=
  value_spaces (by decide : [' '].all isSpace = true) fuel cs

theorem members_spaces (h : spaces.all isSpace = true) (fuel : Nat) (cs : List Char) :
    members fuel (spaces ++ cs) = members fuel cs := by
  cases fuel with
  | zero => rfl
  | succ fuel => rw [members, members, skipSpace_append h]

/-- Over several lines a value starts as it does on one line. -/
theorem head?_prettyChars (level : Nat) (value : Json) :
    (prettyChars level value).head? = value.chars.head? := by
  cases value with
  | bool b => cases b <;> rw [prettyChars, chars]
  | arr items => cases items <;> rw [prettyChars, chars] <;> rfl
  | obj members =>
    cases members with
    | nil => rw [prettyChars, chars]; rfl
    | cons member others =>
      obtain ⟨name, value⟩ := member
      rw [prettyChars, chars]
      rfl
  | null | int | float | str | malformed => rw [prettyChars, chars]

theorem exists_cons_prettyChars (level : Nat) (value : Json) :
    ∃ c cs, prettyChars level value = c :: cs ∧ isSpace c = false ∧ c ≠ ']' := by
  obtain ⟨c, cs, hchars, hc⟩ := exists_cons_chars value
  have hhead := head?_prettyChars level value
  rw [hchars] at hhead
  obtain ⟨tail, htail⟩ := List.head?_eq_some_iff.1 hhead
  exact ⟨c, tail, htail, hc⟩

theorem endsNumber_prettyItems (hspaces : spaces.all isSpace = true) (level : Nat)
    (others : List Json) (rest : List Char) :
    EndsNumber (prettyItems level others ++ (spaces ++ ']' :: rest)) := by
  cases others with
  | nil =>
    rw [prettyItems, List.nil_append]
    exact endsNumber_spaces hspaces (endsNumber_cons (.inr (.inl rfl)) _)
  | cons next others =>
    rw [prettyItems]
    exact endsNumber_cons (.inl rfl) _

theorem endsNumber_prettyMembers (hspaces : spaces.all isSpace = true) (level : Nat)
    (others : List (String × Json)) (rest : List Char) :
    EndsNumber (prettyMembers level others ++ (spaces ++ '\x7d' :: rest)) := by
  cases others with
  | nil =>
    rw [prettyMembers, List.nil_append]
    exact endsNumber_spaces hspaces (endsNumber_cons (.inr (.inr rfl)) _)
  | cons next others =>
    obtain ⟨name, value⟩ := next
    rw [prettyMembers]
    exact endsNumber_cons (.inl rfl) _

mutual

/-- A value over several lines is read, whatever follows it that cannot belong to a number. -/
theorem value_prettyChars : (item : Json) → ∀ {level fuel : Nat},
    (prettyChars level item).length ≤ fuel → ∀ {rest : List Char}, EndsNumber rest →
    value fuel (prettyChars level item ++ rest) = some (item.reread, rest)
  | .null, _, _, hfuel, _, hrest => value_chars .null hfuel hrest
  | .bool b, _, _, hfuel, _, hrest => by
    cases b with
    | true => exact value_chars (.bool true) hfuel hrest
    | false => exact value_chars (.bool false) hfuel hrest
  | .int n, _, _, hfuel, _, hrest => value_chars (.int n) hfuel hrest
  | .float x, _, _, hfuel, _, hrest => value_chars (.float x) hfuel hrest
  | .str s, _, _, hfuel, _, hrest => value_chars (.str s) hfuel hrest
  | .arr [], _, _, hfuel, _, hrest => value_chars (.arr []) hfuel hrest
  | .arr (item :: others), level, fuel, hfuel, rest, _ => by
    rw [prettyChars] at hfuel ⊢
    simp only [List.length_cons, List.length_append] at hfuel
    obtain ⟨fuel, rfl⟩ := Nat.exists_eq_add_one_of_ne_zero (by omega : fuel ≠ 0)
    obtain ⟨fuel, rfl⟩ := Nat.exists_eq_add_one_of_ne_zero (by omega : fuel ≠ 0)
    have hclosing := all_isSpace_newline level
    have hitem := value_prettyChars item
      (show (prettyChars (level + 1) item).length ≤ fuel by omega)
      (endsNumber_prettyItems hclosing (level + 1) others rest)
    have hitems := elements_prettyItems others (by omega) hclosing hitem
    obtain ⟨c, cs, hchars, hspace, hclosed⟩ := exists_cons_prettyChars (level + 1) item
    rw [hchars, List.cons_append] at hitems
    simp only [List.cons_append, List.append_assoc, List.nil_append, hchars]
    rw [value_bracket (skipSpace_spaces_cons (all_isSpace_newline _) hspace _) hclosed, hitems]
    rfl
  | .obj [], _, _, hfuel, _, hrest => value_chars (.obj []) hfuel hrest
  | .obj ((name, item) :: others), level, fuel, hfuel, rest, _ => by
    rw [prettyChars] at hfuel ⊢
    simp only [List.length_cons, List.length_append] at hfuel
    obtain ⟨fuel, rfl⟩ := Nat.exists_eq_add_one_of_ne_zero (by omega : fuel ≠ 0)
    obtain ⟨fuel, rfl⟩ := Nat.exists_eq_add_one_of_ne_zero (by omega : fuel ≠ 0)
    have hclosing := all_isSpace_newline level
    have hitem := value_prettyChars item
      (show (prettyChars (level + 1) item).length ≤ fuel by omega)
      (endsNumber_prettyMembers hclosing (level + 1) others rest)
    have hmembers := members_prettyMembers others (by omega) name hclosing hitem
    simp only [List.cons_append, List.append_assoc, List.nil_append, quoted] at hmembers ⊢
    rw [value_brace (skipSpace_spaces_cons (all_isSpace_newline _) (by decide) _), hmembers]
    rfl
  | .malformed, _, _, hfuel, _, hrest => value_chars .malformed hfuel hrest

/-- Behind a first item the others are read up to the closing bracket. -/
theorem elements_prettyItems : (others : List Json) → ∀ {level fuel : Nat},
    (prettyItems level others).length ≤ fuel → ∀ {spaces : List Char},
    spaces.all isSpace = true → ∀ {cs rest : List Char} {item : Json},
    value fuel cs = some (item, prettyItems level others ++ (spaces ++ ']' :: rest)) →
    elements (fuel + 1) cs = some (item :: rereadItems others, rest)
  | [], _, _, _, _, hspaces, _, _, _, hitem =>
    elements_last hitem (skipSpace_spaces_cons hspaces (by decide) _)
  | next :: others, level, fuel, hfuel, spaces, hspaces, cs, rest, item, hitem => by
    rw [prettyItems] at hfuel hitem
    simp only [List.length_cons, List.length_append] at hfuel
    obtain ⟨fuel, rfl⟩ := Nat.exists_eq_add_one_of_ne_zero (by omega : fuel ≠ 0)
    have hnext := value_prettyChars next
      (show (prettyChars level next).length ≤ fuel by omega)
      (endsNumber_prettyItems hspaces level others rest)
    rw [← value_spaces (all_isSpace_newline level)] at hnext
    simp only [List.cons_append, List.append_assoc] at hitem
    exact elements_next hitem (skipSpace_cons (by decide) _)
      (elements_prettyItems others (by omega) hspaces hnext)

/-- Behind a first member's value the other members are read up to the closing brace. -/
theorem members_prettyMembers : (others : List (String × Json)) →
    ∀ {level fuel : Nat}, (prettyMembers level others).length ≤ fuel → ∀ (name : String)
    {spaces : List Char}, spaces.all isSpace = true → ∀ {cs rest : List Char} {item : Json},
    value fuel cs = some (item, prettyMembers level others ++ (spaces ++ '\x7d' :: rest)) →
    members (fuel + 1) (quoted name ++ ':' :: ' ' :: cs) =
      some (some ((name, item) :: rereadMembers others), rest)
  | [], _, fuel, _, name, _, hspaces, cs, _, _, hitem => by
    rw [← value_blank] at hitem
    rw [quoted, List.cons_append, List.append_assoc]
    exact members_last (skipSpace_cons (by decide) _) (textBody_escape _ name)
      (skipSpace_cons (by decide) _) hitem (skipSpace_spaces_cons hspaces (by decide) _)
  | (next, value) :: others, level, fuel, hfuel, name, spaces, hspaces, cs, rest, item, hitem => by
    rw [prettyMembers] at hfuel hitem
    simp only [List.length_cons, List.length_append] at hfuel
    obtain ⟨fuel, rfl⟩ := Nat.exists_eq_add_one_of_ne_zero (by omega : fuel ≠ 0)
    have hnext := value_prettyChars value
      (show (prettyChars level value).length ≤ fuel by omega)
      (endsNumber_prettyMembers hspaces level others rest)
    have hothers := members_prettyMembers others (by omega) next hspaces hnext
    rw [← members_spaces (all_isSpace_newline level)] at hothers
    rw [← value_blank] at hitem
    simp only [List.cons_append, List.append_assoc] at hitem hothers
    rw [quoted, List.cons_append, List.append_assoc]
    exact members_next (skipSpace_cons (by decide) _) (textBody_escape _ name)
      (skipSpace_cons (by decide) _) hitem (skipSpace_cons (by decide) _) hothers

end

/-- A value is read from its lines. -/
theorem readChars?_prettyChars (item : Json) (level : Nat) :
    readChars? (prettyChars level item) = some item.reread := by
  have hvalue := value_prettyChars item (Nat.le_refl (prettyChars level item).length)
    (nofun : EndsNumber [])
  rw [List.append_nil] at hvalue
  exact readChars?_of_value hvalue rfl

end Json

end TradeGate
