import TradeGate.Proofs.Json.FloatText

/-!
# Written values are read back

Every value is read from the line that `Json.compact` writes of it, as the value that its numbers say
(`Json.reread`, `Json.readChars?_chars`). One that holds nothing that JSON cannot express
(`Json.Legible`) is read back; it can be kept whole exactly if it is not nested too deep
(`Json.readStrict?_compact`). A text ends at its closing quote whatever its characters, and arrays and
objects go by induction over the value, with the length of the line as fuel.
-/

namespace TradeGate

namespace Json

-- Powers are those of the core library.
attribute [local instance (high)] instPowNat

/-! ## Texts -/

theorem hexDigit?_hexDigit (n : Nat) : hexDigit? (hexDigit n) = some (n % 16) := by
  have hall : ∀ k < 16, hexDigit? (Nat.digitChar k) = some k := by decide
  exact hall (n % 16) (Nat.mod_lt _ (by decide))

/-- The units of a text with one more character in front. -/
def withUnit (c : Char) (read : Option (List TextUnit × List Char)) :
    Option (List TextUnit × List Char) :=
  read.map fun (units, rest) => (.char c :: units, rest)

section Text

variable (fuel : Nat) (rest : List Char)

theorem textUnits_letter {letter c : Char} (h : escaped? letter = some c) :
    textUnits (fuel + 1) ('\\' :: letter :: rest) = withUnit c (textUnits fuel rest) := by
  have hu : letter ≠ 'u' := by
    rintro rfl
    exact nomatch h
  rw [textUnits]
  · rw [h]
    cases textUnits fuel rest <;> rfl
  · simpa using hu

theorem textUnits_control {c : Char} (h : c.toNat < 32) :
    textUnits (fuel + 1)
        ('\\' :: 'u' :: '0' :: '0' :: hexDigit (c.toNat / 16) :: hexDigit c.toNat :: rest) =
      withUnit c (textUnits fuel rest) := by
  have hzero : hexDigit? '0' = some 0 := rfl
  have hunit : hexUnit ('0' :: '0' :: hexDigit (c.toNat / 16) :: hexDigit c.toNat :: rest) =
      some (c.toNat, rest) := by
    have hsum : 16 * (c.toNat / 16 % 16) + c.toNat % 16 = c.toNat := by omega
    simp [hexUnit, hzero, hexDigit?_hexDigit, hsum]
  have hwhole : (isLeading c.toNat || isTrailing c.toNat) = false := by
    have hlow : ¬ 0xD800 ≤ c.toNat := by omega
    have hhigh : ¬ 0xDC00 ≤ c.toNat := by omega
    simp [isLeading, isTrailing, hlow, hhigh]
  rw [textUnits, hunit]
  simp only [Option.bind_eq_bind, Option.bind_some, hwhole, Char.ofNat_toNat]
  cases textUnits fuel rest <;> rfl

theorem textUnits_plain {c : Char} (hquote : c ≠ '"') (hslash : c ≠ '\\') (hlow : 32 ≤ c.toNat) :
    textUnits (fuel + 1) (c :: rest) = withUnit c (textUnits fuel rest) := by
  rw [textUnits]
  · have hlegal : ¬ (c.toNat < 0x20 ∨ c = '\\') := by
      rintro (hlt | hsame)
      · omega
      · exact hslash hsame
    rw [if_neg hlegal]
    cases textUnits fuel rest <;> rfl
  all_goals simp [hquote, hslash]

/-- An escaped character is read as that character. -/
theorem textUnits_escape (c : Char) :
    textUnits (fuel + 1) (escape c ++ rest) = withUnit c (textUnits fuel rest) := by
  by_cases hletter : c = '"' ∨ c = '\\' ∨ c = '\x08' ∨ c = '\x0C' ∨ c = '\n' ∨ c = '\r' ∨ c = '\t'
  · rcases hletter with rfl | rfl | rfl | rfl | rfl | rfl | rfl <;> exact textUnits_letter _ _ rfl
  · simp only [not_or] at hletter
    obtain ⟨hquote, hslash, hb, hf, hn, hr, ht⟩ := hletter
    unfold escape
    rw [if_neg hquote, if_neg hslash, if_neg hb, if_neg hf, if_neg hn, if_neg hr, if_neg ht]
    by_cases hcontrol : c.toNat < 0x20
    · rw [if_pos hcontrol]
      exact textUnits_control fuel rest hcontrol
    · rw [if_neg hcontrol]
      exact textUnits_plain fuel rest hquote hslash (Nat.not_lt.1 hcontrol)

theorem textUnits_flatMap {cs : List Char} (hfuel : cs.length < fuel) :
    textUnits fuel (cs.flatMap escape ++ '"' :: rest) = some (cs.map .char, rest) := by
  induction cs generalizing fuel with
  | nil =>
    obtain ⟨fuel, rfl⟩ := Nat.exists_eq_add_one_of_ne_zero (Nat.ne_of_gt hfuel)
    rfl
  | cons c cs ih =>
    obtain ⟨fuel, rfl⟩ := Nat.exists_eq_add_one_of_ne_zero (Nat.ne_of_gt (Nat.zero_lt_of_lt hfuel))
    rw [List.flatMap_cons, List.append_assoc, textUnits_escape, ih fuel (by simpa using hfuel)]
    rfl

theorem joinUnits_map (cs : List Char) : joinUnits (cs.map .char) = some cs := by
  induction cs with
  | nil => rfl
  | cons c cs ih => simp [joinUnits, ih]

theorem length_le_length_flatMap_escape (cs : List Char) : cs.length ≤ (cs.flatMap escape).length := by
  induction cs with
  | nil => exact Nat.le_refl _
  | cons c cs ih =>
    have hc : 0 < (escape c).length := by
      unfold escape
      repeat' split
      all_goals simp
    rw [List.flatMap_cons, List.length_append, List.length_cons]
    omega

/-- A text is read back from between its quotes, whatever its characters. -/
theorem textBody_escape (s : String) :
    textBody (s.toList.flatMap escape ++ '"' :: rest) = some (some s, rest) := by
  have hlength := length_le_length_flatMap_escape s.toList
  unfold textBody
  rw [textUnits_flatMap]
  · simp [joinUnits_map]
  · rw [List.length_append]
    omega

end Text

/-! ## Values -/

mutual

/-- A value that JSON can express: whole numbers of 64 bits, numbers that are read back, and objects
that name every member once. -/
def Legible : Json → Prop
  | null => True
  | bool _ => True
  | int n => -2 ^ (63 : Nat) ≤ n ∧ n < 2 ^ (64 : Nat)
  | float x => x.Legible
  | str _ => True
  | arr items => LegibleItems items
  | obj members => (members.map Prod.fst).Nodup ∧ LegibleMembers members
  | malformed => False

/-- `Legible` of every item. -/
def LegibleItems : List Json → Prop
  | [] => True
  | item :: rest => item.Legible ∧ LegibleItems rest

/-- `Legible` of every member's value. -/
def LegibleMembers : List (String × Json) → Prop
  | [] => True
  | (_, value) :: rest => value.Legible ∧ LegibleMembers rest

end

mutual

/-- The value that the text of a value is read as: numbers are what their digits say, and what JSON
cannot express is null. -/
def reread : Json → Json
  | null => null
  | bool b => bool b
  | int n => wholeNumber (n < 0) (Numeral.digits n.natAbs)
  | float x =>
    match number (floatChars x) with
    | some (value, _) => value
    | none => null
  | str s => str s
  | arr items => arr (rereadItems items)
  | obj members => obj (rereadMembers members)
  | malformed => null

/-- `reread` of every item. -/
def rereadItems : List Json → List Json
  | [] => []
  | item :: rest => item.reread :: rereadItems rest

/-- `reread` of every member's value. -/
def rereadMembers : List (String × Json) → List (String × Json)
  | [] => []
  | (name, value) :: rest => (name, value.reread) :: rereadMembers rest

end

mutual

/-- A value that JSON can express is read as it is. -/
theorem Legible.reread_eq : (item : Json) → item.Legible → item.reread = item
  | .null, _ => rfl
  | .bool _, _ => rfl
  | .int _, h => wholeNumber_digits h.1 h.2
  | .float x, h => by
    rw [reread, h.2]
  | .str _, _ => rfl
  | .arr items, h => by
    rw [reread, LegibleItems.reread_eq items h]
  | .obj members, h => by
    rw [reread, LegibleMembers.reread_eq members h.2]
  | .malformed, h => h.elim

theorem LegibleItems.reread_eq : (items : List Json) → LegibleItems items →
    rereadItems items = items
  | [], _ => rfl
  | item :: rest, h => by
    rw [rereadItems, Legible.reread_eq item h.1, LegibleItems.reread_eq rest h.2]

theorem LegibleMembers.reread_eq : (members : List (String × Json)) → LegibleMembers members →
    rereadMembers members = members
  | [], _ => rfl
  | (_, value) :: rest, h => by
    rw [rereadMembers, Legible.reread_eq value h.1, LegibleMembers.reread_eq rest h.2]

end

/-- The text of a number with a fraction is read as one number, or is the word null. -/
theorem number_floatChars (x : Binary64) :
    number (floatChars x) = some ((float x).reread, []) ∨
      floatChars x = "null".toList ∧ (float x).reread = null := by
  cases hfinite : x.isFinite with
  | true =>
    obtain ⟨whole, fraction, exponent, hread⟩ := exists_number_floatChars hfinite
    left
    rw [reread, hread]
  | false =>
    have hnull : floatChars x = "null".toList := by
      unfold floatChars
      rw [hfinite]
      rfl
    right
    rw [reread, hnull]
    exact ⟨rfl, rfl⟩

section Value

variable {fuel : Nat} {cs rest : List Char}

theorem skipSpace_cons {c : Char} (h : isSpace c = false) (cs : List Char) :
    skipSpace (c :: cs) = c :: cs := by
  simp [skipSpace, h]

theorem value_quote (fuel : Nat) (cs : List Char) :
    value (fuel + 1) ('"' :: cs) =
      (textBody cs).map fun (s, rest) => ((s.map str).getD malformed, rest) := by
  rw [value, skipSpace_cons (by decide)]
  rfl

theorem not_isSpace_of_number {c : Char} (h : c = '-' ∨ c.isDigit = true) : isSpace c = false := by
  rcases h with rfl | hdigit
  · decide
  · by_contra hspace
    simp only [isSpace, Bool.not_eq_false, Bool.or_eq_true, decide_eq_true_eq] at hspace
    rcases hspace with ((rfl | rfl) | rfl) | rfl <;> exact absurd hdigit (by decide)

/-- What starts as a number is read as one. -/
theorem value_number {c : Char} (h : c = '-' ∨ c.isDigit = true) (fuel : Nat) (cs : List Char) :
    value (fuel + 1) (c :: cs) = number (c :: cs) := by
  have hne : ∀ d ∈ ['n', 't', 'f', '"', '[', '\x7b'], c ≠ d := by
    rintro d hd rfl
    rcases h with rfl | hdigit
    · exact absurd hd (by decide)
    · simp only [List.mem_cons, List.not_mem_nil, or_false] at hd
      rcases hd with rfl | rfl | rfl | rfl | rfl | rfl <;> exact absurd hdigit (by decide)
  rw [value, skipSpace_cons (not_isSpace_of_number h)]
  split
  case h_7 => rfl
  all_goals
    rename_i heq
    exact absurd (List.cons.inj heq).1 (hne _ (by decide))

theorem value_bracket {c : Char} (hcs : skipSpace cs = c :: rest) (hclosed : c ≠ ']') (fuel : Nat) :
    value (fuel + 1) ('[' :: cs) =
      (elements fuel (c :: rest)).map fun (items, rest) => (arr items, rest) := by
  rw [value, skipSpace_cons (by decide)]
  split
  case h_5 body heq =>
    rw [← (List.cons.inj heq).2, hcs]
    split
    · rename_i heq
      exact absurd (List.cons.inj heq).1 hclosed
    · rfl
  case h_7 hbracket _ => exact absurd rfl (hbracket _)
  all_goals
    rename_i heq
    exact absurd (List.cons.inj heq).1 (by decide)

theorem value_brace (hcs : skipSpace cs = '"' :: rest) (fuel : Nat) :
    value (fuel + 1) ('\x7b' :: cs) = (members fuel ('"' :: rest)).map fun (pairs, rest) =>
      ((pairs.map obj).getD malformed, rest) := by
  rw [value, skipSpace_cons (by decide)]
  split
  case h_6 body heq =>
    rw [← (List.cons.inj heq).2, hcs]
    rfl
  case h_7 hbrace => exact absurd rfl (hbrace _)
  all_goals
    rename_i heq
    exact absurd (List.cons.inj heq).1 (by decide)

theorem elements_last {item : Json} {after : List Char} (hitem : value fuel cs = some (item, after))
    (hafter : skipSpace after = ']' :: rest) : elements (fuel + 1) cs = some ([item], rest) := by
  rw [elements, hitem]
  simp only [Option.bind_eq_bind, Option.bind_some, hafter]

theorem elements_next {item : Json} {items : List Json} {after next : List Char}
    (hitem : value fuel cs = some (item, after)) (hafter : skipSpace after = ',' :: next)
    (hitems : elements fuel next = some (items, rest)) :
    elements (fuel + 1) cs = some (item :: items, rest) := by
  rw [elements, hitem]
  simp only [Option.bind_eq_bind, Option.bind_some, hafter, hitems]

theorem members_last {name : Option String} {item : Json} {body colon after closing : List Char}
    (hcs : skipSpace cs = '"' :: body) (hname : textBody body = some (name, colon))
    (hcolon : skipSpace colon = ':' :: after) (hitem : value fuel after = some (item, closing))
    (hclosing : skipSpace closing = '\x7d' :: rest) :
    members (fuel + 1) cs = some (name.map fun name => [(name, item)], rest) := by
  rw [members, hcs]
  simp only [Option.bind_eq_bind, Option.bind_some, hname, hcolon, hitem, hclosing, Option.map_map]
  rfl

theorem members_next {name : Option String} {item : Json} {others : Option (List (String × Json))}
    {body colon after closing next : List Char} (hcs : skipSpace cs = '"' :: body)
    (hname : textBody body = some (name, colon)) (hcolon : skipSpace colon = ':' :: after)
    (hitem : value fuel after = some (item, closing)) (hclosing : skipSpace closing = ',' :: next)
    (hothers : members fuel next = some (others, rest)) :
    members (fuel + 1) cs =
      some (do some ((← name.map fun name => (name, item)) :: (← others)), rest) := by
  rw [members, hcs]
  simp only [Option.bind_eq_bind, Option.bind_some, hname, hcolon, hitem, hclosing, hothers]

/-- A written value starts with no blank and with no closing bracket. -/
theorem exists_cons_chars (value : Json) :
    ∃ c cs, value.chars = c :: cs ∧ isSpace c = false ∧ c ≠ ']' := by
  have hnumber : ∀ {cs item}, number cs = some (item, []) →
      ∃ c rest, cs = c :: rest ∧ isSpace c = false ∧ c ≠ ']' := by
    intro cs item hnumber
    obtain ⟨c, hhead, hc⟩ := head?_of_number hnumber
    obtain ⟨rest, rfl⟩ := List.head?_eq_some_iff.1 hhead
    refine ⟨c, rest, rfl, not_isSpace_of_number hc, ?_⟩
    rintro rfl
    exact absurd hc (by decide)
  cases value with
  | null => exact ⟨_, _, rfl, by decide, by decide⟩
  | bool b => cases b <;> exact ⟨_, _, rfl, by decide, by decide⟩
  | int n => exact hnumber (number_intChars n)
  | float x =>
    rcases number_floatChars x with hread | ⟨hnull, -⟩
    · exact hnumber hread
    · exact ⟨_, _, hnull, by decide, by decide⟩
  | str s => exact ⟨_, _, rfl, by decide, by decide⟩
  | arr items => exact ⟨_, _, by rw [chars], by decide, by decide⟩
  | obj members => exact ⟨_, _, by rw [chars], by decide, by decide⟩
  | malformed => exact ⟨_, _, rfl, by decide, by decide⟩

theorem value_of_number {item : Json} (hread : number cs = some (item, []))
    (hfuel : cs.length ≤ fuel) (hrest : EndsNumber rest) :
    value fuel (cs ++ rest) = some (item, rest) := by
  obtain ⟨c, hhead, hc⟩ := head?_of_number hread
  obtain ⟨after, rfl⟩ := List.head?_eq_some_iff.1 hhead
  cases fuel with
  | zero => exact absurd hfuel (by simp)
  | succ fuel =>
    rw [List.cons_append, value_number hc, ← List.cons_append, number_append hread hrest]
    rfl

theorem endsNumber_cons {c : Char} (h : c = ',' ∨ c = ']' ∨ c = '\x7d') (cs : List Char) :
    EndsNumber (c :: cs) := by
  intro d hd
  obtain rfl : c = d := by simpa using hd
  rcases h with rfl | rfl | rfl <;> decide

theorem exists_cons_itemChars (item : Json) (others : List Json) :
    ∃ c cs, itemChars (item :: others) = c :: cs ∧ isSpace c = false ∧ c ≠ ']' := by
  obtain ⟨c, cs, hchars, hc⟩ := exists_cons_chars item
  cases others with
  | nil => exact ⟨c, cs, by rw [itemChars, hchars], hc⟩
  | cons next others => exact ⟨c, _, by rw [itemChars, hchars, List.cons_append], hc⟩

theorem exists_cons_memberChars (member : String × Json) (others : List (String × Json)) :
    ∃ cs, memberChars (member :: others) = '"' :: cs := by
  obtain ⟨name, item⟩ := member
  cases others with
  | nil => exact ⟨_, by rw [memberChars, quoted, List.cons_append]⟩
  | cons next others => exact ⟨_, by rw [memberChars, quoted, List.cons_append]⟩

theorem quoted_append (name : String) (cs rest : List Char) :
    quoted name ++ ':' :: cs ++ rest =
      '"' :: (name.toList.flatMap escape ++ '"' :: ':' :: (cs ++ rest)) := by
  simp [quoted]

theorem value_null (hfuel : "null".toList.length ≤ fuel) :
    value fuel ("null".toList ++ rest) = some (null, rest) := by
  obtain ⟨fuel, rfl⟩ := Nat.exists_eq_add_one_of_ne_zero (Nat.ne_of_gt (Nat.zero_lt_of_lt hfuel))
  rfl

mutual

/-- A written value is read, whatever follows it that cannot belong to a number. -/
theorem value_chars : (item : Json) → ∀ {fuel : Nat}, item.chars.length ≤ fuel →
    ∀ {rest : List Char}, EndsNumber rest →
    value fuel (item.chars ++ rest) = some (item.reread, rest)
  | .null, fuel + 1, _, rest, _ => rfl
  | .bool true, fuel + 1, _, rest, _ => rfl
  | .bool false, fuel + 1, _, rest, _ => rfl
  | .int n, fuel, hfuel, rest, hrest => value_of_number (number_intChars n) hfuel hrest
  | .float x, fuel, hfuel, rest, hrest => by
    rw [chars] at hfuel ⊢
    rcases number_floatChars x with hread | ⟨hnull, hread⟩
    · exact value_of_number hread hfuel hrest
    · rw [hnull] at hfuel ⊢
      rw [hread]
      exact value_null hfuel
  | .str s, fuel + 1, _, rest, _ => by
    rw [chars, quoted, List.cons_append, List.append_assoc, value_quote, List.singleton_append,
      textBody_escape]
    rfl
  | .arr [], fuel + 1, _, rest, _ => rfl
  | .arr (item :: others), fuel + 1, hfuel, rest, _ => by
    rw [chars, List.length_cons, List.length_append, List.length_singleton] at hfuel
    have hitems := elements_itemChars (item :: others) (List.cons_ne_nil _ _)
      (show (itemChars (item :: others)).length < fuel by omega) rest
    obtain ⟨c, cs, hchars, hspace, hclosed⟩ := exists_cons_itemChars item others
    rw [chars, List.cons_append, List.append_assoc, List.singleton_append]
    rw [hchars] at hitems ⊢
    rw [List.cons_append] at hitems ⊢
    rw [value_bracket (skipSpace_cons hspace _) hclosed, hitems, reread]
    rfl
  | .obj [], fuel + 1, _, rest, _ => rfl
  | .obj (member :: others), fuel + 1, hfuel, rest, _ => by
    rw [chars, List.length_cons, List.length_append, List.length_singleton] at hfuel
    have hmembers := members_memberChars (member :: others) (List.cons_ne_nil _ _)
      (show (memberChars (member :: others)).length < fuel by omega) rest
    obtain ⟨cs, hchars⟩ := exists_cons_memberChars member others
    rw [chars, List.cons_append, List.append_assoc, List.singleton_append]
    rw [hchars] at hmembers ⊢
    rw [List.cons_append] at hmembers ⊢
    rw [value_brace (skipSpace_cons (by decide) _), hmembers, reread]
    rfl
  | .malformed, _, hfuel, _, _ => value_null hfuel

theorem elements_itemChars : (items : List Json) → items ≠ [] → ∀ {fuel : Nat},
    (itemChars items).length < fuel → ∀ (rest : List Char),
    elements fuel (itemChars items ++ ']' :: rest) = some (rereadItems items, rest)
  | [], hne, _, _, _ => absurd rfl hne
  | [item], _, fuel + 1, hfuel, rest => by
    rw [itemChars] at hfuel ⊢
    exact elements_last (value_chars item (Nat.le_of_lt_succ hfuel) (endsNumber_cons (by simp) _))
      (skipSpace_cons (by decide) _)
  | item :: next :: others, _, fuel + 1, hfuel, rest => by
    rw [itemChars, List.length_append, List.length_cons] at hfuel
    rw [itemChars, List.append_assoc, List.cons_append, rereadItems]
    exact elements_next (value_chars item (by omega) (endsNumber_cons (by simp) _))
      (skipSpace_cons (by decide) _)
      (elements_itemChars (next :: others) (List.cons_ne_nil _ _) (by omega) rest)

theorem members_memberChars : (pairs : List (String × Json)) → pairs ≠ [] → ∀ {fuel : Nat},
    (memberChars pairs).length < fuel → ∀ (rest : List Char),
    members fuel (memberChars pairs ++ '\x7d' :: rest) = some (some (rereadMembers pairs), rest)
  | [], hne, _, _, _ => absurd rfl hne
  | [(name, item)], _, fuel + 1, hfuel, rest => by
    rw [memberChars, List.length_append, List.length_cons] at hfuel
    rw [memberChars, quoted_append]
    exact members_last (skipSpace_cons (by decide) _) (textBody_escape _ name)
      (skipSpace_cons (by decide) _)
      (value_chars item (by omega) (endsNumber_cons (by simp) _)) (skipSpace_cons (by decide) _)
  | (name, item) :: next :: others, _, fuel + 1, hfuel, rest => by
    rw [memberChars, List.length_append, List.length_cons, List.length_append,
      List.length_cons] at hfuel
    rw [memberChars, quoted_append, List.append_assoc, List.cons_append, rereadMembers]
    exact members_next (skipSpace_cons (by decide) _) (textBody_escape _ name)
      (skipSpace_cons (by decide) _)
      (value_chars item (by omega) (endsNumber_cons (by simp) _)) (skipSpace_cons (by decide) _)
      (members_memberChars (next :: others) (List.cons_ne_nil _ _) (by omega) rest)

end

/-- A value is read from its line. -/
theorem readChars?_chars (item : Json) : readChars? item.chars = some item.reread := by
  have hend : EndsNumber [] := by simp [EndsNumber]
  have hfuel : item.chars.length ≤ 2 * item.chars.length + 2 := by omega
  have hvalue := value_chars item hfuel hend
  rw [List.append_nil] at hvalue
  unfold readChars?
  rw [hvalue]
  rfl

end Value

end Json

/-! ## Values that are kept whole -/

namespace Members

theorem set_of_not_mem {name : String} {members : Members} (h : name ∉ members.map Prod.fst)
    (value : Json) : members.set name value = members ++ [(name, value)] := by
  induction members with
  | nil => rfl
  | cons head rest ih =>
    obtain ⟨other, old⟩ := head
    rw [List.map_cons, List.mem_cons, not_or] at h
    rw [set, if_neg (Ne.symm h.1), ih h.2, List.cons_append]

/-- Pairs that name every member once are the members. -/
theorem ofPairs_of_nodup {pairs : List (String × Json)} (h : (pairs.map Prod.fst).Nodup) :
    ofPairs pairs = pairs := by
  induction pairs using List.reverseRecOn with
  | nil => rfl
  | append_singleton pairs pair ih =>
    obtain ⟨name, value⟩ := pair
    rw [List.map_append, List.nodup_append] at h
    obtain ⟨hpairs, -, hnew⟩ := h
    have hname : name ∉ pairs.map Prod.fst := fun hmem => hnew name hmem name (by simp) rfl
    have hset : ofPairs (pairs ++ [(name, value)]) = (ofPairs pairs).set name value := by
      simp [ofPairs]
    rw [hset, ih hpairs, set_of_not_mem hname]

end Members

namespace Json

mutual

/-- How deep objects and arrays are nested. -/
def nesting : Json → Nat
  | arr items => nestingItems items + 1
  | obj members => nestingMembers members + 1
  | _ => 0

/-- The greatest nesting of an item. -/
def nestingItems : List Json → Nat
  | [] => 0
  | item :: rest => max item.nesting (nestingItems rest)

/-- The greatest nesting of a member's value. -/
def nestingMembers : List (String × Json) → Nat
  | [] => 0
  | (_, value) :: rest => max value.nesting (nestingMembers rest)

end

mutual

/-- A value that JSON can express stays as it is when it is kept whole. -/
theorem strict?_of_legible : (item : Json) → item.Legible → ∀ {depth : Nat}, item.nesting < depth →
    strict? depth item = some item
  | .null, _, _, _ => by rw [strict?]
  | .bool b, _, _, _ => by rw [strict?]
  | .int n, _, _, _ => by rw [strict?]
  | .float x, _, _, _ => by rw [strict?]
  | .str s, _, _, _ => by rw [strict?]
  | .arr items, h, depth, hdepth => by
    rw [nesting] at hdepth
    rw [strict?, if_neg (by omega), strictItems?_of_legible items h (by omega), Option.map_some]
  | .obj members, h, depth, hdepth => by
    rw [nesting] at hdepth
    rw [strict?, if_neg (by omega), strictMembers?_of_legible members h.2 (by omega),
      Option.map_some, Members.ofPairs_of_nodup h.1]
  | .malformed, h, _, _ => h.elim

theorem strictItems?_of_legible : (items : List Json) → LegibleItems items → ∀ {depth : Nat},
    nestingItems items < depth → strictItems? depth items = some items
  | [], _, _, _ => by rw [strictItems?]
  | item :: rest, h, depth, hdepth => by
    rw [nestingItems] at hdepth
    rw [strictItems?, strict?_of_legible item h.1 (by omega),
      strictItems?_of_legible rest h.2 (by omega)]
    rfl

theorem strictMembers?_of_legible : (members : List (String × Json)) → LegibleMembers members →
    ∀ {depth : Nat}, nestingMembers members < depth →
    strictMembers? depth members = some members
  | [], _, _, _ => by rw [strictMembers?]
  | (name, value) :: rest, h, depth, hdepth => by
    rw [nestingMembers] at hdepth
    rw [strictMembers?, strict?_of_legible value h.1 (by omega),
      strictMembers?_of_legible rest h.2 (by omega)]
    rfl

end

mutual

/-- What is kept whole is not nested too deep. -/
theorem nesting_lt_of_strict? : (item : Json) → ∀ {depth : Nat} {kept : Json}, 0 < depth →
    strict? depth item = some kept → item.nesting < depth
  | .null, _, _, hdepth, _ => hdepth
  | .bool _, _, _, hdepth, _ => hdepth
  | .int _, _, _, hdepth, _ => hdepth
  | .float _, _, _, hdepth, _ => hdepth
  | .str _, _, _, hdepth, _ => hdepth
  | .arr items, depth, kept, _, h => by
    rw [strict?] at h
    split at h
    · cases h
    · obtain ⟨_, hitems, -⟩ := Option.map_eq_some_iff.1 h
      have hlt := nestingItems_lt_of_strictItems? items (by omega) hitems
      rw [nesting]
      omega
  | .obj members, depth, kept, _, h => by
    rw [strict?] at h
    split at h
    · cases h
    · obtain ⟨_, hmembers, -⟩ := Option.map_eq_some_iff.1 h
      have hlt := nestingMembers_lt_of_strictMembers? members (by omega) hmembers
      rw [nesting]
      omega
  | .malformed, _, _, hdepth, _ => hdepth

theorem nestingItems_lt_of_strictItems? : (items : List Json) → ∀ {depth : Nat}
    {kept : List Json}, 0 < depth → strictItems? depth items = some kept →
    nestingItems items < depth
  | [], _, _, hdepth, _ => hdepth
  | item :: rest, depth, kept, hdepth, h => by
    rw [strictItems?] at h
    obtain ⟨_, hitem, h⟩ := Option.bind_eq_some_iff.1 h
    obtain ⟨_, hrest, -⟩ := Option.bind_eq_some_iff.1 h
    rw [nestingItems]
    exact max_lt (nesting_lt_of_strict? item hdepth hitem)
      (nestingItems_lt_of_strictItems? rest hdepth hrest)

theorem nestingMembers_lt_of_strictMembers? : (members : List (String × Json)) → ∀ {depth : Nat}
    {kept : List (String × Json)}, 0 < depth → strictMembers? depth members = some kept →
    nestingMembers members < depth
  | [], _, _, hdepth, _ => hdepth
  | (name, value) :: rest, depth, kept, hdepth, h => by
    rw [strictMembers?] at h
    obtain ⟨_, hvalue, h⟩ := Option.bind_eq_some_iff.1 h
    obtain ⟨_, hrest, -⟩ := Option.bind_eq_some_iff.1 h
    rw [nestingMembers]
    exact max_lt (nesting_lt_of_strict? value hdepth hvalue)
      (nestingMembers_lt_of_strictMembers? rest hdepth hrest)

end

/-- A value that JSON can express is read back from its text. -/
theorem read?_compact {item : Json} (h : item.Legible) : read? item.compact = some item := by
  unfold read? compact
  rw [String.toList_ofList, readChars?_chars, h.reread_eq]

/-- A value that JSON can express is read back whole, or not at all where it is nested too deep. -/
theorem readStrict?_compact {item : Json} (h : item.Legible) :
    readStrict? item.compact = if item.nesting < depthLimit then some item else none := by
  unfold readStrict?
  rw [read?_compact h, Option.bind_some]
  split
  case isTrue hdepth => exact strict?_of_legible item h hdepth
  case isFalse hdepth =>
    refine Option.eq_none_iff_forall_ne_some.2 fun kept hkept => hdepth ?_
    exact nesting_lt_of_strict? item (by decide) hkept

end Json

end TradeGate
