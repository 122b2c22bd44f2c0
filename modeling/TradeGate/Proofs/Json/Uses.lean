import Mathlib.Data.List.DropRight
import TradeGate.Proofs.Json.Front

/-!
# What reading a value uses

How a value can be read is listed case by case (`Json.ValueForm` and its like), and by induction on
the fuel a value is read from what is used of its text, whatever follows that cannot belong to a
number (`Json.Uses`, `Json.exists_uses_value`). So it does not matter how much fuel there is, as long
as there is enough (`Json.readChars?_of_value`), nor which blanks stand around a text
(`Json.readChars?_of_blanks_around`).
-/

namespace TradeGate

namespace Json

open Text (Front isBlank isBlankText)

/-! ## Values -/

/-- How the items of an array can be read with one more step of fuel. -/
inductive ElementsForm (fuel : Nat) (cs : List Char) : List Json → List Char → Prop
  | last {item : Json} {after rest : List Char} (hitem : value fuel cs = some (item, after))
    (hafter : skipSpace after = ']' :: rest) : ElementsForm fuel cs [item] rest
  | next {item : Json} {items : List Json} {after next rest : List Char}
    (hitem : value fuel cs = some (item, after)) (hafter : skipSpace after = ',' :: next)
    (hitems : elements fuel next = some (items, rest)) : ElementsForm fuel cs (item :: items) rest

theorem elementsForm {fuel : Nat} {cs rest : List Char} {items : List Json}
    (h : elements (fuel + 1) cs = some (items, rest)) : ElementsForm fuel cs items rest := by
  rw [elements] at h
  obtain ⟨⟨item, after⟩, hitem, h⟩ := Option.bind_eq_some_iff.1 h
  dsimp only at h
  split at h
  · rename_i hafter
    obtain ⟨rfl, rfl⟩ := Prod.mk.inj (Option.some.inj h)
    exact .last hitem hafter
  · rename_i hafter
    obtain ⟨⟨others, behind⟩, hothers, heq⟩ := Option.bind_eq_some_iff.1 h
    obtain ⟨rfl, rfl⟩ := Prod.mk.inj (Option.some.inj heq)
    exact .next hitem hafter hothers
  · cases h

/-- How the members of an object can be read with one more step of fuel. -/
inductive MembersForm (fuel : Nat) (cs : List Char) : Option (List (String × Json)) → List Char → Prop
  | last {name : Option String} {item : Json} {body colon after closing rest : List Char}
    (hcs : skipSpace cs = '"' :: body) (hname : textBody body = some (name, colon))
    (hcolon : skipSpace colon = ':' :: after) (hitem : value fuel after = some (item, closing))
    (hclosing : skipSpace closing = '\x7d' :: rest) :
    MembersForm fuel cs (name.map fun name => [(name, item)]) rest
  | next {name : Option String} {item : Json} {others : Option (List (String × Json))}
    {body colon after closing next rest : List Char}
    (hcs : skipSpace cs = '"' :: body) (hname : textBody body = some (name, colon))
    (hcolon : skipSpace colon = ':' :: after) (hitem : value fuel after = some (item, closing))
    (hclosing : skipSpace closing = ',' :: next)
    (hothers : members fuel next = some (others, rest)) :
    MembersForm fuel cs (do some ((← name.map fun name => (name, item)) :: (← others))) rest

theorem membersForm {fuel : Nat} {cs rest : List Char} {pairs : Option (List (String × Json))}
    (h : members (fuel + 1) cs = some (pairs, rest)) : MembersForm fuel cs pairs rest := by
  rw [members] at h
  split at h
  · rename_i hcs
    obtain ⟨⟨name, colon⟩, hname, h⟩ := Option.bind_eq_some_iff.1 h
    dsimp only at h
    split at h
    · rename_i hcolon
      obtain ⟨⟨item, closing⟩, hitem, h⟩ := Option.bind_eq_some_iff.1 h
      dsimp only at h
      split at h
      · rename_i hclosing
        obtain ⟨rfl, rfl⟩ := Prod.mk.inj (Option.some.inj h)
        rw [Option.map_map]
        exact .last hcs hname hcolon hitem hclosing
      · rename_i hclosing
        obtain ⟨⟨others, behind⟩, hothers, heq⟩ := Option.bind_eq_some_iff.1 h
        obtain ⟨rfl, rfl⟩ := Prod.mk.inj (Option.some.inj heq)
        exact .next hcs hname hcolon hitem hclosing hothers
      · exact nomatch h
    · exact nomatch h
  · exact nomatch h

theorem skipSpace_skipSpace (cs : List Char) : skipSpace (skipSpace cs) = skipSpace cs :=
  List.dropWhile_idempotent ..

/-- The members of an object start with a quote. -/
theorem exists_quote_of_members {fuel : Nat} {cs rest : List Char}
    {pairs : Option (List (String × Json))} (h : members fuel cs = some (pairs, rest)) :
    ∃ body, skipSpace cs = '"' :: body := by
  cases fuel with
  | zero =>
    rw [members] at h
    cases h
  | succ fuel => cases membersForm h with
    | last hcs => exact ⟨_, hcs⟩
    | next hcs => exact ⟨_, hcs⟩

/-- How a value can be read with one more step of fuel. -/
inductive ValueForm (fuel : Nat) (cs : List Char) : Json → List Char → Prop
  | null {rest : List Char} (hcs : skipSpace cs = 'n' :: 'u' :: 'l' :: 'l' :: rest) :
    ValueForm fuel cs null rest
  | true {rest : List Char} (hcs : skipSpace cs = 't' :: 'r' :: 'u' :: 'e' :: rest) :
    ValueForm fuel cs (bool true) rest
  | false {rest : List Char} (hcs : skipSpace cs = 'f' :: 'a' :: 'l' :: 's' :: 'e' :: rest) :
    ValueForm fuel cs (bool false) rest
  | text {body rest : List Char} {s : Option String} (hcs : skipSpace cs = '"' :: body)
    (hbody : textBody body = some (s, rest)) : ValueForm fuel cs ((s.map str).getD malformed) rest
  | noItems {body rest : List Char} (hcs : skipSpace cs = '[' :: body)
    (hbody : skipSpace body = ']' :: rest) : ValueForm fuel cs (arr []) rest
  | items {body rest : List Char} {items : List Json} (hcs : skipSpace cs = '[' :: body)
    (hopen : ∀ tail, skipSpace body ≠ ']' :: tail)
    (hbody : elements fuel (skipSpace body) = some (items, rest)) :
    ValueForm fuel cs (arr items) rest
  | noMembers {body rest : List Char} (hcs : skipSpace cs = '\x7b' :: body)
    (hbody : skipSpace body = '\x7d' :: rest) : ValueForm fuel cs (obj []) rest
  | members {body inner rest : List Char} {pairs : Option (List (String × Json))}
    (hcs : skipSpace cs = '\x7b' :: body) (hbody : skipSpace body = '"' :: inner)
    (hinner : members fuel ('"' :: inner) = some (pairs, rest)) :
    ValueForm fuel cs ((pairs.map obj).getD malformed) rest
  | number {item : Json} {rest : List Char} (hcs : number (skipSpace cs) = some (item, rest)) :
    ValueForm fuel cs item rest

theorem valueForm {fuel : Nat} {cs rest : List Char} {item : Json}
    (h : value (fuel + 1) cs = some (item, rest)) : ValueForm fuel cs item rest := by
  rw [value] at h
  split at h
  · rename_i hcs
    obtain ⟨rfl, rfl⟩ := Prod.mk.inj (Option.some.inj h)
    exact .null hcs
  · rename_i hcs
    obtain ⟨rfl, rfl⟩ := Prod.mk.inj (Option.some.inj h)
    exact .true hcs
  · rename_i hcs
    obtain ⟨rfl, rfl⟩ := Prod.mk.inj (Option.some.inj h)
    exact .false hcs
  · rename_i hcs
    obtain ⟨⟨s, after⟩, hbody, heq⟩ := Option.map_eq_some_iff.1 h
    obtain ⟨rfl, rfl⟩ := Prod.mk.inj heq
    exact .text hcs hbody
  · rename_i hcs
    split at h
    · rename_i hbody
      obtain ⟨rfl, rfl⟩ := Prod.mk.inj (Option.some.inj h)
      exact .noItems hcs hbody
    · rename_i hopen
      obtain ⟨⟨items, after⟩, hbody, heq⟩ := Option.map_eq_some_iff.1 h
      obtain ⟨rfl, rfl⟩ := Prod.mk.inj heq
      exact .items hcs hopen hbody
  · rename_i hcs
    split at h
    · rename_i hbody
      obtain ⟨rfl, rfl⟩ := Prod.mk.inj (Option.some.inj h)
      exact .noMembers hcs hbody
    · obtain ⟨⟨pairs, after⟩, hbody, heq⟩ := Option.map_eq_some_iff.1 h
      obtain ⟨rfl, rfl⟩ := Prod.mk.inj heq
      obtain ⟨inner, hinner⟩ := exists_quote_of_members hbody
      rw [skipSpace_skipSpace] at hinner
      exact .members hcs hinner (hinner ▸ hbody)
  · exact .number h

/-! ## What is used of a value -/

/-- A reader with enough fuel comes to this result from a text that starts with `used`, whatever
follows that cannot belong to a number. -/
structure Uses {α : Type} (read : Nat → Front α) (used : List Char) (result : α) : Prop where
  closed : Closed used
  reads : ∀ {fuel rest}, used.length ≤ fuel → EndsNumber rest →
    read fuel (used ++ rest) = some (result, rest)

/-- Whatever a reader comes to with this fuel, it uses the front of the text for it. -/
def UsesFront {α : Type} (read : Nat → Front α) (fuel : Nat) : Prop :=
  ∀ {cs result rest}, read fuel cs = some (result, rest) →
    ∃ used, cs = used ++ rest ∧ Uses read used result

section Used

variable {cs rest spaces used : List Char} {fuel : Nat}

theorem skipSpace_append (h : spaces.all isSpace = true) (cs : List Char) :
    skipSpace (spaces ++ cs) = skipSpace cs :=
  List.dropWhile_append_of_pos (List.all_eq_true.1 h)

theorem exists_spaces (cs : List Char) :
    ∃ spaces, spaces.all isSpace = true ∧ cs = spaces ++ skipSpace cs :=
  ⟨cs.takeWhile isSpace, List.all_takeWhile, List.takeWhile_append_dropWhile.symm⟩

theorem exists_spaces_cons {c : Char} {body : List Char} (h : skipSpace cs = c :: body) :
    ∃ spaces, spaces.all isSpace = true ∧ cs = spaces ++ c :: body := by
  obtain ⟨spaces, hspaces, hcs⟩ := exists_spaces cs
  exact ⟨spaces, hspaces, by rw [← h]; exact hcs⟩

theorem isSpace_of_skipSpace {c : Char} {tail : List Char} (h : skipSpace cs = c :: tail) :
    isSpace c = false := by
  have hnot := List.head?_dropWhile_not isSpace cs
  unfold skipSpace at h
  rw [h] at hnot
  simpa using hnot

theorem skipSpace_spaces_cons (h : spaces.all isSpace = true) {c : Char} (hc : isSpace c = false)
    (cs : List Char) : skipSpace (spaces ++ c :: cs) = c :: cs := by
  rw [skipSpace_append h, skipSpace_cons hc]

/-- A blank cannot belong to a number. -/
theorem endsNumber_spaces (h : spaces.all isSpace = true) (hcs : EndsNumber cs) :
    EndsNumber (spaces ++ cs) := by
  cases spaces with
  | nil => exact hcs
  | cons c spaces =>
    intro d hd
    obtain rfl := Option.some.inj hd
    have hspace : isSpace c = true := List.all_eq_true.1 h c List.mem_cons_self
    simp only [isSpace, Bool.or_eq_true, decide_eq_true_eq] at hspace
    rcases hspace with ((rfl | rfl) | rfl) | rfl <;> decide

theorem value_spaces (h : spaces.all isSpace = true) (fuel : Nat) (cs : List Char) :
    value fuel (spaces ++ cs) = value fuel cs := by
  cases fuel with
  | zero => rfl
  | succ fuel => rw [value, value, skipSpace_append h]

/-- Blanks before a value belong to what is used of it. -/
theorem Uses.behind_spaces {item : Json} (h : Uses value used item) (hspaces : spaces.all isSpace = true) :
    Uses value (spaces ++ used) item where
  closed := h.closed.append spaces
  reads hfuel hrest := by
    rw [List.length_append] at hfuel
    rw [List.append_assoc, value_spaces hspaces]
    exact h.reads (by omega) hrest

/-- Where there is enough fuel for what is used there is a step of it. -/
theorem uses_of_succ {α : Type} {read : Nat → Front α} {result : α} (hclosed : Closed used)
    (h : ∀ {fuel rest}, used.length ≤ fuel + 1 → EndsNumber rest →
      read (fuel + 1) (used ++ rest) = some (result, rest)) : Uses read used result where
  closed := hclosed
  reads {fuel _} hfuel hrest := by
    have hpos := List.length_pos_iff.2 hclosed.ne_nil
    obtain ⟨fuel, rfl⟩ := Nat.exists_eq_add_one_of_ne_zero (by omega : fuel ≠ 0)
    exact h hfuel hrest

theorem exists_uses_of_valueForm (helements : UsesFront elements fuel)
    (hmembers : UsesFront members fuel) {item : Json} (h : ValueForm fuel cs item rest) :
    ∃ used, cs = used ++ rest ∧ Uses value used item := by
  -- blanks before the value are put back at the end
  suffices hvalue : ∃ used, skipSpace cs = used ++ rest ∧ Uses value used item by
    obtain ⟨spaces, hspaces, hcs⟩ := exists_spaces cs
    obtain ⟨used, hused, huses⟩ := hvalue
    exact ⟨spaces ++ used, by rw [List.append_assoc, ← hused]; exact hcs, huses.behind_spaces hspaces⟩
  cases h with
  | null hcs =>
    exact ⟨['n', 'u', 'l', 'l'], hcs, uses_of_succ ⟨_, rfl, by decide⟩ fun _ _ => rfl⟩
  | true hcs =>
    exact ⟨['t', 'r', 'u', 'e'], hcs, uses_of_succ ⟨_, rfl, by decide⟩ fun _ _ => rfl⟩
  | false hcs =>
    exact ⟨['f', 'a', 'l', 's', 'e'], hcs, uses_of_succ ⟨_, rfl, by decide⟩ fun _ _ => rfl⟩
  | text hcs hbody =>
    obtain ⟨used, rfl, hclosed, hread⟩ := used_of_textBody hbody
    refine ⟨'"' :: used, hcs, uses_of_succ (hclosed.cons _) fun _ _ => ?_⟩
    rw [List.cons_append, value_quote, hread]
    rfl
  | noItems hcs hbody =>
    obtain ⟨spaces, hspaces, rfl⟩ := exists_spaces_cons hbody
    refine ⟨'[' :: (spaces ++ [']']), by simpa using hcs,
      uses_of_succ (((closed_singleton (by decide)).append _).cons _) fun _ _ => ?_⟩
    rw [List.cons_append, List.append_assoc, value, skipSpace_cons (by decide)]
    simp only [List.singleton_append, skipSpace_spaces_cons hspaces (by decide : isSpace ']' = false)]
  | noMembers hcs hbody =>
    obtain ⟨spaces, hspaces, rfl⟩ := exists_spaces_cons hbody
    refine ⟨'\x7b' :: (spaces ++ ['\x7d']), by simpa using hcs,
      uses_of_succ (((closed_singleton (by decide)).append _).cons _) fun _ _ => ?_⟩
    rw [List.cons_append, List.append_assoc, value, skipSpace_cons (by decide)]
    simp only [List.singleton_append,
      skipSpace_spaces_cons hspaces (by decide : isSpace '\x7d' = false)]
  | @items body _ items hcs hopen hbody =>
    obtain ⟨spaces, hspaces, hspaced⟩ := exists_spaces body
    obtain ⟨used, hused, huses⟩ := helements hbody
    refine ⟨'[' :: (spaces ++ used), ?_,
      uses_of_succ ((huses.closed.append _).cons _) fun {fuel rest'} hfuel hrest => ?_⟩
    · rw [hcs, hspaced, hused, List.cons_append, List.append_assoc]
    · obtain ⟨c, tail, rfl⟩ := List.exists_cons_of_ne_nil huses.closed.ne_nil
      have hc : c ≠ ']' := by
        rintro rfl
        exact hopen _ hused
      simp only [List.length_cons, List.length_append] at hfuel
      have hread := huses.reads (show (c :: tail).length ≤ fuel by rw [List.length_cons]; omega) hrest
      rw [List.cons_append, List.append_assoc, List.cons_append,
        value_bracket (skipSpace_spaces_cons hspaces (isSpace_of_skipSpace hused) _) hc, ← List.cons_append, hread]
      rfl
  | members hcs hbody hinner =>
    obtain ⟨spaces, hspaces, rfl⟩ := exists_spaces_cons hbody
    obtain ⟨used, hused, huses⟩ := hmembers hinner
    refine ⟨'\x7b' :: (spaces ++ used), ?_,
      uses_of_succ ((huses.closed.append _).cons _) fun {fuel rest'} hfuel hrest => ?_⟩
    · rw [hcs, hused, List.cons_append, List.append_assoc]
    · obtain ⟨c, tail, rfl⟩ := List.exists_cons_of_ne_nil huses.closed.ne_nil
      obtain rfl := (List.cons.inj hused).1
      simp only [List.length_cons, List.length_append] at hfuel
      have hread := huses.reads (show ('"' :: tail).length ≤ fuel by rw [List.length_cons]; omega)
        hrest
      rw [List.cons_append, List.append_assoc, List.cons_append,
        value_brace (skipSpace_spaces_cons hspaces (by decide) _), ← List.cons_append, hread]
      rfl
  | number hcs =>
    obtain ⟨used, hused, hclosed, hread⟩ := used_of_number hcs
    refine ⟨used, hused, uses_of_succ hclosed fun _ hrest => ?_⟩
    obtain ⟨c, hhead, hc⟩ := head?_of_number (hread hrest)
    obtain ⟨tail, htail⟩ := List.head?_eq_some_iff.1 hhead
    rw [htail, value_number hc, ← htail]
    exact hread hrest

theorem exists_uses_of_elementsForm (hvalue : UsesFront value fuel)
    (helements : UsesFront elements fuel) {items : List Json}
    (h : ElementsForm fuel cs items rest) :
    ∃ used, cs = used ++ rest ∧ Uses elements used items := by
  cases h with
  | last hitem hafter =>
    obtain ⟨spaces, hspaces, rfl⟩ := exists_spaces_cons hafter
    obtain ⟨used, rfl, huses⟩ := hvalue hitem
    refine ⟨used ++ (spaces ++ [']']), by simp,
      uses_of_succ ((closed_singleton (by decide)).append _ |>.append _) fun {fuel rest'} hfuel _ => ?_⟩
    have hend : EndsNumber (spaces ++ ']' :: rest') :=
      endsNumber_spaces hspaces (endsNumber_cons (by simp) _)
    simp only [List.length_append, List.length_singleton] at hfuel
    rw [List.append_assoc, List.append_assoc, List.singleton_append]
    exact elements_last (huses.reads (by omega) hend) (skipSpace_spaces_cons hspaces (by decide) _)
  | next hitem hafter hitems =>
    obtain ⟨spaces, hspaces, rfl⟩ := exists_spaces_cons hafter
    obtain ⟨used, rfl, huses⟩ := hvalue hitem
    obtain ⟨others, rfl, hothers⟩ := helements hitems
    refine ⟨used ++ (spaces ++ ',' :: others), by simp,
      uses_of_succ (((hothers.closed.cons _).append _).append _) fun {fuel rest'} hfuel hrest => ?_⟩
    have hend : EndsNumber (spaces ++ ',' :: (others ++ rest')) :=
      endsNumber_spaces hspaces (endsNumber_cons (by simp) _)
    simp only [List.length_append, List.length_cons] at hfuel
    rw [List.append_assoc, List.append_assoc, List.cons_append]
    exact elements_next (huses.reads (by omega) hend) (skipSpace_spaces_cons hspaces (by decide) _)
      (hothers.reads (by omega) hrest)

theorem exists_uses_of_membersForm (hvalue : UsesFront value fuel)
    (hmembers : UsesFront members fuel) {pairs : Option (List (String × Json))}
    (h : MembersForm fuel cs pairs rest) :
    ∃ used, cs = used ++ rest ∧ Uses members used pairs := by
  cases h with
  | last hcs hname hcolon hitem hclosing =>
    obtain ⟨front, hfront, rfl⟩ := exists_spaces_cons hcs
    obtain ⟨name, rfl, -, hread⟩ := used_of_textBody hname
    obtain ⟨middle, hmiddle, rfl⟩ := exists_spaces_cons hcolon
    obtain ⟨used, rfl, huses⟩ := hvalue hitem
    obtain ⟨back, hback, rfl⟩ := exists_spaces_cons hclosing
    refine ⟨front ++ '"' :: (name ++ (middle ++ ':' :: (used ++ (back ++ ['\x7d'])))), by simp,
      uses_of_succ ?_ fun {fuel rest'} hfuel _ => ?_⟩
    · exact ((((((closed_singleton (by decide)).append _).append _).cons _).append _).append _
        |>.cons _).append _
    · have hend : EndsNumber (back ++ '\x7d' :: rest') :=
        endsNumber_spaces hback (endsNumber_cons (by simp) _)
      simp only [List.length_append, List.length_cons, List.length_nil] at hfuel
      simp only [List.append_assoc, List.cons_append, List.nil_append]
      exact members_last (skipSpace_spaces_cons hfront (by decide) _) hread
        (skipSpace_spaces_cons hmiddle (by decide) _) (huses.reads (by omega) hend)
        (skipSpace_spaces_cons hback (by decide) _)
  | next hcs hname hcolon hitem hclosing hothers =>
    obtain ⟨front, hfront, rfl⟩ := exists_spaces_cons hcs
    obtain ⟨name, rfl, -, hread⟩ := used_of_textBody hname
    obtain ⟨middle, hmiddle, rfl⟩ := exists_spaces_cons hcolon
    obtain ⟨used, rfl, huses⟩ := hvalue hitem
    obtain ⟨back, hback, rfl⟩ := exists_spaces_cons hclosing
    obtain ⟨others, rfl, hbehind⟩ := hmembers hothers
    refine ⟨front ++ '"' :: (name ++ (middle ++ ':' :: (used ++ (back ++ ',' :: others)))), by simp,
      uses_of_succ ?_ fun {fuel rest'} hfuel hrest => ?_⟩
    · exact ((((((hbehind.closed.cons _).append _).append _).cons _).append _).append _
        |>.cons _).append _
    · have hend : EndsNumber (back ++ ',' :: (others ++ rest')) :=
        endsNumber_spaces hback (endsNumber_cons (by simp) _)
      simp only [List.length_append, List.length_cons] at hfuel
      simp only [List.append_assoc, List.cons_append]
      exact members_next (skipSpace_spaces_cons hfront (by decide) _) hread
        (skipSpace_spaces_cons hmiddle (by decide) _) (huses.reads (by omega) hend)
        (skipSpace_spaces_cons hback (by decide) _) (hbehind.reads (by omega) hrest)

/-- Values, items and members are read from what is used of the text. -/
theorem usesFront (fuel : Nat) :
    UsesFront value fuel ∧ UsesFront elements fuel ∧ UsesFront members fuel := by
  induction fuel with
  | zero =>
    refine ⟨fun {cs _ _} h => ?_, fun {cs _ _} h => ?_, fun {cs _ _} h => ?_⟩
    · rw [value] at h
      cases h
    · rw [elements] at h
      cases h
    · rw [members] at h
      cases h
  | succ fuel ih =>
    obtain ⟨hvalue, helements, hmembers⟩ := ih
    exact ⟨fun h => exists_uses_of_valueForm helements hmembers (valueForm h),
      fun h => exists_uses_of_elementsForm hvalue helements (elementsForm h),
      fun h => exists_uses_of_membersForm hvalue hmembers (membersForm h)⟩

theorem exists_uses_value {item : Json} (h : value fuel cs = some (item, rest)) :
    ∃ used, cs = used ++ rest ∧ Uses value used item :=
  (usesFront fuel).1 h

end Used

/-! ## Whole texts -/

section Whole

variable {cs rest before after : List Char} {item : Json}

theorem all_isSpace_of_skipSpace (h : skipSpace cs = []) : cs.all isSpace = true :=
  List.all_eq_true.2 (List.dropWhile_eq_nil_iff.1 h)

/-- A value is read off a whole text whatever fuel it was found with. -/
theorem readChars?_of_value {fuel : Nat} (h : value fuel cs = some (item, rest))
    (hrest : skipSpace rest = []) : readChars? cs = some item := by
  obtain ⟨used, rfl, huses⟩ := exists_uses_value h
  have hend : EndsNumber rest := by
    rw [← List.append_nil rest]
    exact endsNumber_spaces (all_isSpace_of_skipSpace hrest) nofun
  unfold readChars?
  rw [huses.reads (by rw [List.length_append]; omega) hend]
  exact if_pos hrest

theorem exists_value_of_readChars? (h : readChars? cs = some item) :
    ∃ fuel rest, value fuel cs = some (item, rest) ∧ skipSpace rest = [] := by
  unfold readChars? at h
  obtain ⟨⟨result, rest⟩, hvalue, h⟩ := Option.bind_eq_some_iff.1 h
  dsimp only at h
  split at h
  · obtain rfl := Option.some.inj h
    exact ⟨_, rest, hvalue, by assumption⟩
  · exact nomatch h

/-- No value starts with a blank that JSON does not pass over. -/
theorem isBlank_eq_false_of_value {fuel : Nat} (h : value fuel cs = some (item, rest)) {c : Char}
    (hc : c ∈ (skipSpace cs).head?) : isBlank c = false := by
  cases fuel with
  | zero =>
    rw [value] at h
    cases h
  | succ fuel => cases valueForm h with
    | null hcs | true hcs | false hcs | text hcs | noItems hcs | items hcs | noMembers hcs
    | members hcs =>
      rw [hcs] at hc
      obtain rfl := Option.some.inj hc
      decide
    | number hcs =>
      obtain ⟨d, hhead, hd⟩ := head?_of_number hcs
      obtain rfl := Option.some.inj (hhead.symm.trans hc)
      rcases hd with rfl | hd
      · decide
      · exact isBlank_of_isDigit hd

/-- Blanks before a value are those that JSON passes over. -/
theorem readChars?_of_blanks_before (h : readChars? (before ++ cs) = some item)
    (hbefore : isBlankText before = true) : readChars? cs = some item := by
  obtain ⟨fuel, rest, hvalue, hrest⟩ := exists_value_of_readChars? h
  suffices hspaces : before.all isSpace = true by
    rw [value_spaces hspaces] at hvalue
    exact readChars?_of_value hvalue hrest
  obtain ⟨spaces, hspaces, hbefore'⟩ := exists_spaces before
  cases hleft : skipSpace before with
  | nil => exact all_isSpace_of_skipSpace hleft
  | cons c left =>
    -- a blank that is not passed over would start the value
    have hhead : skipSpace (before ++ cs) = c :: (left ++ cs) := by
      rw [hbefore', hleft, List.append_assoc, List.cons_append,
        skipSpace_spaces_cons hspaces (isSpace_of_skipSpace hleft)]
    have hblank : isBlank c = true := by
      rw [hbefore', hleft] at hbefore
      exact List.all_eq_true.1 hbefore c (by simp)
    have hnot := isBlank_eq_false_of_value hvalue (c := c) (by rw [hhead]; rfl)
    exact nomatch hblank.symm.trans hnot

/-- Blanks behind a value are not used. -/
theorem readChars?_of_blanks_behind (h : readChars? (cs ++ after) = some item)
    (hafter : isBlankText after = true) : readChars? cs = some item := by
  obtain ⟨fuel, rest, hvalue, hrest⟩ := exists_value_of_readChars? h
  obtain ⟨used, hused, huses⟩ := exists_uses_value hvalue
  have hspaces := all_isSpace_of_skipSpace hrest
  obtain ⟨tail, rfl, rfl⟩ : ∃ tail, cs = used ++ tail ∧ rest = tail ++ after := by
    rcases List.append_eq_append_iff.1 hused with ⟨inside, rfl, rfl⟩ | hfits
    · -- what is used does not end in a blank
      rcases List.eq_nil_or_concat inside with rfl | ⟨front, last, rfl⟩
      · exact ⟨[], by simp, rfl⟩
      · obtain ⟨c, hlast, hc⟩ := huses.closed
        obtain rfl : last = c := by simpa using hlast
        exact nomatch (List.all_eq_true.1 hafter last (by simp)).symm.trans hc
    · exact hfits
  rw [List.all_append, Bool.and_eq_true] at hspaces
  have hend : EndsNumber tail := by
    rw [← List.append_nil tail]
    exact endsNumber_spaces hspaces.1 nofun
  exact readChars?_of_value (huses.reads (Nat.le_refl _) hend)
    (List.dropWhile_eq_nil_iff.2 (List.all_eq_true.1 hspaces.1))

/-- Blanks around a text do not matter to what is read. -/
theorem readChars?_of_blanks_around (h : readChars? (before ++ (cs ++ after)) = some item)
    (hbefore : isBlankText before = true) (hafter : isBlankText after = true) :
    readChars? cs = some item :=
  readChars?_of_blanks_behind (readChars?_of_blanks_before h hbefore) hafter

/-- A blank text holds no value. -/
theorem readChars?_eq_none_of_blank (h : isBlankText cs = true) : readChars? cs = none := by
  cases hread : readChars? cs with
  | none => rfl
  | some item =>
    have hnil : readChars? [] = some item := readChars?_of_blanks_behind hread h
    exact nomatch hnil

theorem isBlankText_of_isSpace (h : cs.all isSpace = true) : isBlankText cs = true := by
  refine List.all_eq_true.2 fun c hc => ?_
  have hspace := List.all_eq_true.1 h c hc
  simp only [isSpace, Bool.or_eq_true, decide_eq_true_eq] at hspace
  rcases hspace with ((rfl | rfl) | rfl) | rfl <;> decide

/-- Behind a value that is set off by a blank there may be nothing but blanks. -/
theorem readChars?_append_eq_none (h : readChars? cs = some item)
    (hhead : ∀ c ∈ after.head?, isBlank c = true) (hmore : isBlankText after = false) :
    readChars? (cs ++ after) = none := by
  obtain ⟨fuel, rest, hvalue, hrest⟩ := exists_value_of_readChars? h
  obtain ⟨used, rfl, huses⟩ := exists_uses_value hvalue
  have hspaces := all_isSpace_of_skipSpace hrest
  have hend : EndsNumber (rest ++ after) := by
    refine endsNumber_spaces hspaces fun c hc => ?_
    have hblank := hhead c hc
    refine ⟨?_, ?_, ?_, ?_⟩
    · by_contra hdigit
      rw [isBlank_of_isDigit (Bool.of_not_eq_false hdigit)] at hblank
      exact nomatch hblank
    all_goals
      rintro rfl
      exact absurd hblank (by decide)
  have hleft : skipSpace (rest ++ after) ≠ [] := by
    intro hnil
    have hall := isBlankText_of_isSpace (all_isSpace_of_skipSpace hnil)
    rw [isBlankText, List.all_append, Bool.and_eq_true] at hall
    exact nomatch hmore.symm.trans hall.2
  unfold readChars?
  rw [List.append_assoc, huses.reads (by rw [List.length_append]; omega) hend]
  exact if_neg hleft

end Whole

end Json

end TradeGate
