import TradeGate.Proofs.Json.Pretty
import TradeGate.Proofs.Json.Printer
import TradeGate.Proofs.Text.Lines

/-!
# The lines of a value

Over several lines an array or an object that is not empty is opened at the end of a line. So no single
line is read as a value with items or members (`Json.isFlat_of_line`), and a text of several lines
that is not read as a whole is nothing line by line. That every line leads with such a character is
carried over the value: each line end that is written is followed by a line that does
(`Json.leadsLines_prettyChars`).
-/

namespace TradeGate

namespace Json

/-! ## Values without items and members -/

/-- The value has no items and no members. -/
def IsFlat : Json → Prop
  | arr items => items = []
  | obj members => members = []
  | _ => True

theorem isFlat_getD_float (x : Option Binary64) : ((x.map float).getD malformed).IsFlat := by
  cases x <;> trivial

theorem isFlat_wholeNumber (negative : Bool) (whole : List Char) :
    (wholeNumber negative whole).IsFlat := by
  unfold wholeNumber
  dsimp only
  repeat' split
  all_goals first | trivial | exact isFlat_getD_float _

theorem isFlat_of_number {cs rest : List Char} {item : Json} (h : number cs = some (item, rest)) :
    item.IsFlat := by
  have hunsigned : ∀ {negative cs}, unsigned negative cs = some (item, rest) → item.IsFlat := by
    intro negative cs h
    unfold unsigned at h
    obtain ⟨⟨whole, afterWhole⟩, -, h⟩ := Option.bind_eq_some_iff.1 h
    obtain ⟨⟨fraction, afterFraction⟩, -, h⟩ := Option.bind_eq_some_iff.1 h
    obtain ⟨⟨exponent, afterExponent⟩, -, h⟩ := Option.bind_eq_some_iff.1 h
    dsimp only at h
    split at h
    · rw [← (Prod.mk.inj (Option.some.inj h)).1]
      exact isFlat_wholeNumber _ _
    · rw [← (Prod.mk.inj (Option.some.inj h)).1]
      exact isFlat_getD_float _
  cases cs with
  | nil => exact nomatch h
  | cons c cs =>
    by_cases hminus : c = '-'
    · subst hminus
      exact hunsigned h
    · rw [number_of_ne (by simpa using hminus)] at h
      exact hunsigned h

/-- What closes what a character opens. -/
def closing? : Char → Option Char
  | '[' => some ']'
  | '\x7b' => some '\x7d'
  | _ => none

/-- The line opens nothing that it does not close at once. -/
def OpensNothing (line : List Char) : Prop :=
  ∀ c body, skipSpace line = c :: body → ∀ close ∈ closing? c, ∀ d ∈ body.head?, d = close

theorem value_nil (fuel : Nat) : value fuel [] = none := by
  cases fuel <;> rfl

theorem elements_nil (fuel : Nat) : elements fuel [] = none := by
  cases fuel with
  | zero => rfl
  | succ fuel =>
    rw [elements, value_nil]
    rfl

theorem isFlat_of_value {fuel : Nat} {line rest : List Char} {item : Json}
    (hline : OpensNothing line) (h : value fuel line = some (item, rest)) : item.IsFlat := by
  cases fuel with
  | zero =>
    rw [value] at h
    cases h
  | succ fuel => cases valueForm h with
    | null | true | false => trivial
    | @text _ _ s _ _ => cases s <;> trivial
    | noItems | noMembers => rfl
    | @items body _ _ hcs hopen hbody =>
      cases body with
      | nil =>
        rw [show skipSpace [] = [] from rfl, elements_nil] at hbody
        cases hbody
      | cons d body =>
        obtain rfl := hline _ _ hcs ']' rfl d rfl
        exact absurd (skipSpace_cons (by decide) body) (hopen body)
    | @members body _ _ _ hcs hbody _ =>
      cases body with
      | nil => cases hbody
      | cons d body =>
        obtain rfl := hline _ _ hcs '\x7d' rfl d rfl
        rw [skipSpace_cons (by decide)] at hbody
        exact absurd (List.cons.inj hbody).1 (by decide)
    | number hcs => exact isFlat_of_number hcs

/-! ## Texts whose lines open nothing -/

/-- The text starts, behind blanks, with a character that opens nothing unless it is closed or its
line ends right behind it. -/
def Leads (cs : List Char) : Prop :=
  ∃ spaces c rest, cs = spaces ++ c :: rest ∧ spaces.all isSpace = true ∧ isSpace c = false ∧
    ∀ close ∈ closing? c, ∃ d ∈ rest.head?, d = close ∨ d = '\n'

/-- So does whatever follows a line end. -/
def LeadsLines (cs : List Char) : Prop :=
  ∀ before after, cs = before ++ '\n' :: after → Leads after

variable {cs front back : List Char}

theorem Leads.append (h : Leads front) (back : List Char) : Leads (front ++ back) := by
  obtain ⟨spaces, c, rest, rfl, hspaces, hc, hclose⟩ := h
  refine ⟨spaces, c, rest ++ back, by simp, hspaces, hc, fun close hmem => ?_⟩
  obtain ⟨d, hd, hclosed⟩ := hclose close hmem
  exact ⟨d, by rw [List.head?_append, hd]; rfl, hclosed⟩

theorem leads_cons {c : Char} (hc : isSpace c = false) (hopen : closing? c = none)
    (rest : List Char) : Leads (c :: rest) := by
  refine ⟨[], c, rest, rfl, rfl, hc, ?_⟩
  rw [hopen]
  exact nofun

theorem LeadsLines.append (hfront : LeadsLines front) (hback : LeadsLines back) :
    LeadsLines (front ++ back) := by
  intro before after h
  rcases List.append_eq_append_iff.1 h with ⟨middle, hbefore, hmiddle⟩ | ⟨middle, hmiddle, hafter⟩
  · exact hback middle after hmiddle
  · cases middle with
    | nil => exact hback [] after hafter.symm
    | cons c middle =>
      obtain ⟨rfl, rfl⟩ := List.cons.inj hafter
      exact (hfront before middle hmiddle).append back

theorem leadsLines_of_not_mem (h : '\n' ∉ cs) : LeadsLines cs := by
  rintro before after rfl
  exact absurd (by simp) h

theorem LeadsLines.cons {c : Char} (h : LeadsLines cs) (hc : c ≠ '\n') : LeadsLines (c :: cs) := by
  have hone : LeadsLines [c] := leadsLines_of_not_mem (by simpa using hc.symm)
  exact hone.append h

/-- Behind a written line end there is a line. -/
theorem leadsLines_newline (level : Nat) (hleads : Leads cs) (h : LeadsLines cs) :
    LeadsLines (newline level ++ cs) := by
  have hblank : '\n' ∉ List.replicate (2 * level) ' ' := by simp [List.mem_replicate]
  have hline : Leads (List.replicate (2 * level) ' ' ++ cs) := by
    obtain ⟨spaces, c, rest, rfl, hspaces, hc⟩ := hleads
    refine ⟨List.replicate (2 * level) ' ' ++ spaces, c, rest, by simp, ?_, hc⟩
    rw [List.all_append, hspaces]
    simp [isSpace]
  intro before after heq
  cases before with
  | nil =>
    obtain ⟨-, rfl⟩ := List.cons.inj heq
    exact hline
  | cons c before =>
    exact (leadsLines_of_not_mem hblank).append h before after (List.cons.inj heq).2

/-! ## Values over several lines -/

theorem leads_of_number {item : Json} (h : number cs = some (item, back)) : Leads cs := by
  obtain ⟨c, hhead, hc⟩ := head?_of_number h
  obtain ⟨rest, rfl⟩ := List.head?_eq_some_iff.1 hhead
  refine leads_cons (not_isSpace_of_number hc) ?_ rest
  unfold closing?
  split
  · exact absurd hc (by decide)
  · exact absurd hc (by decide)
  · rfl

theorem leads_prettyChars (level : Nat) (item : Json) : Leads (prettyChars level item) := by
  cases item with
  | null | malformed => exact leads_cons (by decide) rfl _
  | bool b => cases b <;> exact leads_cons (by decide) rfl _
  | int n => exact leads_of_number (number_intChars n)
  | float x =>
    rcases number_floatChars x with hread | ⟨hnull, -⟩
    · exact leads_of_number hread
    · rw [prettyChars, hnull]
      exact leads_cons (by decide) rfl _
  | str s => exact leads_cons (by decide) rfl _
  | arr items =>
    refine ⟨[], '[', (prettyChars level (.arr items)).tail, ?_, rfl, by decide, ?_⟩
    · cases items <;> rw [prettyChars] <;> rfl
    · rintro _ ⟨⟩
      cases items with
      | nil => exact ⟨_, by rw [prettyChars]; rfl, .inl rfl⟩
      | cons item rest => exact ⟨_, by rw [prettyChars]; rfl, .inr rfl⟩
  | obj members =>
    refine ⟨[], '\x7b', (prettyChars level (.obj members)).tail, ?_, rfl, by decide, ?_⟩
    · cases members <;> rw [prettyChars] <;> rfl
    · rintro _ ⟨⟩
      cases members with
      | nil => exact ⟨_, by rw [prettyChars]; rfl, .inl rfl⟩
      | cons member rest => exact ⟨_, by rw [prettyChars]; rfl, .inr rfl⟩

/-- A name starts a line. -/
theorem leadsLines_name (level : Nat) (name : String) : LeadsLines (newline level ++ quoted name) :=
  leadsLines_newline level (leads_cons (by decide) rfl _)
    (leadsLines_of_not_mem (newline_not_mem_quoted name))

/-- What closes an array or an object starts a line. -/
theorem leadsLines_closing (level : Nat) {c : Char} (hc : isSpace c = false)
    (hopen : closing? c = none) : LeadsLines (newline level ++ [c]) := by
  have hline : '\n' ∉ [c] := by
    rw [List.mem_singleton]
    rintro rfl
    exact absurd hc (by decide)
  exact leadsLines_newline level (leads_cons hc hopen []) (leadsLines_of_not_mem hline)

mutual

theorem leadsLines_prettyChars : (item : Json) → ∀ level, LeadsLines (prettyChars level item)
  | .null, _ => leadsLines_of_not_mem (newline_not_mem_chars .null)
  | .bool true, _ => leadsLines_of_not_mem (newline_not_mem_chars (.bool true))
  | .bool false, _ => leadsLines_of_not_mem (newline_not_mem_chars (.bool false))
  | .int n, _ => leadsLines_of_not_mem (newline_not_mem_chars (.int n))
  | .float x, _ => leadsLines_of_not_mem (newline_not_mem_chars (.float x))
  | .str s, _ => leadsLines_of_not_mem (newline_not_mem_chars (.str s))
  | .malformed, _ => leadsLines_of_not_mem (newline_not_mem_chars .malformed)
  | .arr [], _ => leadsLines_of_not_mem (newline_not_mem_chars (.arr []))
  | .obj [], _ => leadsLines_of_not_mem (newline_not_mem_chars (.obj []))
  | .arr (item :: rest), level => by
    have hitem := leadsLines_newline (level + 1) (leads_prettyChars (level + 1) item)
      (leadsLines_prettyChars item (level + 1))
    have hrest := leadsLines_prettyItems rest (level + 1)
    rw [prettyChars, List.append_assoc _ (newline level)]
    exact ((hitem.append hrest).append (leadsLines_closing level (by decide) rfl)).cons (by decide)
  | .obj ((name, item) :: rest), level => by
    have hitem := ((leadsLines_prettyChars item (level + 1)).cons (by decide : ' ' ≠ '\n')).cons
      (by decide : ':' ≠ '\n')
    have hrest := leadsLines_prettyMembers rest (level + 1)
    rw [prettyChars, List.append_assoc _ (newline level)]
    exact ((((leadsLines_name (level + 1) name).append hitem).append hrest).append
      (leadsLines_closing level (by decide) rfl)).cons (by decide)

theorem leadsLines_prettyItems : (items : List Json) → ∀ level, LeadsLines (prettyItems level items)
  | [], _ => leadsLines_of_not_mem List.not_mem_nil
  | item :: rest, level => by
    have hitem := leadsLines_newline level (leads_prettyChars level item)
      (leadsLines_prettyChars item level)
    rw [prettyItems]
    exact (hitem.append (leadsLines_prettyItems rest level)).cons (by decide)

theorem leadsLines_prettyMembers : (members : List (String × Json)) → ∀ level,
    LeadsLines (prettyMembers level members)
  | [], _ => leadsLines_of_not_mem List.not_mem_nil
  | (name, item) :: rest, level => by
    have hitem := ((leadsLines_prettyChars item level).cons (by decide : ' ' ≠ '\n')).cons
      (by decide : ':' ≠ '\n')
    rw [prettyMembers]
    exact (((leadsLines_name level name).append hitem).append
      (leadsLines_prettyMembers rest level)).cons (by decide)

end

/-! ## Single lines -/

/-- What is cut off the end of a line does not matter. -/
theorem OpensNothing.of_append {line ending : List Char} (h : OpensNothing (line ++ ending)) :
    OpensNothing line := by
  intro c body hbody close hclose d hd
  obtain ⟨spaces, hspaces, rfl⟩ := exists_spaces_cons hbody
  refine h c (body ++ ending) ?_ close hclose d ?_
  · rw [List.append_assoc, List.cons_append]
    exact skipSpace_spaces_cons hspaces (isSpace_of_skipSpace hbody) _
  · rw [List.head?_append, hd]
    rfl

/-- The first line of a text that leads so opens nothing. -/
theorem Leads.opensNothing {line rest : List Char} (h : Leads (line ++ rest))
    (hline : '\n' ∉ line) : OpensNothing line := by
  obtain ⟨spaces, c, tail, heq, hspaces, hc, hclose⟩ := h
  intro c' body hbody close hmem d hd
  obtain ⟨spaces', hspaces', rfl⟩ := exists_spaces_cons hbody
  have hskip := congrArg skipSpace heq
  rw [skipSpace_spaces_cons hspaces hc, List.append_assoc, List.cons_append,
    skipSpace_spaces_cons hspaces' (isSpace_of_skipSpace hbody)] at hskip
  obtain ⟨rfl, rfl⟩ := List.cons.inj hskip
  obtain ⟨e, he, hclosed⟩ := hclose close hmem
  rw [List.head?_append, hd] at he
  obtain rfl := Option.some.inj he
  refine hclosed.resolve_right ?_
  rintro rfl
  exact hline (by simp [List.mem_of_mem_head? hd])

theorem opensNothing_of_mem_endedLines (hleads : Leads cs) (h : LeadsLines cs) {line : List Char}
    (hline : line ∈ Text.endedLines cs) : OpensNothing line := by
  induction cs using Text.induction_lines with
  | nil =>
    obtain ⟨spaces, c, rest, hnil, -⟩ := hleads
    exact absurd hnil.symm (by simp)
  | last whole hne hwhole =>
    rw [Text.endedLines_of_not_mem hwhole hne, List.mem_singleton] at hline
    subst hline
    rw [← List.append_nil line] at hleads
    exact hleads.opensNothing hwhole
  | next whole rest hwhole ih =>
    rw [Text.endedLines_append_newline hwhole, List.mem_cons] at hline
    rcases hline with rfl | hline
    · obtain ⟨ending, hend, -, -⟩ := Text.exists_blank_end whole
      have hopens := hleads.opensNothing hwhole
      rw [hend] at hopens
      exact hopens.of_append
    · refine ih (h whole rest rfl) (fun before after heq => h (whole ++ '\n' :: before) after ?_) hline
      rw [heq, List.append_assoc, List.cons_append]

/-- No line of a value over several lines is read as a value with items or members. -/
theorem isFlat_of_line (item : Json) {line : List Char}
    (hline : line ∈ Text.endedLines (prettyChars 0 item)) {result : Json}
    (h : readChars? line = some result) : result.IsFlat := by
  obtain ⟨⟨value, rest⟩, hvalue, hresult⟩ := Option.bind_eq_some_iff.1 h
  have hflat := isFlat_of_value (opensNothing_of_mem_endedLines (leads_prettyChars 0 item)
    (leadsLines_prettyChars item 0) hline) hvalue
  dsimp only at hresult
  split at hresult
  · rwa [← Option.some.inj hresult]
  · exact nomatch hresult

end Json

end TradeGate
