import Mathlib.Data.List.Basic
import Mathlib.Data.List.TakeWhile
import TradeGate.Text.Lines

/-!
# Lines at once and one after the other

The lines that a text is cut into all at once are those that are read off it one after the other
(`Text.endedLines_of_nextLine?`). A text with just one line that is not blank is that line between
blanks (`Text.exists_blanks_around`). Lines can be left out of a text (`Text.keepLines`), and what is
left has the other lines (`Text.endedLines_keepLines`). Lines that are put together with line feeds
between them are read back (`Text.lines_intercalate`).
-/

namespace TradeGate.Text

variable {line rest cs : List Char}

/-! ## The first line -/

/-- A text is empty, or a line that no line feed ends, or a line up to a line feed and a text. -/
@[elab_as_elim]
theorem induction_lines {P : List Char → Prop} (nil : P [])
    (last : ∀ line, line ≠ [] → '\n' ∉ line → P line)
    (next : ∀ line rest, '\n' ∉ line → P rest → P (line ++ '\n' :: rest)) (cs : List Char) :
    P cs := by
  induction hlength : cs.length using Nat.strongRecOn generalizing cs with
  | _ n ih =>
    by_cases hmem : '\n' ∈ cs
    · obtain ⟨line, rest, rfl, hline⟩ := List.eq_append_cons_of_mem hmem
      refine next line rest hline (ih rest.length ?_ rest rfl)
      rw [← hlength, List.length_append, List.length_cons]
      omega
    · cases cs with
      | nil => exact nil
      | cons c others => exact last _ (List.cons_ne_nil _ _) hmem

theorem ne_newline_of_mem (h : '\n' ∉ line) : ∀ c ∈ line, decide (c ≠ '\n') = true :=
  fun _ hc => decide_eq_true fun hsame => h (hsame ▸ hc)

theorem nextLine?_append_newline (h : '\n' ∉ line) (rest : List Char) :
    nextLine? (line ++ '\n' :: rest) = some (withoutReturn line, rest) := by
  obtain ⟨c, others, hcons⟩ : ∃ c others, line ++ '\n' :: rest = c :: others :=
    List.exists_cons_of_ne_nil (by simp)
  have htake : (line ++ '\n' :: rest).takeWhile (· ≠ '\n') = line := by
    rw [List.takeWhile_append_of_pos (ne_newline_of_mem h)]
    simp
  have hdrop : (line ++ '\n' :: rest).dropWhile (· ≠ '\n') = '\n' :: rest := by
    rw [List.dropWhile_append_of_pos (ne_newline_of_mem h)]
    simp
  rw [hcons] at htake hdrop ⊢
  simp only [nextLine?, htake, hdrop]

theorem nextLine?_of_not_mem (h : '\n' ∉ line) (hne : line ≠ []) :
    nextLine? line = some (line, []) := by
  obtain ⟨c, others, rfl⟩ := List.exists_cons_of_ne_nil hne
  have htake := List.takeWhile_eq_self_iff.2 (ne_newline_of_mem h)
  have hdrop := List.dropWhile_eq_nil_iff.2 (ne_newline_of_mem h)
  simp only [nextLine?, htake, hdrop]

theorem eq_nil_of_nextLine?_eq_none (h : nextLine? cs = none) : cs = [] := by
  induction cs using induction_lines with
  | nil => rfl
  | last line hne hline => exact nomatch h.symm.trans (nextLine?_of_not_mem hline hne)
  | next line rest hline _ => exact nomatch h.symm.trans (nextLine?_append_newline hline rest)

/-- The first line of a whole text stays the first when a text follows it. -/
theorem nextLine?_append (h : IsWhole cs) (hline : nextLine? cs = some (line, rest))
    (others : List Char) : nextLine? (cs ++ others) = some (line, rest ++ others) ∧ IsWhole rest := by
  rcases h with rfl | hlast
  · cases hline
  · obtain ⟨first, behind, rfl, hfirst⟩ :=
      List.eq_append_cons_of_mem (List.mem_of_getLast? hlast)
    rw [nextLine?_append_newline hfirst] at hline
    obtain ⟨rfl, rfl⟩ := Prod.mk.inj (Option.some.inj hline)
    rw [List.append_assoc, List.cons_append, nextLine?_append_newline hfirst]
    refine ⟨rfl, ?_⟩
    cases behind with
    | nil => exact Or.inl rfl
    | cons c behind =>
      rw [List.getLast?_append_cons, List.getLast?_cons_cons] at hlast
      exact Or.inr hlast

theorem pieces_append_newline (h : '\n' ∉ line) (rest : List Char) :
    pieces (line ++ '\n' :: rest) = (line ++ ['\n']) :: pieces rest := by
  induction line with
  | nil => simp [pieces]
  | cons c line ih =>
    rw [List.mem_cons, not_or] at h
    rw [List.cons_append, pieces, if_neg (Ne.symm h.1), ih h.2]
    rfl

theorem pieces_of_not_mem (h : '\n' ∉ line) (hne : line ≠ []) : pieces line = [line] := by
  induction line with
  | nil => exact absurd rfl hne
  | cons c line ih =>
    rw [List.mem_cons, not_or] at h
    rw [pieces, if_neg (Ne.symm h.1)]
    cases line with
    | nil => rfl
    | cons d line => rw [ih h.2 (List.cons_ne_nil _ _)]

theorem endedLines_append_newline (h : '\n' ∉ line) (rest : List Char) :
    endedLines (line ++ '\n' :: rest) = withoutReturn line :: endedLines rest := by
  unfold endedLines
  rw [pieces_append_newline h, List.map_cons]
  simp [withoutEnd]

theorem endedLines_of_not_mem (h : '\n' ∉ line) (hne : line ≠ []) : endedLines line = [line] := by
  have hlast : line.getLast? ≠ some '\n' := fun hlast => h (List.mem_of_getLast? hlast)
  unfold endedLines
  rw [pieces_of_not_mem h hne, List.map_singleton, withoutEnd, if_neg hlast]

/-- The line that is read next is the first of the lines, and the others follow it. -/
theorem endedLines_of_nextLine? (h : nextLine? cs = some (line, rest)) :
    endedLines cs = line :: endedLines rest := by
  induction cs using induction_lines with
  | nil => exact nomatch h
  | last whole hne hwhole =>
    obtain ⟨rfl, rfl⟩ := Prod.mk.inj (Option.some.inj (h.symm.trans (nextLine?_of_not_mem hwhole hne)))
    exact endedLines_of_not_mem hwhole hne
  | next whole behind hwhole _ =>
    obtain ⟨rfl, rfl⟩ :=
      Prod.mk.inj (Option.some.inj (h.symm.trans (nextLine?_append_newline hwhole behind)))
    exact endedLines_append_newline hwhole _

/-- The lines that hold more than blanks go with the line that is read next. -/
theorem filledLines_of_nextLine? (h : nextLine? cs = some (line, rest)) :
    filledLines cs = if isBlankText line then filledLines rest else line :: filledLines rest := by
  unfold filledLines
  rw [endedLines_of_nextLine? h, List.filter_cons]
  cases isBlankText line <;> rfl

/-! ## Blanks around a line -/

theorem isBlankText_append (front back : List Char) :
    isBlankText (front ++ back) = (isBlankText front && isBlankText back) :=
  List.all_append

/-- What is cut off a line is blank. -/
theorem exists_blank_end (line : List Char) :
    ∃ ending, line = withoutReturn line ++ ending ∧ isBlankText ending = true ∧ '\n' ∉ ending := by
  unfold withoutReturn
  split
  · rename_i hreturn
    obtain ⟨front, rfl⟩ := List.getLast?_eq_some_iff.1 hreturn
    exact ⟨['\r'], by simp, rfl, by decide⟩
  · exact ⟨[], by simp, rfl, List.not_mem_nil⟩

theorem isBlankText_withoutReturn (line : List Char) :
    isBlankText (withoutReturn line) = isBlankText line := by
  obtain ⟨ending, hline, hending, -⟩ := exists_blank_end line
  have h := congrArg isBlankText hline
  rw [isBlankText_append, hending, Bool.and_true] at h
  exact h.symm

theorem filledLines_append_newline (h : '\n' ∉ line) (rest : List Char) :
    filledLines (line ++ '\n' :: rest) =
      if isBlankText line then filledLines rest else withoutReturn line :: filledLines rest := by
  unfold filledLines
  rw [endedLines_append_newline h, List.filter_cons, isBlankText_withoutReturn]
  cases isBlankText line <;> rfl

theorem filledLines_of_not_mem (h : '\n' ∉ line) (hne : line ≠ []) :
    filledLines line = if isBlankText line then [] else [line] := by
  unfold filledLines
  rw [endedLines_of_not_mem h hne, List.filter_cons]
  cases isBlankText line <;> rfl

/-- A text without a line that holds more than blanks is blank. -/
theorem isBlankText_of_filledLines_eq_nil (h : filledLines cs = []) : isBlankText cs = true := by
  induction cs using induction_lines with
  | nil => rfl
  | last line hne hline =>
    rw [filledLines_of_not_mem hline hne] at h
    by_contra hfilled
    rw [if_neg hfilled] at h
    exact nomatch h
  | next line rest hline ih =>
    rw [filledLines_append_newline hline] at h
    split at h
    · rename_i hblank
      rw [isBlankText_append, hblank]
      exact ih h
    · exact nomatch h

/-- A blank text has no line that holds more than blanks. -/
theorem filledLines_eq_nil_of_isBlankText (h : isBlankText cs = true) : filledLines cs = [] := by
  induction cs using induction_lines with
  | nil => rfl
  | last line hne hline => rw [filledLines_of_not_mem hline hne, if_pos h]
  | next line rest hline ih =>
    rw [isBlankText_append, Bool.and_eq_true] at h
    rw [filledLines_append_newline hline, if_pos h.1]
    exact ih h.2

/-- Before the first line that holds more than blanks there are blanks, and behind it is the end of
the line with the other lines. -/
theorem exists_blanks_before {others : List (List Char)} (h : filledLines cs = line :: others) :
    ∃ before after, cs = before ++ (line ++ after) ∧ isBlankText before = true ∧
      (∀ c ∈ after.head?, isBlank c = true) ∧ filledLines after = others := by
  induction cs using induction_lines with
  | nil => exact nomatch h
  | last whole hne hwhole =>
    rw [filledLines_of_not_mem hwhole hne] at h
    split at h
    · exact nomatch h
    · obtain ⟨rfl, rfl⟩ := List.cons.inj h
      exact ⟨[], [], by simp, rfl, nofun, rfl⟩
  | next whole rest hwhole ih =>
    rw [filledLines_append_newline hwhole] at h
    split at h
    · rename_i hblank
      obtain ⟨before, after, rfl, hbefore, hafter⟩ := ih h
      refine ⟨whole ++ '\n' :: before, after, by simp, ?_, hafter⟩
      rw [isBlankText_append, hblank]
      exact hbefore
    · obtain ⟨rfl, rfl⟩ := List.cons.inj h
      obtain ⟨ending, hline, hending, hnot⟩ := exists_blank_end whole
      refine ⟨[], ending ++ '\n' :: rest, ?_, rfl, ?_, ?_⟩
      · rw [List.nil_append, ← List.append_assoc, ← hline]
      · intro c hc
        cases ending with
        | nil =>
          obtain rfl := Option.some.inj hc
          rfl
        | cons d tail =>
          obtain rfl := Option.some.inj hc
          exact List.all_eq_true.1 hending d List.mem_cons_self
      · rw [filledLines_append_newline hnot, if_pos hending]

/-- A text with just one line that holds more than blanks is that line between blanks. -/
theorem exists_blanks_around (h : filledLines cs = [line]) :
    ∃ before after, cs = before ++ (line ++ after) ∧ isBlankText before = true ∧
      isBlankText after = true := by
  obtain ⟨before, after, hcs, hbefore, -, hafter⟩ := exists_blanks_before h
  exact ⟨before, after, hcs, hbefore, isBlankText_of_filledLines_eq_nil hafter⟩

/-! ## Leaving out lines -/

/-- The text with those of its lines that are kept, each with what ends it. -/
def keepLines (keep : List Char → Bool) (cs : List Char) : List Char :=
  ((pieces cs).filter fun piece => keep (withoutEnd piece)).flatten

variable {keep : List Char → Bool}

theorem keepLines_append_newline (h : '\n' ∉ line) (rest : List Char) :
    keepLines keep (line ++ '\n' :: rest) =
      (if keep (withoutReturn line) then line ++ ['\n'] else []) ++ keepLines keep rest := by
  have hend : withoutEnd (line ++ ['\n']) = withoutReturn line := by simp [withoutEnd]
  unfold keepLines
  rw [pieces_append_newline h, List.filter_cons, hend]
  split <;> rfl

theorem keepLines_of_not_mem (h : '\n' ∉ line) (hne : line ≠ []) :
    keepLines keep line = if keep line then line else [] := by
  have hlast : line.getLast? ≠ some '\n' := fun hlast => h (List.mem_of_getLast? hlast)
  unfold keepLines
  rw [pieces_of_not_mem h hne, List.filter_cons, withoutEnd, if_neg hlast]
  split <;> simp

/-- The lines that are left are those that are kept. -/
theorem endedLines_keepLines (keep : List Char → Bool) (cs : List Char) :
    endedLines (keepLines keep cs) = (endedLines cs).filter keep := by
  induction cs using induction_lines with
  | nil => rfl
  | last line hne hline =>
    rw [keepLines_of_not_mem hline hne, endedLines_of_not_mem hline hne, List.filter_cons]
    split
    · exact endedLines_of_not_mem hline hne
    · rfl
  | next line rest hline ih =>
    rw [keepLines_append_newline hline, endedLines_append_newline hline, List.filter_cons]
    split
    · rw [List.append_assoc, List.singleton_append, endedLines_append_newline hline, ih]
    · exact ih

/-- Of the lines that hold more than blanks those are left that are kept. -/
theorem filledLines_keepLines (keep : List Char → Bool) (cs : List Char) :
    filledLines (keepLines keep cs) = (filledLines cs).filter keep := by
  unfold filledLines
  rw [endedLines_keepLines, List.filter_filter, List.filter_filter]
  exact List.filter_congr fun _ _ => Bool.and_comm _ _

/-! ## Lines put together -/

theorem lines_of_not_mem (h : '\n' ∉ line) (hne : line ≠ []) : lines line = [line] := by
  induction line with
  | nil => exact absurd rfl hne
  | cons c line ih =>
    rw [List.mem_cons, not_or] at h
    rw [lines, if_neg (Ne.symm h.1)]
    cases line with
    | nil => rfl
    | cons d line => rw [ih h.2 (List.cons_ne_nil _ _)]

theorem not_mem_withoutReturn {c : Char} (h : c ∉ line) : c ∉ withoutReturn line := by
  obtain ⟨ending, hline, -⟩ := exists_blank_end line
  intro hmem
  apply h
  rw [hline]
  exact List.mem_append_left ending hmem

theorem newline_not_mem_of_mem_endedLines (h : line ∈ endedLines cs) : '\n' ∉ line := by
  induction cs using induction_lines with
  | nil => exact absurd h List.not_mem_nil
  | last whole hne hwhole =>
    rw [endedLines_of_not_mem hwhole hne, List.mem_singleton] at h
    rwa [h]
  | next whole rest hwhole ih =>
    rw [endedLines_append_newline hwhole, List.mem_cons] at h
    rcases h with rfl | h
    · exact not_mem_withoutReturn hwhole
    · exact ih h

theorem withoutReturn_eq_self_iff : withoutReturn line = line ↔ line.getLast? ≠ some '\r' := by
  unfold withoutReturn
  split
  · rename_i hreturn
    obtain ⟨front, rfl⟩ := List.getLast?_eq_some_iff.1 hreturn
    simp
  · rename_i hother
    exact iff_of_true rfl hother

section Joined

variable {joined : List (List Char)} (h : ∀ line ∈ joined, '\n' ∉ line)
  (hlast : joined.getLast? ≠ some [])

include h hlast

/-- Lines with line feeds between them are cut apart at these. -/
theorem lines_intercalate : lines (['\n'].intercalate joined) = joined := by
  induction joined with
  | nil => rfl
  | cons line rest ih =>
    obtain ⟨hline, hrest⟩ := List.forall_mem_cons.1 h
    cases rest with
    | nil =>
      rw [List.intercalate_singleton]
      exact lines_of_not_mem hline (by simpa using hlast)
    | cons next others =>
      rw [List.getLast?_cons_cons] at hlast
      rw [List.intercalate_cons_cons, List.append_assoc, List.singleton_append,
        lines_append_newline hline, ih hrest hlast]

/-- So they are by readers that take a carriage return before a line feed for a part of it, unless
such a line ends with one. -/
theorem endedLines_intercalate_iff :
    endedLines (['\n'].intercalate joined) = joined ↔
      ∀ line ∈ joined.dropLast, line.getLast? ≠ some '\r' := by
  induction joined with
  | nil => exact iff_of_true rfl nofun
  | cons line rest ih =>
    obtain ⟨hline, hrest⟩ := List.forall_mem_cons.1 h
    cases rest with
    | nil =>
      rw [List.intercalate_singleton]
      exact iff_of_true (endedLines_of_not_mem hline (by simpa using hlast)) nofun
    | cons next others =>
      rw [List.getLast?_cons_cons] at hlast
      rw [List.intercalate_cons_cons, List.append_assoc, List.singleton_append,
        endedLines_append_newline hline, List.cons.injEq, withoutReturn_eq_self_iff,
        ih hrest hlast, List.dropLast_cons_cons, List.forall_mem_cons]

end Joined

end TradeGate.Text
