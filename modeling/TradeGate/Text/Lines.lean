import TradeGate.Text.Blank
import TradeGate.Text.Front

/-!
# Lines

A text as the lines between its line feeds (`lines`), where a carriage return before a line feed
stays with its line, and as the lines without what ends them: all at once (`endedLines`) or one
after the other (`nextLine?`). Main statements: no line holds a line feed
(`newline_not_mem_of_mem_lines`), and what follows a whole text has lines of its own
(`lines_append`).
-/

namespace TradeGate.Text

/-- The lines of a text. A line feed at the end of the text starts no line. -/
def lines : List Char → List (List Char)
  | [] => []
  | c :: rest =>
    if c = '\n' then [] :: lines rest
    else match lines rest with
      | [] => [[c]]
      | line :: others => (c :: line) :: others

/-! ## Lines without their ends -/

/-- The pieces of a text up to and with each line feed, and what is behind the last one. -/
def pieces : List Char → List (List Char)
  | [] => []
  | c :: rest =>
    if c = '\n' then ['\n'] :: pieces rest
    else match pieces rest with
      | [] => [[c]]
      | piece :: others => (c :: piece) :: others

/-- A line without a carriage return at its end. -/
def withoutReturn (line : List Char) : List Char :=
  if line.getLast? = some '\r' then line.dropLast else line

/-- A piece without a line feed at its end, and then without a carriage return before that. A
carriage return that no line feed follows stays. -/
def withoutEnd (piece : List Char) : List Char :=
  if piece.getLast? = some '\n' then withoutReturn piece.dropLast else piece

/-- The lines of a text without what ends them. -/
def endedLines (cs : List Char) : List (List Char) := (pieces cs).map withoutEnd

/-- Lines that hold more than blanks. -/
def filledLines (cs : List Char) : List (List Char) :=
  (endedLines cs).filter fun line => !isBlankText line

/-- The first line of a text without what ends it, and what is behind that. The end of the text
ends a line too. -/
def nextLine? : Front (List Char)
  | [] => none
  | cs =>
    let line := cs.takeWhile (· ≠ '\n')
    match cs.dropWhile (· ≠ '\n') with
    | [] => some (line, [])
    | _ :: rest => some (withoutReturn line, rest)

/-- Reading a line leaves less to read. -/
theorem length_lt_of_nextLine? {cs line rest : List Char} (h : nextLine? cs = some (line, rest)) :
    rest.length < cs.length := by
  cases cs with
  | nil => exact nomatch h
  | cons c others =>
    have hlength := (List.dropWhile_sublist (p := (· ≠ '\n')) (l := c :: others)).length_le
    simp only [nextLine?] at h
    split at h
    · obtain ⟨-, rfl⟩ := Prod.mk.inj (Option.some.inj h)
      exact Nat.zero_lt_succ _
    · rename_i heq
      obtain ⟨-, rfl⟩ := Prod.mk.inj (Option.some.inj h)
      rw [heq, List.length_cons] at hlength
      exact hlength

/-! ## What lines hold -/

theorem newline_not_mem_of_mem_lines {cs line : List Char} (h : line ∈ lines cs) :
    '\n' ∉ line := by
  induction cs generalizing line with
  | nil => simp [lines] at h
  | cons c rest ih =>
    by_cases hc : c = '\n'
    · simp only [lines, hc, if_true, List.mem_cons] at h
      rcases h with rfl | h
      · simp
      · exact ih h
    · cases hl : lines rest with
      | nil =>
        simp only [lines, hc, hl, if_false, List.mem_singleton] at h
        subst h
        simpa using fun h' => hc h'.symm
      | cons first others =>
        simp only [lines, hc, hl, if_false, List.mem_cons] at h
        rcases h with rfl | h
        · have := @ih first (by simp [hl])
          simp only [List.mem_cons, not_or]
          exact ⟨fun h' => hc h'.symm, this⟩
        · exact ih (by simp [hl, h])

/-- The text is empty or ends with a line feed, so that what follows starts a line. -/
def IsWhole (cs : List Char) : Prop := cs = [] ∨ cs.getLast? = some '\n'

instance (cs : List Char) : Decidable (IsWhole cs) :=
  inferInstanceAs (Decidable (_ ∨ _))

theorem lines_ne_nil {cs : List Char} (h : cs ≠ []) : lines cs ≠ [] := by
  cases cs with
  | nil => exact absurd rfl h
  | cons c rest =>
    rw [lines]
    split
    · exact List.cons_ne_nil _ _
    · split <;> exact List.cons_ne_nil _ _

theorem lines_append {cs : List Char} (h : IsWhole cs) (others : List Char) :
    lines (cs ++ others) = lines cs ++ lines others := by
  induction cs with
  | nil => rfl
  | cons c rest ih =>
    have hlast : (c :: rest).getLast? = some '\n' := h.resolve_left (List.cons_ne_nil _ _)
    cases rest with
    | nil =>
      obtain rfl : c = '\n' := by simpa using hlast
      simp [lines]
    | cons next rest =>
      have hrest := ih (Or.inr (by rwa [List.getLast?_cons_cons] at hlast))
      obtain ⟨first, after, hfirst⟩ := List.exists_cons_of_ne_nil
        (lines_ne_nil (List.cons_ne_nil next rest))
      rw [List.cons_append, lines, hrest, hfirst, lines, hfirst]
      split <;> rfl

theorem lines_append_newline {line : List Char} (h : '\n' ∉ line) (others : List Char) :
    lines (line ++ '\n' :: others) = line :: lines others := by
  induction line with
  | nil => simp [lines]
  | cons c rest ih =>
    rw [List.mem_cons, not_or] at h
    rw [List.cons_append, lines, if_neg (Ne.symm h.1), ih h.2]

/-- Lines without line feeds of their own, each ended by one, are read back. -/
theorem lines_flatMap {written : List (List Char)} (h : ∀ line ∈ written, '\n' ∉ line) :
    lines (written.flatMap (· ++ ['\n'])) = written := by
  induction written with
  | nil => rfl
  | cons line rest ih =>
    rw [List.forall_mem_cons] at h
    rw [List.flatMap_cons, List.append_assoc, List.singleton_append, lines_append_newline h.1,
      ih h.2]

end TradeGate.Text
