import TradeGate.Alert.Basic
import TradeGate.Proofs.Text.Lines
import TradeGate.Proofs.Time.Calendar

/-!
# The lines of an alert

The text of an alert has a row for each field: a label and the value behind it (`Alert.rows`). Three
values are taken over from elsewhere as they are: the symbol, the message and the evaluation id; the
others are written here and hold no line ends. So the text has just the eleven lines of its rows,
and every field is read back from its own line, exactly if none of the three holds a line feed
(`Alert.readsBack_of_block`). One that does adds lines which look like rows.
-/

namespace TradeGate

/-! ## Texts without line ends -/

namespace Text

/-- The text holds neither line feeds nor carriage returns. -/
def Unbroken (s : String) : Prop := '\n' ∉ s.toList ∧ '\r' ∉ s.toList

instance (s : String) : Decidable (Unbroken s) := inferInstanceAs (Decidable (_ ∧ _))

/-- A text of digits and some other characters is unbroken if those are not line ends. -/
theorem unbroken_of_forall {s : String} (others : List Char)
    (hothers : '\n' ∉ others ∧ '\r' ∉ others)
    (h : ∀ c ∈ s.toList, c.isDigit = true ∨ c ∈ others) : Unbroken s := by
  refine ⟨fun hmem => ?_, fun hmem => ?_⟩
  · exact (h _ hmem).elim (by decide) hothers.1
  · exact (h _ hmem).elim (by decide) hothers.2

/-- For texts written out, whose characters the kernel has without decoding them. -/
theorem unbroken_ofList {chars : List Char} (h : '\n' ∉ chars ∧ '\r' ∉ chars) :
    Unbroken (String.ofList chars) := by
  unfold Unbroken
  rw [String.toList_ofList]
  exact h

theorem Unbroken.append {a b : String} (ha : Unbroken a) (hb : Unbroken b) :
    Unbroken (a ++ b) := by
  unfold Unbroken at *
  rw [String.toList_append, List.mem_append, List.mem_append, not_or, not_or]
  exact ⟨⟨ha.1, hb.1⟩, ha.2, hb.2⟩

end Text

open Text (Unbroken unbroken_ofList unbroken_of_forall)

theorem Verdict.unbroken_code (verdict : Verdict) : Unbroken verdict.code := by
  cases verdict <;> exact unbroken_ofList (by decide)

theorem Severity.unbroken_code (severity : Severity) : Unbroken severity.code := by
  cases severity <;> exact unbroken_ofList (by decide)

theorem Category.unbroken_code (category : Category) : Unbroken category.code := by
  cases category <;> exact unbroken_ofList (by decide)

theorem Reason.unbroken_code (reason : Reason) : Unbroken reason.code := by
  cases reason <;> exact unbroken_ofList (by decide)

theorem TradeIntent.unbroken_directionText (intent : Option TradeIntent) :
    Unbroken (directionText intent) := by
  cases intent with
  | none => decide
  | some intent =>
    show Unbroken intent.direction.code
    cases intent.direction <;> decide

theorem Binary64.unbroken_fixed (places : Nat) (x : Binary64) : Unbroken (x.fixed places) := by
  cases x with
  | nan =>
    show Unbroken "NaN"
    decide
  | infinity negative =>
    show Unbroken (if negative then "-inf" else "inf")
    cases negative <;> decide
  | finite negative units h =>
    refine unbroken_of_forall ['-', '.'] (by decide) fun c hc => ?_
    unfold fixed at hc
    dsimp only at hc
    generalize hwritten : Numeral.padded _ _ = written at hc
    have hdigit : ∀ d ∈ written, d.isDigit = true := by
      rw [← hwritten]
      exact fun _ => Numeral.isDigit_of_mem_padded
    rw [String.toList_ofList, List.mem_append] at hc
    rcases hc with hsign | hc
    · right
      split at hsign <;> simp_all
    · split at hc
      · exact .inl (hdigit c hc)
      · rcases List.mem_append.1 hc with hwhole | hplaces
        · exact .inl (hdigit c (List.mem_of_mem_take hwhole))
        · rcases List.mem_cons.1 hplaces with rfl | hplaces
          · exact .inr (by decide)
          · exact .inl (hdigit c (List.mem_of_mem_drop hplaces))

theorem Instant.mem_clockChars {t : Instant} {c : Char} (hc : c ∈ t.clockChars) :
    c.isDigit = true ∨ c = ':' := by
  unfold clockChars Date.twoDigits at hc
  simp only [List.mem_append, List.mem_cons] at hc
  rcases hc with (hhour | rfl | hminute) | rfl | hsecond
  · exact .inl (Numeral.isDigit_of_mem_padded hhour)
  · exact .inr rfl
  · exact .inl (Numeral.isDigit_of_mem_padded hminute)
  · exact .inr rfl
  · exact .inl (Numeral.isDigit_of_mem_padded hsecond)

theorem Instant.unbroken_legible (t : Instant) : Unbroken t.legible := by
  refine unbroken_of_forall "-+ :UTC".toList (by decide) fun c hc => ?_
  unfold legible at hc
  rw [String.toList_ofList, List.mem_append, List.mem_append, List.mem_cons] at hc
  rcases hc with (hdate | rfl | hclock) | hzone
  · rcases Date.mem_chars hdate with hdigit | rfl | rfl
    · exact .inl hdigit
    · exact .inr (by decide)
    · exact .inr (by decide)
  · exact .inr (by decide)
  · rcases Instant.mem_clockChars hclock with hdigit | rfl
    · exact .inl hdigit
    · exact .inr (by decide)
  · right
    have hsub : " UTC".toList ⊆ "-+ :UTC".toList := by decide
    exact hsub hzone

/-! ## The rows -/

theorem Text.dropWord?_append (word rest : List Char) :
    dropWord? word (word ++ rest) = some rest := by
  unfold dropWord?
  rw [if_pos (List.isPrefixOf_iff_prefix.2 (List.prefix_append word rest)), List.drop_left]

namespace Alert

/-- What stands in front of a value on its line, and the value. -/
def rows (alert : Alert) : List (String × String) :=
  [(alert.severity.marker ++ " ", alert.title),
    ("Decision: ", Verdict.block.code),
    ("Symbol: ", alert.symbol),
    ("Direction: ", alert.direction),
    ("Reason: ", alert.reason.code),
    ("Category: ", alert.category.code),
    ("Severity: ", alert.severity.code),
    ("Message: ", alert.message),
    ("Eval Time: ", millisText alert.evaluationTimeMs),
    ("Time: ", alert.timestamp.legible),
    ("ID: ", alert.evaluationId)]

/-- A label and a value on one line. -/
def rowChars (row : String × String) : List Char := row.1.toList ++ row.2.toList

/-- Where its text is cut into lines in this way, it has just the lines of the rows, and each value
is read back from its own line, behind its label. -/
structure ReadsBack (cut : List Char → List (List Char)) (alert : Alert) : Prop where
  lines_eq : cut alert.text.toList = alert.rows.map rowChars
  value_eq : ∀ (n : Nat) (label value : String), alert.rows[n]? = some (label, value) →
    (cut alert.text.toList)[n]?.bind (Text.dropWord? label.toList) = some value.toList

/-- The values that are taken over as they are. -/
def quoted (alert : Alert) : List String := [alert.symbol, alert.message, alert.evaluationId]

theorem toList_text (alert : Alert) :
    alert.text.toList = ['\n'].intercalate (alert.rows.map rowChars) := by
  have hlines : alert.lines.map String.toList = alert.rows.map rowChars := by
    show (alert.rows.map fun row => row.1 ++ row.2).map String.toList = _
    rw [List.map_map]
    exact List.map_congr_left fun _ _ => String.toList_append
  unfold text
  rw [String.toList_intercalate, hlines]
  rfl

theorem readsBack_of_lines_eq {cut : List Char → List (List Char)} {alert : Alert}
    (h : cut alert.text.toList = alert.rows.map rowChars) : ReadsBack cut alert where
  lines_eq := h
  value_eq := by
    intro n label value hrow
    rw [h, List.getElem?_map, hrow]
    exact Text.dropWord?_append label.toList value.toList

theorem readsBack_iff {cut : List Char → List (List Char)} {alert : Alert} :
    ReadsBack cut alert ↔ cut alert.text.toList = alert.rows.map rowChars :=
  ⟨ReadsBack.lines_eq, readsBack_of_lines_eq⟩

theorem getLast?_rows_ne (alert : Alert) : (alert.rows.map rowChars).getLast? ≠ some [] := by
  show some ("ID: ".toList ++ alert.evaluationId.toList) ≠ some []
  intro h
  exact absurd (List.append_eq_nil_iff.1 (Option.some.inj h)).1 (by decide)

/-- Every label is unbroken and ends with a space. -/
theorem label_of_mem_rows {alert : Alert} : ∀ row ∈ alert.rows,
    Unbroken row.1 ∧ row.1.toList.getLast? = some ' ' := by
  have hmarker : Unbroken (alert.severity.marker ++ " ") ∧
      (alert.severity.marker ++ " ").toList.getLast? = some ' ' := by
    cases alert.severity <;> decide
  intro row hrow
  rcases List.mem_cons.1 hrow with rfl | hrow
  · exact hmarker
  · have hlabel : row.1 ∈ ["Decision: ", "Symbol: ", "Direction: ", "Reason: ", "Category: ",
        "Severity: ", "Message: ", "Eval Time: ", "Time: ", "ID: "] :=
      List.mem_map_of_mem hrow
    have hlabels : ∀ label ∈ ["Decision: ", "Symbol: ", "Direction: ", "Reason: ", "Category: ",
        "Severity: ", "Message: ", "Eval Time: ", "Time: ", "ID: "],
        Unbroken label ∧ label.toList.getLast? = some ' ' := by
      decide
    exact hlabels _ hlabel

/-- Where a row has `P` exactly if its value has it, and the values that are not taken over have it
anyway, all rows have it exactly if the values that are taken over do. -/
theorem forall_rowChars_iff {P : List Char → Prop} {rows : List (String × String)}
    {taken : List String} (hrow : ∀ row ∈ rows, P (rowChars row) ↔ P row.2.toList)
    (hvalue : ∀ row ∈ rows, P row.2.toList ∨ row.2 ∈ taken)
    (htaken : ∀ s ∈ taken, ∃ row ∈ rows, row.2 = s) :
    (∀ chars ∈ rows.map rowChars, P chars) ↔ ∀ s ∈ taken, P s.toList := by
  rw [List.forall_mem_map]
  constructor
  · intro h s hs
    obtain ⟨row, hmem, rfl⟩ := htaken s hs
    exact (hrow row hmem).1 (h row hmem)
  · intro h row hmem
    exact (hrow row hmem).2 ((hvalue row hmem).elim id (h row.2))

section Block

variable {alert : Alert} (htitle : Unbroken alert.title) (hdirection : Unbroken alert.direction)

include htitle hdirection

/-- In front of the last row, what is not written here is the symbol or the message. -/
theorem value_of_mem_rows : ∀ row ∈ alert.rows.dropLast,
    Unbroken row.2 ∨ row.2 ∈ [alert.symbol, alert.message] := by
  have hmillis : Unbroken (millisText alert.evaluationTimeMs) :=
    (Binary64.unbroken_fixed 2 _).append (by decide)
  simp only [rows, List.dropLast_cons_cons, List.dropLast_singleton, List.forall_mem_cons]
  exact ⟨.inl htitle, .inl (Verdict.unbroken_code _), .inr List.mem_cons_self, .inl hdirection,
    .inl (Reason.unbroken_code _), .inl (Category.unbroken_code _), .inl (Severity.unbroken_code _),
    .inr (List.mem_cons_of_mem _ List.mem_cons_self), .inl hmillis,
    .inl (Instant.unbroken_legible _), nofun⟩

theorem forall_newline_iff : (∀ chars ∈ alert.rows.map rowChars, '\n' ∉ chars) ↔
    ∀ s ∈ alert.quoted, '\n' ∉ s.toList := by
  refine forall_rowChars_iff (P := fun chars => '\n' ∉ chars) ?_ ?_ ?_
  · intro row hrow
    unfold rowChars
    rw [List.mem_append, not_or, and_iff_right (label_of_mem_rows row hrow).1.1]
  · -- in the last row stands the id, and in front of it what `value_of_mem_rows` tells
    intro row hrow
    have hsplit : alert.rows = alert.rows.dropLast ++ [("ID: ", alert.evaluationId)] := rfl
    rw [hsplit, List.mem_append, List.mem_singleton] at hrow
    rcases hrow with hfront | rfl
    · refine (value_of_mem_rows htitle hdirection row hfront).imp And.left fun hvalue => ?_
      exact List.mem_append_left [alert.evaluationId] hvalue
    · exact .inr (by simp [quoted])
  · simp only [quoted, List.forall_mem_cons]
    exact ⟨⟨("Symbol: ", alert.symbol), by simp [rows], rfl⟩,
      ⟨("Message: ", alert.message), by simp [rows], rfl⟩,
      ⟨("ID: ", alert.evaluationId), by simp [rows], rfl⟩, nofun⟩

theorem forall_return_iff :
    (∀ chars ∈ (alert.rows.map rowChars).dropLast, chars.getLast? ≠ some '\r') ↔
      ∀ s ∈ [alert.symbol, alert.message], s.toList.getLast? ≠ some '\r' := by
  rw [← List.map_dropLast]
  refine forall_rowChars_iff (P := fun chars => chars.getLast? ≠ some '\r') ?_ ?_ ?_
  · intro row hrow
    have hlabel := (label_of_mem_rows row (List.dropLast_subset _ hrow)).2
    unfold rowChars
    rw [List.getLast?_append, hlabel]
    cases row.2.toList.getLast? with
    | none => decide
    | some c => exact Iff.rfl
  · intro row hrow
    refine (value_of_mem_rows htitle hdirection row hrow).imp_left fun hvalue hlast => ?_
    exact hvalue.2 (List.mem_of_getLast? hlast)
  · simp only [List.forall_mem_cons]
    exact ⟨⟨("Symbol: ", alert.symbol), by simp [rows], rfl⟩,
      ⟨("Message: ", alert.message), by simp [rows], rfl⟩, nofun⟩

/-- Cut at its line feeds the text reads back exactly if no value brings a line feed. -/
theorem readsBack_lines_iff :
    ReadsBack Text.lines alert ↔ ∀ s ∈ alert.quoted, '\n' ∉ s.toList := by
  rw [← forall_newline_iff htitle hdirection, readsBack_iff]
  constructor
  · intro h chars hchars
    rw [← h] at hchars
    exact Text.newline_not_mem_of_mem_lines hchars
  · intro h
    rw [toList_text]
    exact Text.lines_intercalate h alert.getLast?_rows_ne

/-- Readers that take a carriage return before a line feed for a part of it also need that the
symbol and the message do not end with one. -/
theorem readsBack_endedLines_iff :
    ReadsBack Text.endedLines alert ↔ (∀ s ∈ alert.quoted, '\n' ∉ s.toList) ∧
      ∀ s ∈ [alert.symbol, alert.message], s.toList.getLast? ≠ some '\r' := by
  rw [← forall_newline_iff htitle hdirection, ← forall_return_iff htitle hdirection, readsBack_iff]
  constructor
  · intro h
    have hnewline : ∀ chars ∈ alert.rows.map rowChars, '\n' ∉ chars := by
      intro chars hchars
      rw [← h] at hchars
      exact Text.newline_not_mem_of_mem_endedLines hchars
    rw [toList_text] at h
    exact ⟨hnewline, (Text.endedLines_intercalate_iff hnewline alert.getLast?_rows_ne).1 h⟩
  · rintro ⟨hnewline, hreturn⟩
    rw [toList_text]
    exact (Text.endedLines_intercalate_iff hnewline alert.getLast?_rows_ne).2 hreturn

end Block

/-! ## Alerts of decisions -/

/-- A block with a reason has an alert, whose title and direction are written here. -/
theorem exists_ofDecision? {decision : Decision} (hblock : decision.isBlock = true)
    (hreason : decision.reason.isSome = true) : ∃ alert, ofDecision? decision = some alert ∧
      Unbroken alert.title ∧ Unbroken alert.direction := by
  obtain ⟨reason, hreason⟩ := Option.isSome_iff_exists.1 hreason
  unfold ofDecision?
  rw [if_pos hblock, hreason]
  refine ⟨_, rfl, ?_, TradeIntent.unbroken_directionText _⟩
  have hopening : Unbroken "TRADE BLOCKED [" := by decide
  have hclosing : Unbroken "]" := by decide
  exact (hopening.append (Severity.unbroken_code _)).append hclosing

/-- The text of the alert of a block has just the eleven lines of its rows, and every value is read
back from its own line, exactly if the symbol, the message and the evaluation id hold no line feed;
for readers that drop a carriage return before a line feed, if moreover the symbol and the message
do not end with one. -/
theorem readsBack_of_block (decision : Decision) (hblock : decision.isBlock = true)
    (hreason : decision.reason.isSome = true) : ∃ alert, ofDecision? decision = some alert ∧
      (ReadsBack Text.lines alert ↔ ∀ s ∈ alert.quoted, '\n' ∉ s.toList) ∧
      (ReadsBack Text.endedLines alert ↔ (∀ s ∈ alert.quoted, '\n' ∉ s.toList) ∧
        ∀ s ∈ [alert.symbol, alert.message], s.toList.getLast? ≠ some '\r') := by
  obtain ⟨alert, halert, htitle, hdirection⟩ := exists_ofDecision? hblock hreason
  exact ⟨alert, halert, readsBack_lines_iff htitle hdirection,
    readsBack_endedLines_iff htitle hdirection⟩

/-! ## Sample blocks -/

/-- A block of a long trade in a symbol, by an exchange that cannot be reached. -/
def unreachable (symbol : String) : Decision :=
  let violation := Violation.of .exchangeUnreachable .critical "Exchange unreachable"
  .block "GUARD-19700101000000000000-r-1"
    (some ⟨"r-1", symbol, .long, .hundred, .epoch, none⟩)
    (violation.toFinding "ExecutionSafetyValidator" (.ofNat 0)) [] (.ofNat 0) .epoch

theorem readsBack_unreachable :
    (unreachable "BTCUSDT").isBlock = true ∧ (unreachable "BTCUSDT").reason.isSome = true ∧
      ∃ alert, ofDecision? (unreachable "BTCUSDT") = some alert ∧ ReadsBack Text.lines alert ∧
        ReadsBack Text.endedLines alert := by
  have hblock : (unreachable "BTCUSDT").isBlock = true := rfl
  have hreason : (unreachable "BTCUSDT").reason.isSome = true := rfl
  obtain ⟨alert, halert, hlines, hended⟩ := readsBack_of_block _ hblock hreason
  obtain rfl := Option.some.inj halert
  exact ⟨hblock, hreason, _, halert, hlines.2 (by decide), hended.2 (by decide)⟩

/-- A symbol with a line feed forges the line of the direction. -/
theorem not_readsBack_forged :
    ∃ alert, ofDecision? (unreachable "BTCUSDT\nDirection: SHORT") = some alert ∧
      alert.direction = "LONG" ∧
      (Text.endedLines alert.text.toList)[3]? = some "Direction: SHORT".toList ∧
      (Text.endedLines alert.text.toList).length = 12 ∧
      ¬ ReadsBack Text.lines alert ∧ ¬ ReadsBack Text.endedLines alert := by
  refine ⟨_, rfl, rfl, ?_, ?_, fun h => ?_, fun h => ?_⟩
  · rw [toList_text]
    decide +kernel
  · rw [toList_text]
    decide +kernel
  · refine absurd ((readsBack_lines_iff ?_ ?_).1 h) ?_ <;> decide
  · refine absurd ((readsBack_endedLines_iff ?_ ?_).1 h).1 ?_ <;> decide

end Alert

end TradeGate
