import TradeGate.Audit.AlertRecord
import TradeGate.Decision.Basic
import TradeGate.Proofs.Json.Codec

/-!
# Decisions and alerts are read back

A decision is read back from what is written of it as far as its numbers are and its details can be
expressed in JSON (`Decision.Legible`); every alert is (`AlertRecord.recovers`).
-/

namespace TradeGate

/-! ## Ids -/

namespace RecordId

-- Powers are those of the core library.
attribute [local instance (high)] instPowNat

/-- Groups of digits are put together again. -/
theorem withoutHyphens?_hyphenated {sizes : List Nat} (hsizes : sizes ≠ []) {digits : List Char}
    (hlength : digits.length = sizes.foldr (· + ·) 0) :
    withoutHyphens? sizes (hyphenated sizes digits) = some digits := by
  induction sizes generalizing digits with
  | nil => exact absurd rfl hsizes
  | cons size sizes ih =>
    cases sizes with
    | nil =>
      have hsize : digits.length = size := by simpa using hlength
      have htake : digits.take size = digits := List.take_of_length_le (Nat.le_of_eq hsize)
      rw [hyphenated, htake, withoutHyphens?, if_pos hsize]
    | cons next sizes =>
      rw [List.foldr_cons] at hlength
      have hfront : (digits.take size).length = size := by
        rw [List.length_take]
        omega
      have hback : (digits.drop size).length = (next :: sizes).foldr (· + ·) 0 := by
        rw [List.length_drop]
        omega
      have hrest := ih (List.cons_ne_nil next sizes) hback
      have hsplit : digits.take size ++ digits.drop size = digits := List.take_append_drop size digits
      rw [hyphenated, withoutHyphens?, List.drop_left' hfront, List.take_left' hfront]
      · show (withoutHyphens? (next :: sizes)
          (hyphenated (next :: sizes) (digits.drop size))).map _ = _
        rw [hrest, Option.map_some, hsplit]
      all_goals exact fun h => nomatch h

/-- The number that hexadecimal digits write. -/
theorem mapM_hexDigit?_toDigits (n : Nat) :
    ∃ digits, (Nat.toDigits 16 n).mapM Json.hexDigit? = some digits ∧
      digits.foldl (16 * · + ·) 0 = n := by
  have hdigit : ∀ d < 16, Json.hexDigit? (Nat.digitChar d) = some d := by decide
  induction n using Nat.strongRecOn with
  | ind n ih =>
    rw [Nat.toDigits_eq_if (by decide)]
    by_cases hn : n < 16
    · rw [if_pos hn]
      refine ⟨[n], ?_, by simp⟩
      simp [hdigit n hn]
    · obtain ⟨digits, hdigits, hvalue⟩ := ih (n / 16) (by omega)
      rw [if_neg hn]
      refine ⟨digits ++ [n % 16], ?_, ?_⟩
      · simp [List.mapM_append, hdigits, hdigit (n % 16) (Nat.mod_lt _ (by decide))]
      · rw [List.foldl_append, hvalue]
        simp only [List.foldl_cons, List.foldl_nil]
        omega

theorem length_digits (id : RecordId) : id.digits.length = 32 := by
  have hlength : (Nat.toDigits 16 id.value).length ≤ 32 :=
    (Nat.length_toDigits_le_iff (by decide) (by decide)).2 id.value_lt
  unfold digits
  rw [List.length_append, List.length_replicate]
  omega

theorem ofDigits?_digits (id : RecordId) : ofDigits? id.digits = some id := by
  have hzeros : ∀ width, (List.replicate width '0').mapM Json.hexDigit? =
      some (List.replicate width 0) := by
    intro width
    induction width with
    | zero => rfl
    | succ width ih =>
      rw [List.replicate_succ, List.mapM_cons, ih]
      rfl
  have hnone : ∀ width, (List.replicate width 0).foldl (16 * · + ·) 0 = 0 := by
    intro width
    induction width with
    | zero => rfl
    | succ width ih => rw [List.replicate_succ', List.foldl_append, ih]; rfl
  obtain ⟨written, hwritten, hvalue⟩ := mapM_hexDigit?_toDigits id.value
  have hdigits : id.digits.mapM Json.hexDigit? =
      some (List.replicate (32 - (Nat.toDigits 16 id.value).length) 0 ++ written) := by
    unfold digits
    simp [List.mapM_append, hzeros, hwritten]
  unfold ofDigits?
  rw [hdigits]
  dsimp only [Option.bind_eq_bind, Option.bind_some]
  rw [List.foldl_append, hnone, hvalue, dif_pos id.value_lt, if_pos id.length_digits]

theorem head?_digits_ne (id : RecordId) : id.digits.head? ≠ some '\x7b' := by
  intro hhead
  obtain ⟨rest, hdigits⟩ := List.head?_eq_some_iff.1 hhead
  have hread := ofDigits?_digits id
  have hnone : Json.hexDigit? '\x7b' = none := by decide
  rw [hdigits, ofDigits?, List.mapM_cons, hnone] at hread
  exact nomatch hread

/-- An id is read back from its text. -/
theorem read?_text (id : RecordId) : read? id.text = some id := by
  have hlength := length_digits id
  have hgroups : (withoutHyphens? groups (hyphenated groups id.digits)).bind ofDigits? = some id := by
    rw [withoutHyphens?_hyphenated (by decide) hlength, Option.bind_some, ofDigits?_digits]
  -- a hyphen stands where the label would have a colon
  have hwritten : hyphenated groups id.digits =
      id.digits.take 8 ++ '-' :: hyphenated [4, 4, 4, 12] (id.digits.drop 8) := rfl
  have height : (id.digits.take 8).length = 8 := by
    rw [List.length_take, hlength]
    rfl
  have hfront : (hyphenated groups id.digits).take label.length = id.digits.take 8 ++ ['-'] := by
    show (hyphenated groups id.digits).take 9 = _
    rw [hwritten, List.take_append, List.take_of_length_le (by omega), height]
    rfl
  have hlabel : ((hyphenated groups id.digits).take label.length).map Char.toLower ≠ label := by
    rw [hfront]
    intro heq
    have hlast := congrArg List.getLast? heq
    rw [List.map_append, List.map_singleton, List.getLast?_concat] at hlast
    exact absurd hlast (by decide)
  have hlong : (hyphenated groups id.digits).length ≠ 32 := by
    simp [groups, hyphenated, hlength]
  unfold read? text
  rw [String.toList_ofList]
  dsimp only
  rw [if_neg hlong]
  split
  · rename_i rest heq
    have hhead := congrArg List.head? heq
    rw [hwritten, List.head?_append, List.head?_take, if_neg (by decide)] at hhead
    cases hdigits : id.digits with
    | nil =>
      rw [hdigits] at hlength
      exact nomatch hlength
    | cons c others =>
      rw [hdigits] at hhead
      have hc : c = '\x7b' := by simpa using hhead
      exact absurd (by rw [hdigits, hc]; rfl) (head?_digits_ne id)
  · rw [if_neg hlabel]
    exact hgroups

end RecordId

/-! ## Codecs of the vocabulary -/

namespace Codec

theorem recovers_verdict (v : Verdict) : verdict.Recovers v :=
  recovers_named (by cases v <;> rfl)

theorem recovers_severity (s : Severity) : severity.Recovers s :=
  recovers_named (by cases s <;> rfl)

theorem recovers_category (c : Category) : category.Recovers c :=
  recovers_named (by cases c <;> rfl)

theorem recovers_reason (r : Reason) : reason.Recovers r := recovers_named (Reason.find?_code r)

theorem recovers_direction (d : Direction) : Direction.codec.Recovers d :=
  recovers_named (by cases d <;> rfl)

theorem recovers_recordId (id : RecordId) : RecordId.codec.Recovers id := by
  refine ⟨trivial, ?_⟩
  unfold RecordId.codec
  dsimp only [Json.asStr?, Option.bind_some]
  exact id.read?_text

theorem recovers_details {details : Details} (h : (Json.obj details.members).Legible) :
    Details.codec.Recovers details := by
  refine ⟨h, ?_⟩
  show some (Details.mk (Members.ofPairs details.members)) = some details
  rw [Members.ofPairs_of_nodup h.1]

end Codec

open Codec

/-! ## Decisions and alerts -/

/-- The size of the trade is read back. -/
def TradeIntent.Legible (intent : TradeIntent) : Prop :=
  Amount.read? intent.requestedSize.text = some intent.requestedSize

theorem TradeIntent.recovers {intent : TradeIntent} (h : intent.Legible) :
    TradeIntent.codec.Recovers intent := by
  refine Record.recovers (by decide) rfl ?_
  unfold TradeIntent.record
  refine .leftOut (.required (.required (.required (.required (.required ?_ ?_) ?_) ?_) ?_) ?_) ?_
  · trivial
  · exact recovers_string _
  · exact recovers_string _
  · exact recovers_direction _
  · exact recovers_amount h
  · exact recovers_instant _
  · exact recovers_option fun s _ => ⟨recovers_string s, nofun⟩

/-- The details can be expressed in JSON and the time is read back. -/
structure Finding.Legible (finding : Finding) : Prop where
  details : (Json.obj finding.details.members).Legible
  time : finding.validationTimeMs.Legible

theorem Finding.recovers {finding : Finding} (h : finding.Legible) :
    Finding.codec.Recovers finding := by
  refine Record.recovers (by decide) rfl ?_
  unfold Finding.record
  refine .required (.required (.required (.nullable (.nullable (.required ?_ ?_) ?_) ?_) ?_) ?_) ?_
  · trivial
  · exact recovers_bool _
  · exact recovers_option fun r _ => ⟨recovers_reason r, nofun⟩
  · exact recovers_option fun s _ => ⟨recovers_severity s, nofun⟩
  · exact recovers_details h.details
  · exact recovers_string _
  · exact recovers_binary64 h.time

/-- The numbers of a decision are read back and its details can be expressed in JSON. -/
structure Decision.Legible (decision : Decision) : Prop where
  intent : ∀ intent, decision.tradeIntent = some intent → intent.Legible
  details : (Json.obj decision.details.members).Legible
  findings : ∀ finding ∈ decision.findings, finding.Legible
  time : decision.evaluationTimeMs.Legible

theorem Decision.recovers {decision : Decision} (h : decision.Legible) :
    Decision.codec.Recovers decision := by
  refine Record.recovers (by decide) rfl ?_
  unfold Decision.record
  refine .required (.required (.required (.required (.nullable (.nullable (.nullable (.nullable
    (.required (.required ?_ ?_) ?_) ?_) ?_) ?_) ?_) ?_) ?_) ?_) ?_
  · trivial
  · exact recovers_string _
  · exact recovers_verdict _
  · exact recovers_option fun intent hintent =>
      ⟨TradeIntent.recovers (h.intent intent hintent), nofun⟩
  · exact recovers_option fun r _ => ⟨recovers_reason r, nofun⟩
  · exact recovers_option fun s _ => ⟨recovers_severity s, nofun⟩
  · exact recovers_option fun c _ => ⟨recovers_category c, nofun⟩
  · exact recovers_details h.details
  · exact recovers_list fun finding hfinding => Finding.recovers (h.findings finding hfinding)
  · exact recovers_binary64 h.time
  · exact recovers_instant _

/-- Every alert is read back. -/
theorem AlertRecord.recovers (alert : AlertRecord) : AlertRecord.codec.Recovers alert := by
  refine Record.recovers (by decide) rfl ?_
  unfold AlertRecord.record
  refine .required (.required (.nullable (.required (.required (.required (.required (.required
    (.required (.required ?_ ?_) ?_) ?_) ?_) ?_) ?_) ?_) ?_) ?_) ?_
  · trivial
  · exact recovers_recordId _
  · exact recovers_string _
  · exact recovers_string _
  · exact recovers_severity _
  · exact recovers_string _
  · exact recovers_string _
  · exact recovers_bool _
  · exact recovers_option fun s _ => ⟨recovers_string s, nofun⟩
  · exact recovers_bool _
  · exact recovers_instant _

/-- Nothing is nested in an alert. -/
theorem AlertRecord.nesting_toJson (alert : AlertRecord) : alert.toJson.nesting = 1 := by
  obtain ⟨id, evaluationId, alertType, severity, title, message, sent, sendError, rateLimited,
    createdAt⟩ := alert
  cases sendError <;> rfl

end TradeGate
