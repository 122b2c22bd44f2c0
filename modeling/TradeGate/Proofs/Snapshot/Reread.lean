import TradeGate.Proofs.Check.Retold
import TradeGate.Proofs.Json.PrettyLines
import TradeGate.Proofs.Json.Reread
import TradeGate.Proofs.Snapshot.Legible

/-!
# What the text of a snapshot is read as

The text of a snapshot is read, if it is read, as the snapshot with every metric as the text of that
metric says (`Snapshot.eq_retold_of_readChars?`): texts, whole numbers and times are read back, and
amounts too but for the sign of a zero. It is not read if some number in it is beyond the finite ones as
it is read; then its lines are not read as anything but the empty snapshot
(`Snapshot.eq_empty_of_line`). A metric that is not finite is lost where it is outside its limit
(`lost_of_not_finite`), and a legible snapshot loses none (`Policy.not_loses_of_legible`).
-/

namespace TradeGate

open Binary64 (reread)
open Codec

theorem Codec.readsAs_amounts (value : Option Amount) :
    amount.option.ReadsAs value (value.map Amount.unsignedZero) :=
  readsAs_option fun x _ => ⟨readsAs_amount x, nofun⟩

/-- A section that may be missing is read where it is there. -/
theorem Codec.readsAs_section {α : Type} {record : Record α α} {f : α → α} {value : Option α}
    (h : ∀ a, (record.codec false).ReadsAs a (f a)) :
    (record.codec false).option.ReadsAs value (value.map f) :=
  readsAs_option fun a _ => ⟨h a, record.reread_encode_ne_null false a⟩

/-! ## Sections -/

theorem TradeIntent.readsAs (intent : TradeIntent) : codec.ReadsAs intent intent.retold := by
  refine Record.readsAs (by decide) rfl ?_
  have hstart : (Record.start TradeIntent.mk).ReadsAs intent intent.retold := trivial
  exact hstart
    |>.required (recovers_string _).readsAs
    |>.required (recovers_string _).readsAs
    |>.required (recovers_direction _).readsAs
    |>.required (readsAs_amount _)
    |>.required (recovers_instant _).readsAs
    |>.leftOut rfl (total_string.option _).readsAs

theorem SystemState.readsAs (s : SystemState) :
    (record.codec false).ReadsAs s (s.retold reread) := by
  refine Record.readsAs (by decide) rfl ?_
  have hstart : (Record.start SystemState.mk).ReadsAs s (s.retold reread) := trivial
  exact hstart
    |>.required (recovers_bool _).readsAs
    |>.required (recovers_instant _).readsAs
    |>.optional (readsAs_metric _)
    |>.required (recovers_bool _).readsAs
    |>.optional (readsAs_metric _)
    |>.optional (readsAs_metric _)
    |>.required (recovers_bool _).readsAs

theorem ExecutionHealth.readsAs (s : ExecutionHealth) :
    (record.codec false).ReadsAs s (s.retold reread) := by
  refine Record.readsAs (by decide) rfl ?_
  have hstart : (Record.start ExecutionHealth.mk).ReadsAs s (s.retold reread) := trivial
  exact hstart
    |>.required (recovers_bool _).readsAs
    |>.optional (total_string.option _).readsAs
    |>.optional (readsAs_metric _)
    |>.optional (total_uint32.option _).readsAs
    |>.optional (readsAs_metric _)
    |>.optional (readsAs_metric _)
    |>.optional (total_uint32.option _).readsAs
    |>.optional (total_uint32.option _).readsAs
    |>.optional (total_uint32.option _).readsAs
    |>.optional (total_uint32.option _).readsAs
    |>.optional (readsAs_metric _)
    |>.optional (total_bool.option _).readsAs

theorem AccountState.readsAs (s : AccountState) :
    (record.codec false).ReadsAs s (s.retold reread) := by
  refine Record.readsAs (by decide) rfl ?_
  have hstart : (Record.start AccountState.mk).ReadsAs s (s.retold reread) := trivial
  exact hstart
    |>.optional (total_uint32.option _).readsAs
    |>.optional (total_uint32.option _).readsAs
    |>.optional (readsAs_amounts _)
    |>.optional (readsAs_amounts _)
    |>.optional (readsAs_amounts _)
    |>.optional (total_string.option _).readsAs
    |>.optional (readsAs_metric _)
    |>.optional (total_instant.option _).readsAs

theorem MarketContext.readsAs (s : MarketContext) :
    (record.codec false).ReadsAs s (s.retold reread) := by
  refine Record.readsAs (by decide) rfl ?_
  have hstart : (Record.start MarketContext.mk).ReadsAs s (s.retold reread) := trivial
  exact hstart
    |>.optional (total_string.option _).readsAs
    |>.optional (readsAs_metric _)
    |>.optional (total_uint8.option _).readsAs
    |>.optional (total_string.option _).readsAs
    |>.defaulted (recovers_bool _).readsAs
    |>.optional (total_instant.option _).readsAs
    |>.optional (total_string.option _).readsAs
    |>.optional (readsAs_metric _)
    |>.optional (readsAs_metric _)
    |>.optional (readsAs_metric _)
    |>.defaulted (recovers_bool _).readsAs
    |>.defaulted (recovers_bool _).readsAs

/-! ## Snapshots -/

namespace Snapshot

theorem readsAs (snapshot : Snapshot) : codec.ReadsAs snapshot (snapshot.retold reread) := by
  have hhalt : (HaltState.record.codec false).option.Recovers snapshot.haltState :=
    recovers_section fun s _ => s.recovers
  refine Record.readsAs (by decide) rfl ?_
  have hstart : (Record.start Snapshot.mk).ReadsAs snapshot (snapshot.retold reread) := trivial
  exact hstart
    |>.optional (readsAs_section TradeIntent.readsAs)
    |>.optional (readsAs_section SystemState.readsAs)
    |>.optional (readsAs_section ExecutionHealth.readsAs)
    |>.optional hhalt.readsAs
    |>.optional (readsAs_section AccountState.readsAs)
    |>.optional (readsAs_section MarketContext.readsAs)

section Text

variable {snapshot : Snapshot} {cs : List Char}
  (hcs : cs = (codec.encode snapshot).chars ∨ cs = Json.prettyChars 0 (codec.encode snapshot))

include hcs

theorem json_readChars?_encode : Json.readChars? cs = some (codec.encode snapshot).reread := by
  rcases hcs with rfl | rfl
  · exact Json.readChars?_chars _
  · exact Json.readChars?_prettyChars _ 0

/-- The text of a snapshot, on one line or over several, is read as the snapshot with its metrics as
their texts say, if it is read. -/
theorem eq_retold_of_readChars? {other : Snapshot} (h : readChars? cs = some other) :
    other = snapshot.retold reread := by
  unfold readChars? at h
  rw [json_readChars?_encode hcs, Option.bind_some] at h
  exact snapshot.readsAs other h

/-- The text of a snapshot holds more than blanks. -/
theorem filledLines_encode_ne_nil : Text.filledLines cs ≠ [] := by
  intro hnil
  have hblank := Json.readChars?_eq_none_of_blank (Text.isBlankText_of_filledLines_eq_nil hnil)
  exact nomatch hblank.symm.trans (json_readChars?_encode hcs)

omit hcs in
/-- A value without items and members is the empty snapshot, if it is one. -/
theorem eq_empty_of_isFlat {value : Json} (hflat : value.IsFlat)
    (h : codec.decode .json value = some snapshot) : snapshot = .empty := by
  cases value with
  | arr items =>
    obtain rfl : items = [] := hflat
    exact (Option.some.inj h).symm
  | obj members =>
    obtain rfl : members = [] := hflat
    exact (Option.some.inj h).symm
  | null | bool | int | float | str | malformed => exact nomatch h

/-- Where the text of a snapshot is not read as a whole, no line of it has a section. -/
theorem eq_empty_of_line (hnone : readChars? cs = none) {line : List Char}
    (hline : line ∈ Text.filledLines cs) {other : Snapshot} (h : readChars? line = some other) :
    other = .empty := by
  have hmem := (List.mem_filter.1 hline).1
  rcases hcs with rfl | rfl
  · have hone := Json.newline_not_mem_chars (codec.encode snapshot)
    cases hchars : (codec.encode snapshot).chars with
    | nil =>
      rw [hchars] at hmem
      exact absurd hmem List.not_mem_nil
    | cons c rest =>
      rw [Text.endedLines_of_not_mem hone (by rw [hchars]; exact List.cons_ne_nil c rest),
        List.mem_singleton] at hmem
      rw [hmem, hnone] at h
      exact nomatch h
  · obtain ⟨value, hvalue, hdecode⟩ := Option.bind_eq_some_iff.1 h
    exact eq_empty_of_isFlat (Json.isFlat_of_line _ hmem hvalue) hdecode

end Text

end Snapshot

/-! ## Metrics that a text loses -/

/-- A text loses whatever is not finite. -/
theorem lost_of_not_finite {x : Binary64} (h : x.isFinite = false) {outside : Binary64 → Prop}
    (houtside : outside x) : Lost reread (some x) outside := by
  refine ⟨⟨x, rfl, houtside⟩, ?_⟩
  rw [Option.bind_some, Binary64.reread_of_not_finite h]
  exact fun ⟨_, hnone, _⟩ => nomatch hnone

/-- It loses nothing that is read back. -/
theorem not_lost_of_legible {metrics : List (Option Binary64)}
    (h : ∀ x ∈ metrics.reduceOption, x.Legible) {metric : Option Binary64} (hmetric : metric ∈ metrics)
    {outside : Binary64 → Prop} : ¬ Lost reread metric outside := by
  rintro ⟨⟨x, hx, houtside⟩, hkept⟩
  have hlegible := h x (List.reduceOption_mem_iff.2 (Option.mem_def.1 hx ▸ hmetric))
  refine hkept ⟨x, ?_, houtside⟩
  rw [Option.mem_def.1 hx, Option.bind_some, hlegible.reread_eq]
  rfl

theorem Policy.not_loses_of_legible {policy : Policy} {snapshot : Snapshot} {s : Sections}
    (hs : snapshot.sections? = some s) (h : ∀ x ∈ snapshot.floats, x.Legible) :
    ¬ policy.Loses reread s := by
  unfold Snapshot.sections? at hs
  split at hs
  case h_2 => exact nomatch hs
  obtain rfl := Option.some.inj hs
  simp only [Snapshot.floats, Option.toList_some, List.flatMap_singleton,
    List.forall_mem_append] at h
  obtain ⟨⟨⟨hsystem, hexecution⟩, haccount⟩, hmarket⟩ := h
  rintro (hlost | hlost | hlost | hlost)
  · rcases hlost with hlost | hlost | hlost <;> exact not_lost_of_legible hsystem (by simp) hlost
  · rcases hlost with hlost | hlost | hlost | hlost <;>
      exact not_lost_of_legible hexecution (by simp) hlost
  · exact not_lost_of_legible haccount (by simp) hlost
  · rcases hlost with hlost | hlost | hlost | hlost <;>
      exact not_lost_of_legible hmarket (by simp) hlost

end TradeGate
