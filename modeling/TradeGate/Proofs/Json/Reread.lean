import TradeGate.Proofs.Json.Codec
import TradeGate.Proofs.Number.AmountText

/-!
# What a written value is read as

A number may be read as a neighbour of the one that was written, or not at all, and one that is not
finite is written as null (`Binary64.reread`). `Codec.ReadsAs` says of a value what the text of it is
read as, if it is read. Like `Codec.Recovers` it passes from the parts of a value to the whole
(`Record.readsAs`), but it holds of every value.
-/

namespace TradeGate

open Json (scaledNumber floatChars)

namespace Binary64

/-- What the text of a number is read as: nothing if the number is not finite. -/
def reread (x : Binary64) : Option Binary64 :=
  match Json.number (floatChars x) with
  | some (.float y, _) => some y
  | _ => none

theorem Legible.reread_eq {x : Binary64} (h : x.Legible) : x.reread = some x := by
  unfold reread
  rw [h.2]

theorem reread_of_not_finite {x : Binary64} (h : x.isFinite = false) : x.reread = none := by
  have hnull : floatChars x = "null".toList := by
    unfold floatChars
    rw [h]
    rfl
  unfold reread
  rw [hnull]
  rfl

/-- A finite number that is not read has no value as a text. -/
theorem reread_float {x : Binary64} (h : x.isFinite = true) :
    (Json.float x).reread = (x.reread.map Json.float).getD .malformed := by
  obtain ⟨whole, fraction, exponent, hread⟩ := Json.exists_number_floatChars h
  unfold reread
  rw [Json.reread, hread]
  dsimp only
  unfold scaledNumber
  dsimp only
  cases ofScientific? .. <;> rfl

end Binary64

namespace Json

theorem rereadMembers_eq_map (members : List (String × Json)) :
    rereadMembers members = members.map fun member => (member.1, member.2.reread) := by
  induction members with
  | nil => rfl
  | cons member rest ih => rw [rereadMembers, ih, List.map_cons]

end Json

namespace Codec

variable {α : Type} {codec item : Codec α} {a b : α}

/-- The text of `a` is read as `b`, if it is read. -/
def ReadsAs (codec : Codec α) (a b : α) : Prop :=
  ∀ c, codec.decode .json (codec.encode a).reread = some c → c = b

theorem Recovers.readsAs (h : codec.Recovers a) : codec.ReadsAs a a := by
  intro c hc
  rw [h.legible.reread_eq, h.decode_encode] at hc
  exact (Option.some.inj hc).symm

theorem readsAs_amount (x : Amount) : amount.ReadsAs x x.unsignedZero := by
  intro c hc
  exact Option.some.inj (hc.symm.trans (Amount.read?_text x))

/-- A number that may be missing is missing where it is not finite. -/
theorem readsAs_metric (metric : Option Binary64) :
    binary64.option.ReadsAs metric (metric.bind Binary64.reread) := by
  intro c hc
  cases metric with
  | none => exact (Option.some.inj hc).symm
  | some x =>
    rw [Option.bind_some]
    cases hfinite : x.isFinite with
    | false =>
      have hencode : binary64.option.encode (some x) = .null := by
        show Json.ofBinary64 x = .null
        unfold Json.ofBinary64
        rw [hfinite]
        rfl
      rw [hencode] at hc
      rw [Binary64.reread_of_not_finite hfinite]
      exact (Option.some.inj hc).symm
    | true =>
      have hencode : binary64.option.encode (some x) = .float x := if_pos hfinite
      rw [hencode, Binary64.reread_float hfinite] at hc
      cases hread : x.reread with
      | none =>
        rw [hread] at hc
        exact nomatch hc
      | some y =>
        rw [hread] at hc
        exact (Option.some.inj hc).symm

/-- A value that may be missing is read where it is there, if it is not written as null. -/
theorem readsAs_option {f : α → α} {value : Option α}
    (h : ∀ a ∈ value, item.ReadsAs a (f a) ∧ (item.encode a).reread ≠ .null) :
    item.option.ReadsAs value (value.map f) := by
  intro c hc
  cases value with
  | none => exact (Option.some.inj hc).symm
  | some a =>
    obtain ⟨hreads, hnull⟩ := h a rfl
    replace hc : item.option.decode .json (item.encode a).reread = some c := hc
    unfold option at hc
    dsimp only at hc
    split at hc
    · rename_i heq
      exact absurd heq hnull
    · obtain ⟨b, hb, rfl⟩ := Option.map_eq_some_iff.1 hc
      rw [hreads b hb, Option.map_some]

end Codec

namespace Record

variable {σ : Type}

/-- The text of every field of `s` is read as that field of `t`, or is missing and stands for it. -/
def ReadsAs {α : Type} (s t : σ) : Record σ α → Prop
  | start _ => True
  | field front _ get codec absent omitted =>
    front.ReadsAs s t ∧
      if omitted (get s) then absent.named = some (get t) else codec.ReadsAs (get s) (get t)

section Fields

variable {α β : Type} {s t : σ} {name : String}

theorem ReadsAs.required {front : Record σ (β → α)} (hfront : front.ReadsAs s t) {get : σ → β}
    {codec : Codec β} (h : codec.ReadsAs (get s) (get t)) :
    (front.required name get codec).ReadsAs s t :=
  ⟨hfront, h⟩

theorem ReadsAs.defaulted {front : Record σ (β → α)} (hfront : front.ReadsAs s t) {get : σ → β}
    {codec : Codec β} {value : β} (h : codec.ReadsAs (get s) (get t)) :
    (front.defaulted name get codec value).ReadsAs s t :=
  ⟨hfront, h⟩

theorem ReadsAs.optional {front : Record σ (Option β → α)} (hfront : front.ReadsAs s t)
    {get : σ → Option β} {codec : Codec β} (h : codec.option.ReadsAs (get s) (get t)) :
    (front.optional name get codec).ReadsAs s t :=
  hfront.defaulted h

theorem ReadsAs.leftOut {front : Record σ (Option β → α)} (hfront : front.ReadsAs s t)
    {get : σ → Option β} (hget : get t = get s) {codec : Codec β}
    (h : codec.option.ReadsAs (get s) (get s)) : (front.leftOut name get codec).ReadsAs s t := by
  refine ⟨hfront, ?_⟩
  rw [hget]
  cases hvalue : get s with
  | none => rfl
  | some b =>
    rw [hvalue] at h
    exact h

end Fields

/-- Field by field what is read of `s` is `t`. -/
theorem eq_rebuild_of_received {α : Type} {s t : σ} {record : Record σ α} (h : record.ReadsAs s t)
    {a : α} (ha : record.received .json Json.reread s = some a) : a = record.rebuild t := by
  induction record with
  | start => exact (Option.some.inj ha).symm
  | field front name get codec absent omitted ih =>
    obtain ⟨make, hmake, ha⟩ := Option.bind_eq_some_iff.1 ha
    obtain ⟨b, hb, ha⟩ := Option.bind_eq_some_iff.1 ha
    have hfield : b = get t := by
      have hreads := h.2
      unfold receivedValue at hb
      split at hreads
      · rw [if_pos (by assumption), hreads] at hb
        exact (Option.some.inj hb).symm
      · rw [if_neg (by assumption)] at hb
        exact hreads b hb
    rw [← Option.some.inj ha, ih h.1 hmake, hfield, rebuild]

/-- The text of a record that names its fields apart is read field by field. -/
theorem readsAs {s t : σ} {record : Record σ σ} (hnames : record.names.Nodup)
    (hrebuild : record.rebuild t = t) (h : record.ReadsAs s t) :
    (record.codec false).ReadsAs s t := by
  intro c hc
  have hread := decodeNamed_channel .json Json.reread s hnames [] (by simp)
  rw [List.append_nil, ← Json.rereadMembers_eq_map] at hread
  exact (eq_rebuild_of_received h (hread.symm.trans hc)).trans hrebuild

theorem reread_encode_ne_null (record : Record σ σ) (closed : Bool) (s : σ) :
    ((record.codec closed).encode s).reread ≠ .null := by
  show (Json.obj (record.encode s)).reread ≠ .null
  rw [Json.reread]
  exact Json.noConfusion

end Record

end TradeGate
