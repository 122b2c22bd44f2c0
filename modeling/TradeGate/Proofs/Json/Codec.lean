import TradeGate.Json.Record
import TradeGate.Proofs.Json.Reader
import TradeGate.Proofs.Time.Timestamp

/-!
# Codecs that read back what they write

`Codec.Recovers` says of a value that what a codec writes of it is legible and that the codec reads
it back. It passes from the parts of a value to the whole: to optional values, to lists, and to
records whose fields all are read back (`Record.recovers`).
-/

namespace TradeGate

namespace Codec

/-- What the codec writes of a value can be expressed in JSON, and it is read back. -/
structure Recovers {α : Type} (codec : Codec α) (a : α) : Prop where
  legible : (codec.encode a).Legible
  decode_encode : codec.decode .json (codec.encode a) = some a

variable {α : Type}

theorem recovers_string (s : String) : string.Recovers s := ⟨trivial, rfl⟩

theorem recovers_bool (b : Bool) : bool.Recovers b := ⟨trivial, rfl⟩

theorem recovers_binary64 {x : Binary64} (h : x.Legible) : binary64.Recovers x := by
  have hencode : binary64.encode x = .float x := if_pos h.1
  constructor
  · rw [hencode]
    exact h
  · rw [hencode]
    rfl

theorem natBelow?_int {n bound : Nat} (h : n < bound) : natBelow? bound (.int n) = some n := by
  unfold natBelow?
  dsimp only
  rw [if_pos ⟨Int.natCast_nonneg n, Int.ofNat_lt.2 h⟩, Int.toNat_natCast]

theorem legible_natCast {n : Nat} (h : n < UInt64.size) : (Json.int n).Legible := by
  unfold Json.Legible
  have hsize : UInt64.size = 18446744073709551616 := rfl
  omega

theorem recovers_uint8 (n : UInt8) : uint8.Recovers n where
  legible := legible_natCast (n.toNat_lt_size.trans (by decide))
  decode_encode := by
    unfold uint8
    dsimp only
    rw [natBelow?_int n.toNat_lt_size, Option.map_some, UInt8.ofNat_toNat]

theorem recovers_uint32 (n : UInt32) : uint32.Recovers n where
  legible := legible_natCast (n.toNat_lt_size.trans (by decide))
  decode_encode := by
    unfold uint32
    dsimp only
    rw [natBelow?_int n.toNat_lt_size, Option.map_some, UInt32.ofNat_toNat]

theorem recovers_amount {x : Amount} (h : Amount.read? x.text = some x) : amount.Recovers x :=
  ⟨trivial, h⟩

theorem recovers_instant (t : Instant) : instant.Recovers t := by
  refine ⟨trivial, ?_⟩
  unfold instant
  dsimp only [Json.asStr?, Option.bind_some]
  exact Instant.read?_text t

theorem recovers_named {values : List α} {name : α → String} {a : α}
    (h : values.find? (name · = name a) = some a) : (named values name).Recovers a :=
  ⟨trivial, h⟩

/-- An optional value is read back if none of its values is written as null. -/
theorem recovers_option {item : Codec α} {value : Option α}
    (h : ∀ a, value = some a → item.Recovers a ∧ item.encode a ≠ .null) :
    item.option.Recovers value := by
  cases value with
  | none => exact ⟨trivial, rfl⟩
  | some a =>
    obtain ⟨⟨hlegible, hdecode⟩, hnull⟩ := h a rfl
    refine ⟨hlegible, ?_⟩
    show item.option.decode .json (item.encode a) = some (some a)
    unfold option
    dsimp only
    split
    · rename_i heq
      exact absurd heq hnull
    · rw [hdecode, Option.map_some]

theorem legibleItems_map {item : Codec α} {items : List α} (h : ∀ a ∈ items, item.Recovers a) :
    Json.LegibleItems (items.map item.encode) := by
  induction items with
  | nil => trivial
  | cons a rest ih =>
    rw [List.forall_mem_cons] at h
    exact ⟨h.1.legible, ih h.2⟩

theorem decode_encode_list {item : Codec α} {items : List α}
    (h : ∀ a ∈ items, item.decode .json (item.encode a) = some a) :
    item.list.decode .json (item.list.encode items) = some items := by
  show (items.map item.encode).mapM (item.decode .json) = some items
  induction items with
  | nil => rfl
  | cons a rest ih =>
    rw [List.forall_mem_cons] at h
    rw [List.map_cons, List.mapM_cons, h.1, ih h.2]
    rfl

theorem recovers_list {item : Codec α} {items : List α} (h : ∀ a ∈ items, item.Recovers a) :
    item.list.Recovers items :=
  ⟨legibleItems_map h, decode_encode_list fun a ha => (h a ha).decode_encode⟩

end Codec

namespace Record

variable {σ : Type}

/-- Every field of `s` is written and read back, or stands for what a missing field does. -/
def Recovers {α : Type} (s : σ) : Record σ α → Prop
  | start _ => True
  | field front _ get codec absent omitted =>
    front.Recovers s ∧
      if omitted (get s) then absent.named = some (get s) else codec.Recovers (get s)

section Fields

variable {α β : Type} {s : σ} {name : String}

theorem Recovers.required {front : Record σ (β → α)} (hfront : front.Recovers s) {get : σ → β}
    {codec : Codec β} (h : codec.Recovers (get s)) : (front.required name get codec).Recovers s :=
  ⟨hfront, h⟩

theorem Recovers.nullable {front : Record σ (Option β → α)} (hfront : front.Recovers s)
    {get : σ → Option β} {codec : Codec β} (h : codec.option.Recovers (get s)) :
    (front.nullable name get codec).Recovers s :=
  ⟨hfront, h⟩

theorem Recovers.defaulted {front : Record σ (β → α)} (hfront : front.Recovers s) {get : σ → β}
    {codec : Codec β} {value : β} (h : codec.Recovers (get s)) :
    (front.defaulted name get codec value).Recovers s :=
  ⟨hfront, h⟩

theorem Recovers.optional {front : Record σ (Option β → α)} (hfront : front.Recovers s)
    {get : σ → Option β} {codec : Codec β} (h : codec.option.Recovers (get s)) :
    (front.optional name get codec).Recovers s :=
  hfront.defaulted h

theorem Recovers.leftOut {front : Record σ (Option β → α)} (hfront : front.Recovers s)
    {get : σ → Option β} {codec : Codec β} (h : codec.option.Recovers (get s)) :
    (front.leftOut name get codec).Recovers s := by
  refine ⟨hfront, ?_⟩
  cases hvalue : get s with
  | none => rfl
  | some b =>
    rw [hvalue] at h
    exact h

end Fields

theorem Recovers.readsBack {α : Type} {s : σ} {record : Record σ α} (h : record.Recovers s) :
    record.ReadsBack .json s := by
  induction record with
  | start => trivial
  | field front name get codec absent omitted ih =>
    refine ⟨ih h.1, ?_⟩
    have hfield := h.2
    split
    · rwa [if_pos (by assumption)] at hfield
    · rw [if_neg (by assumption)] at hfield
      exact hfield.decode_encode

theorem legibleMembers_append {members others : List (String × Json)}
    (h : Json.LegibleMembers members) (h' : Json.LegibleMembers others) :
    Json.LegibleMembers (members ++ others) := by
  induction members with
  | nil => exact h'
  | cons member rest ih => exact ⟨h.1, ih h.2⟩

theorem Recovers.legibleMembers {α : Type} {s : σ} {record : Record σ α} (h : record.Recovers s) :
    Json.LegibleMembers (record.encode s) := by
  induction record with
  | start => trivial
  | field front name get codec absent omitted ih =>
    refine legibleMembers_append (ih h.1) ?_
    have hfield := h.2
    split
    · trivial
    · rw [if_neg (by assumption)] at hfield
      exact ⟨hfield.legible, trivial⟩

/-- The members are fields, in their order. -/
theorem map_fst_encode_sublist {α : Type} (s : σ) (record : Record σ α) :
    ((record.encode s).map Prod.fst).Sublist record.names := by
  induction record with
  | start => exact .slnil
  | field front name get codec absent omitted ih =>
    rw [encode, names, List.map_append]
    refine ih.append ?_
    split
    · exact List.nil_sublist _
    · exact .refl _

/-- A record that names its fields apart reads back what it writes if every field does. -/
theorem recovers {s : σ} {record : Record σ σ} (hnames : record.names.Nodup)
    (hrebuild : record.rebuild s = s) (h : record.Recovers s) : (record.codec false).Recovers s := by
  constructor
  · exact ⟨(map_fst_encode_sublist s record).nodup hnames, h.legibleMembers⟩
  · show record.decodeNamed .json (record.encode s) = some s
    rw [decodeNamed_encode hnames h.readsBack, hrebuild]

end Record

end TradeGate
