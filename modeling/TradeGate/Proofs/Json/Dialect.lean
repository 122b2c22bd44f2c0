import TradeGate.Proofs.Json.Update

/-!
# Two dialects

JSON and TOML documents are read by the same codecs. What both dialects read from a value is the same
(`Codec.Agrees`), and most codecs read the same from every value (`Codec.Uniform`). A record reads the
same from a value if its fields do and if the value is no array with more items than fields
(`Record.decode_toml`).
-/

namespace TradeGate

/-- What both are is the same. -/
def Agree {α : Type} (x y : Option α) : Prop := ∀ a b, x = some a → y = some b → a = b

theorem agree_refl {α : Type} (x : Option α) : Agree x x :=
  fun _ _ ha hb => Option.some.inj (ha.symm.trans hb)

theorem Agree.bind {α β : Type} {x y : Option α} (h : Agree x y) {f g : α → Option β}
    (hf : ∀ a, Agree (f a) (g a)) : Agree (x.bind f) (y.bind g) := by
  intro b c hb hc
  obtain ⟨a, ha, hb⟩ := Option.bind_eq_some_iff.1 hb
  obtain ⟨a', ha', hc⟩ := Option.bind_eq_some_iff.1 hc
  obtain rfl := h a a' ha ha'
  exact hf a b c hb hc

namespace Codec

variable {α : Type}

/-- What both dialects read from a value is the same. -/
def Agrees (codec : Codec α) : Prop :=
  ∀ value, Agree (codec.decode .json value) (codec.decode .toml value)

/-- Both dialects read the same from every value. -/
def Uniform (codec : Codec α) : Prop :=
  ∀ value, codec.decode .toml value = codec.decode .json value

theorem Uniform.agrees {codec : Codec α} (h : codec.Uniform) : codec.Agrees := by
  intro value
  rw [h value]
  exact agree_refl _

@[simp] theorem uniform_string : string.Uniform := fun _ => rfl
@[simp] theorem uniform_bool : bool.Uniform := fun value => by cases value <;> rfl
@[simp] theorem uniform_binary64 : binary64.Uniform := fun value => by cases value <;> rfl
@[simp] theorem uniform_uint8 : uint8.Uniform := fun _ => rfl
@[simp] theorem uniform_uint32 : uint32.Uniform := fun _ => rfl
@[simp] theorem uniform_uint64 : uint64.Uniform := fun _ => rfl
@[simp] theorem uniform_amount : amount.Uniform := fun value => by cases value <;> rfl

theorem decode_list_congr {item : Codec α} {items : List Json}
    (h : ∀ value ∈ items, item.decode .toml value = item.decode .json value) :
    item.list.decode .toml (.arr items) = item.list.decode .json (.arr items) := by
  show items.mapM (item.decode .toml) = items.mapM (item.decode .json)
  induction items with
  | nil => rfl
  | cons first rest ih =>
    rw [List.forall_mem_cons] at h
    rw [List.mapM_cons, List.mapM_cons, h.1, ih h.2]

@[simp] theorem Uniform.list {item : Codec α} (h : item.Uniform) : item.list.Uniform := by
  intro value
  cases value with
  | arr items => exact decode_list_congr fun value _ => h value
  | null | bool | int | float | str | obj | malformed => rfl

theorem Agrees.list {item : Codec α} (h : item.Agrees) : item.list.Agrees := by
  intro value
  cases value with
  | arr items =>
    show Agree (items.mapM (item.decode .json)) (items.mapM (item.decode .toml))
    induction items with
    | nil => exact agree_refl _
    | cons first rest ih =>
      rw [List.mapM_cons, List.mapM_cons]
      exact (h first).bind fun _ => ih.bind fun _ => agree_refl _
  | null | bool | int | float | str | obj | malformed => exact agree_refl _

/-- The dialects differ in what may stand beside a name, not in what the name stands for. -/
theorem agrees_named (values : List α) (name : α → String) : (named values name).Agrees := by
  intro value
  cases value with
  | obj members =>
    match members with
    | [(s, payload)] =>
      intro a b ha hb
      have hread : ∀ {dialect c}, (named values name).decode dialect (.obj [(s, payload)]) = some c →
          values.find? (name · = s) = some c := by
        intro dialect c hc
        change (if dialect.emptyPayload payload then values.find? (name · = s) else none) = some c at hc
        split at hc
        · exact hc
        · exact nomatch hc
      exact Option.some.inj ((hread ha).symm.trans (hread hb))
    | [] | _ :: _ :: _ => exact agree_refl _
  | null | bool | int | float | str | arr | malformed => exact agree_refl _

theorem uniform_named_of_not_isObj {values : List α} {name : α → String} {value : Json}
    (h : value.isObj = false) :
    (named values name).decode .toml value = (named values name).decode .json value := by
  cases value with
  | obj members => exact nomatch h
  | null | bool | int | float | str | arr | malformed => rfl

end Codec

/-- What a value gives the field of a name and a place: a member of an object, or an item of an
array. -/
def Json.given? (name : String) (place : Nat) : Json → Option Json
  | obj members => Members.get? members name
  | arr items => items[place]?
  | _ => none

namespace Record

variable {σ α : Type}

/-! ## Records in both dialects -/

theorem agree_decodeNamed {record : Record σ α} (h : ∀ field ∈ record.fields, field.codec.Agrees)
    (members : Members) :
    Agree (record.decodeNamed .json members) (record.decodeNamed .toml members) := by
  induction record with
  | start => exact agree_refl _
  | field front name get codec absent omitted ih =>
    rw [fields, List.forall_mem_append, List.forall_mem_singleton] at h
    obtain ⟨hfront, hlast⟩ := h
    have hvalue : Agree (fieldValue .json members name codec absent)
        (fieldValue .toml members name codec absent) := by
      unfold fieldValue
      split
      · exact agree_refl _
      · exact hlast _
      · exact agree_refl _
    exact (ih hfront).bind fun _ => hvalue.bind fun _ => agree_refl _

theorem agree_decodeItems {record : Record σ α} (h : ∀ field ∈ record.fields, field.codec.Agrees)
    (items : List Json) :
    Agree (record.decodeItems .json items) (record.decodeItems .toml items) := by
  induction record with
  | start => exact agree_refl _
  | field front name get codec absent omitted ih =>
    rw [fields, List.forall_mem_append, List.forall_mem_singleton] at h
    obtain ⟨hfront, hlast⟩ := h
    refine (ih hfront).bind fun read => ?_
    obtain ⟨make, others⟩ := read
    cases others with
    | nil => exact agree_refl _
    | cons first rest => exact (hlast first).bind fun _ => agree_refl _

/-- What both dialects read of a record is the same if that is so of its fields. -/
theorem agrees {record : Record σ σ} (h : ∀ field ∈ record.fields, field.codec.Agrees)
    (closed : Bool) : (record.codec closed).Agrees := by
  intro value
  cases value with
  | obj members =>
    show Agree (record.decode closed .json (.obj members)) (record.decode closed .toml (.obj members))
    rw [decode_obj, decode_obj]
    split
    · exact agree_refl _
    · exact agree_decodeNamed h members
  | arr items =>
    refine (agree_decodeItems h items).bind fun read a b ha hb => ?_
    dsimp only at ha hb
    split at ha
    · split at hb
      · rw [← Option.some.inj ha, Option.some.inj hb]
      · exact nomatch hb
    · exact nomatch ha
  | null | bool | int | float | str | malformed => exact agree_refl _

theorem fieldValue_toml {β : Type} {members : Members} {name : String} {codec : Codec β}
    {absent : Absence β} (h : ∀ value, members.get? name = some value →
      codec.decode .toml value = codec.decode .json value) :
    fieldValue .toml members name codec absent = fieldValue .json members name codec absent := by
  unfold fieldValue
  split
  · rfl
  · rename_i key value hfilter
    refine h value ?_
    rw [Members.get?_eq_head?_filter, hfilter]
    rfl
  · rfl

theorem decodeItems_toml {record : Record σ α} {items : List Json}
    (h : ∀ (i : Nat) (field : Field σ) item, record.fields[i]? = some field → items[i]? = some item →
      field.codec.decode .toml item = field.codec.decode .json item) :
    record.decodeItems .toml items = record.decodeItems .json items := by
  induction record with
  | start => rfl
  | field front name get codec absent omitted ih =>
    have hfront : front.decodeItems .toml items = front.decodeItems .json items := by
      refine ih fun i field item hfield hitem => h i field item ?_ hitem
      rw [fields, List.getElem?_append_left (List.getElem?_eq_some_iff.1 hfield).1]
      exact hfield
    unfold decodeItems
    rw [hfront]
    cases hread : front.decodeItems .json items with
    | none => rfl
    | some read =>
      obtain ⟨make, others⟩ := read
      have hothers := (decode_of_decodeItems hread).1
      cases others with
      | nil => rfl
      | cons first rest =>
        have hlast : codec.decode .toml first = codec.decode .json first := by
          refine h front.fields.length ⟨name, get, codec, absent, omitted⟩ first ?_ ?_
          · rw [fields, List.getElem?_append_right (Nat.le_refl _), Nat.sub_self]
            rfl
          · rw [← List.head?_drop, ← hothers]
            rfl
        show (codec.decode .toml first).bind _ = (codec.decode .json first).bind _
        rw [hlast]

/-- A record reads the same in both dialects if its fields do, unless the value is an array with more
items than fields. -/
theorem decode_toml {record : Record σ σ} (closed : Bool) {value : Json}
    (hfields : ∀ (i : Nat) (field : Field σ), record.fields[i]? = some field →
      ∀ given, value.given? field.name i = some given →
        field.codec.decode .toml given = field.codec.decode .json given)
    (hitems : ∀ items, value = .arr items → items.length ≤ record.fields.length) :
    (record.codec closed).decode .toml value = (record.codec closed).decode .json value := by
  cases value with
  | obj members =>
    have hsame : record.decodeNamed .toml members = record.decodeNamed .json members := by
      refine decodeNamed_congr fun field hfield => fieldValue_toml fun given hgiven => ?_
      obtain ⟨i, hi⟩ := List.mem_iff_getElem?.1 hfield
      exact hfields i field hi given hgiven
    show record.decode closed .toml (.obj members) = record.decode closed .json (.obj members)
    rw [decode_obj, decode_obj, hsame]
  | arr items =>
    show (record.decodeItems .toml items).bind _ = (record.decodeItems .json items).bind _
    rw [decodeItems_toml fun i field item hfield hitem => hfields i field hfield item hitem]
    cases hread : record.decodeItems .json items with
    | none => rfl
    | some read =>
      obtain ⟨a, left⟩ := read
      have hleft : left = [] := by
        rw [(decode_of_decodeItems hread).1]
        exact List.drop_of_length_le (hitems items rfl)
      subst hleft
      rfl
  | null | bool | int | float | str | malformed => rfl

theorem decode_toml_of_uniform {record : Record σ σ} (closed : Bool) {value : Json}
    (huniform : ∀ field ∈ record.fields, field.codec.Uniform)
    (hitems : ∀ items, value = .arr items → items.length ≤ record.fields.length) :
    (record.codec closed).decode .toml value = (record.codec closed).decode .json value :=
  decode_toml closed
    (fun _ field hfield given _ => huniform field (List.mem_of_getElem? hfield) given) hitems

/-- All depends on one field if the others read the same from every value. -/
theorem decode_toml_of_field {record : Record σ σ} (closed : Bool) {value : Json}
    (hnames : (record.fields.map Field.name).Nodup) {k : Nat} {special : Field σ}
    (hk : record.fields[k]? = some special)
    (hothers : ∀ field ∈ record.fields, field.codec.Uniform ∨ field.name = special.name)
    (hspecial : ∀ given, value.given? special.name k = some given →
      special.codec.decode .toml given = special.codec.decode .json given)
    (hitems : ∀ items, value = .arr items → items.length ≤ record.fields.length) :
    (record.codec closed).decode .toml value = (record.codec closed).decode .json value := by
  refine decode_toml closed (fun i field hfield given hgiven => ?_) hitems
  rcases hothers field (List.mem_of_getElem? hfield) with huniform | hname
  · exact huniform given
  · -- a name is the name of one field
    have hplace : i = k := by
      refine (List.getElem?_inj ?_ hnames).1 ?_
      · rw [List.length_map]
        exact (List.getElem?_eq_some_iff.1 hfield).1
      · rw [List.getElem?_map, List.getElem?_map, hfield, hk, Option.map_some, Option.map_some, hname]
    subst hplace
    obtain rfl : field = special := Option.some.inj (hfield.symm.trans hk)
    exact hspecial given hgiven

end Record

end TradeGate
