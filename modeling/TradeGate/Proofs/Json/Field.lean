import TradeGate.Proofs.Json.Codec
import TradeGate.Proofs.Json.Merge

/-!
# The fields of a record

A record schema is a list of fields (`Record.fields`). A structure that is made of the values of its
fields, each of which its projection gives back (`Record.Lawful`), has in every field what was read
for it (`fieldValue_of_decodeNamed`). From that follows what it has in a field when members were
merged into a written record before it was read (`Record.Settled.decode_merged`).
-/

namespace TradeGate

/-- A field of a record. -/
structure Field (σ : Type) where
  {β : Type}
  name : String
  get : σ → β
  codec : Codec β
  absent : Absence β
  omitted : β → Bool

namespace Record

variable {σ α β : Type}

/-- The fields, in order. -/
def fields {α : Type} : Record σ α → List (Field σ)
  | start _ => []
  | field front name get codec absent omitted =>
    front.fields ++ [⟨name, get, codec, absent, omitted⟩]

/-- What fields make depends on their values alone. -/
theorem rebuild_congr {s other : σ} {record : Record σ α}
    (h : ∀ field ∈ record.fields, field.get s = field.get other) :
    record.rebuild s = record.rebuild other := by
  induction record with
  | start => rfl
  | field front name get codec absent omitted ih =>
    rw [fields, List.forall_mem_append, List.forall_mem_singleton] at h
    obtain ⟨hfront, hlast⟩ := h
    have hlast : get s = get other := hlast
    rw [rebuild, rebuild, ih hfront, hlast]

/-! ## Values of all fields -/

/-- A value for every field. -/
def Values {α : Type} : Record σ α → Type
  | start _ => Unit
  | field (β := β) front .. => front.Values × β

/-- What the values make. -/
def make {α : Type} : (record : Record σ α) → record.Values → α
  | start a, _ => a
  | field front .., values => front.make values.1 values.2

/-- The values that a structure has. -/
def project {α : Type} (s : σ) : (record : Record σ α) → record.Values
  | start _ => ()
  | field front _ get .. => (front.project s, get s)

/-- What is made of values has those values. -/
def Lawful (record : Record σ σ) : Prop := ∀ values, record.project (record.make values) = values

/-- Every value is what is read for its field. -/
def Reads {α : Type} (dialect : Dialect) (members : Members) :
    (record : Record σ α) → record.Values → Prop
  | start _, _ => True
  | field front name _ codec absent _, values =>
    front.Reads dialect members values.1 ∧
      fieldValue dialect members name codec absent = some values.2

theorem exists_reads {α : Type} {dialect : Dialect} {members : Members} {record : Record σ α} {a : α}
    (h : record.decodeNamed dialect members = some a) :
    ∃ values, record.make values = a ∧ record.Reads dialect members values := by
  induction record with
  | start a =>
    exact ⟨(), Option.some.inj h, trivial⟩
  | field front name get codec absent omitted ih =>
    obtain ⟨make, hmake, h⟩ := Option.bind_eq_some_iff.1 h
    obtain ⟨value, hvalue, h⟩ := Option.bind_eq_some_iff.1 h
    obtain ⟨values, hvalues, hreads⟩ := ih hmake
    refine ⟨(values, value), ?_, hreads, hvalue⟩
    show front.make values value = _
    rw [hvalues]
    exact Option.some.inj h

theorem Reads.fieldValue {α : Type} {dialect : Dialect} {members : Members} {s : σ}
    {record : Record σ α} (h : record.Reads dialect members (record.project s)) :
    ∀ field ∈ record.fields, fieldValue dialect members field.name field.codec field.absent =
      some (field.get s) := by
  induction record with
  | start => exact fun _ hfield => nomatch hfield
  | field front name get codec absent omitted ih =>
    rw [fields, List.forall_mem_append, List.forall_mem_singleton]
    exact ⟨ih h.1, h.2⟩

/-- A structure that is read has in every field what is read for it. -/
theorem fieldValue_of_decodeNamed {dialect : Dialect} {members : Members} {record : Record σ σ}
    (hlawful : record.Lawful) {s : σ} (h : record.decodeNamed dialect members = some s) :
    ∀ field ∈ record.fields, fieldValue dialect members field.name field.codec field.absent =
      some (field.get s) := by
  obtain ⟨values, rfl, hreads⟩ := exists_reads h
  rw [← hlawful values] at hreads
  exact hreads.fieldValue

/-- Where names occur once, the value of a field is what stands under its name. -/
theorem fieldValue_of_get? {members : Members} (hnames : members.names.Nodup) {name : String}
    {value : Json} (h : members.get? name = some value) (dialect : Dialect) (codec : Codec β)
    (absent : Absence β) :
    fieldValue dialect members name codec absent = codec.decode dialect value := by
  unfold fieldValue
  rw [Members.filter_eq_singleton hnames h]

/-! ## What is written of a field -/

theorem get?_encode {s : σ} {record : Record σ α} (hnames : record.names.Nodup) :
    ∀ field ∈ record.fields, field.omitted (field.get s) = false →
      Members.get? (record.encode s) field.name = some (field.codec.encode (field.get s)) := by
  induction record with
  | start => exact fun _ hfield => nomatch hfield
  | field front name get codec absent omitted ih =>
    rw [names, List.nodup_append] at hnames
    obtain ⟨hfront, -, hapart⟩ := hnames
    rw [fields, List.forall_mem_append, List.forall_mem_singleton]
    unfold encode
    refine ⟨fun field hfield hwritten => ?_, fun hwritten => ?_⟩
    · rw [Members.get?_append, ih hfront field hfield hwritten]
      rfl
    · have hnone : Members.get? (front.encode s) name = none := by
        refine Members.get?_eq_none_iff.2 fun hmem => ?_
        obtain ⟨member, hmember, rfl⟩ := List.mem_map.1 hmem
        exact hapart _ (fst_mem_names hmember) _ (List.mem_singleton_self _) rfl
      have hwritten : omitted (get s) = false := hwritten
      rw [Members.get?_append, hnone, Option.none_or, hwritten]
      exact Members.get?_cons_self _ _ _

end Record

/-- A field of a structure is written, and what is written of it is read back. -/
structure Field.Kept {σ : Type} (field : Field σ) (s : σ) : Prop where
  written : field.omitted (field.get s) = false
  decode_encode : field.codec.decode .json (field.codec.encode (field.get s)) = some (field.get s)

namespace Record

variable {σ : Type}

/-- The record writes all fields of a structure under names of their own and reads them back. -/
structure Keeps (record : Record σ σ) (s : σ) : Prop where
  lawful : record.Lawful
  names : record.names.Nodup
  rebuild : record.rebuild s = s
  fields : ∀ field ∈ record.fields, field.Kept s

variable {record : Record σ σ} {s result : σ} {patches : Members}

theorem readsBack_of_kept {α : Type} {record : Record σ α}
    (h : ∀ field ∈ record.fields, field.Kept s) : record.ReadsBack .json s := by
  induction record with
  | start => trivial
  | field front name get codec absent omitted ih =>
    rw [Record.fields, List.forall_mem_append, List.forall_mem_singleton] at h
    obtain ⟨hfront, hwritten, hdecode⟩ := h
    refine ⟨ih hfront, ?_⟩
    rw [if_neg (by simpa using hwritten)]
    exact hdecode

theorem closedOver_encode (record : Record σ σ) (s : σ) :
    record.closedOver (record.encode s) = true :=
  List.all_eq_true.2 fun _ hmember => List.elem_eq_true_of_mem (fst_mem_names hmember)

theorem decode_obj (closed : Bool) (record : Record σ σ) (dialect : Dialect) (members : Members) :
    record.decode closed dialect (.obj members) =
      if closed && !record.closedOver members then none else record.decodeNamed dialect members :=
  rfl

theorem Keeps.decode_encode (h : record.Keeps s) (closed : Bool) :
    (record.codec closed).decode .json ((record.codec closed).encode s) = some s := by
  show record.decode closed .json (.obj (record.encode s)) = some s
  rw [decode_obj, closedOver_encode, Bool.not_true, Bool.and_false, if_neg Bool.false_ne_true,
    decodeNamed_encode h.names (readsBack_of_kept h.fields), h.rebuild]

/-- A closed record reads only members that it has fields for. -/
theorem decode_obj_eq_some {members : Members}
    (h : record.decode true .json (.obj members) = some result) :
    (∀ name ∈ members.names, name ∈ record.names) ∧
      record.decodeNamed .json members = some result := by
  rw [decode_obj] at h
  cases hclosed : record.closedOver members with
  | false => simp [hclosed] at h
  | true =>
    rw [hclosed, Bool.not_true, Bool.and_false, if_neg Bool.false_ne_true] at h
    refine ⟨fun name hname => ?_, h⟩
    obtain ⟨member, hmember, rfl⟩ := List.mem_map.1 hname
    exact List.mem_of_elem_eq_true (List.all_eq_true.1 hclosed member hmember)

/-- From an array the fields are read by place: each item is read by the codec of the field in its
place, and the others are left. -/
theorem decode_of_decodeItems {α : Type} {record : Record σ α} {dialect : Dialect}
    {items left : List Json} {a : α} (h : record.decodeItems dialect items = some (a, left)) :
    left = items.drop record.fields.length ∧
      ∀ (i : Nat) (field : Field σ) (item : Json), record.fields[i]? = some field →
        items[i]? = some item → (field.codec.decode dialect item).isSome = true := by
  induction record generalizing left with
  | start =>
    obtain ⟨-, rfl⟩ := Prod.mk.inj (Option.some.inj h)
    exact ⟨rfl, fun _ _ _ hfield _ => by simp [fields] at hfield⟩
  | field front name get codec absent omitted ih =>
    obtain ⟨⟨make, others⟩, hfront, h⟩ := Option.bind_eq_some_iff.1 h
    obtain ⟨hothers, hitems⟩ := ih hfront
    rw [fields, List.length_append, List.length_singleton, ← List.drop_drop, ← hothers]
    have hlast : others.head? = items[front.fields.length]? := by
      rw [hothers, List.head?_drop]
    -- the last field is read from the first of the others
    have hread : left = others.drop 1 ∧
        ∀ item, others.head? = some item → (codec.decode dialect item).isSome = true := by
      cases others with
      | nil =>
        obtain ⟨value, -, h⟩ := Option.bind_eq_some_iff.1 h
        exact ⟨(Prod.mk.inj (Option.some.inj h)).2.symm, fun _ hitem => nomatch hitem⟩
      | cons first rest =>
        obtain ⟨value, hvalue, h⟩ := Option.bind_eq_some_iff.1 h
        refine ⟨(Prod.mk.inj (Option.some.inj h)).2.symm, fun item hitem => ?_⟩
        rw [← Option.some.inj hitem, hvalue]
        rfl
    refine ⟨hread.1, fun i field item hfield hitem => ?_⟩
    rw [List.getElem?_append] at hfield
    split at hfield
    · exact hitems i field item hfield hitem
    · rename_i hi
      obtain ⟨hindex, hfield⟩ := List.getElem?_eq_some_iff.1 hfield
      have hplace : i = front.fields.length := by
        rw [List.length_singleton] at hindex
        omega
      subst hplace
      obtain rfl : _ = field := by simpa using hfield
      exact hread.2 item (hlast.trans hitem)

/-- What a structure has that is read after members were merged into a written one. -/
structure Merged (record : Record σ σ) (s : σ) (patches : Members) (result : σ) : Prop where
  /-- The merged members are fields. -/
  named : ∀ name ∈ patches.names, name ∈ record.names
  /-- A field with a member has the value that is read after merging. -/
  patched : ∀ field ∈ record.fields, ∀ value, patches.get? field.name = some value →
    field.codec.decode .json (Json.merge (field.codec.encode (field.get s)) value) =
      some (field.get result)
  /-- Any other field is as it was. -/
  kept : ∀ field ∈ record.fields, patches.get? field.name = none → field.get result = field.get s

theorem Keeps.merged (h : record.Keeps s) (hpatches : patches.names.Nodup)
    (hdecode : (record.codec true).decode .json
      (Json.merge ((record.codec true).encode s) (.obj patches)) = some result) :
    record.Merged s patches result := by
  have hmerge : Json.merge ((record.codec true).encode s) (.obj patches) =
      .obj (Json.mergeMembers (record.encode s) patches) := Json.merge_obj _ _
  rw [hmerge] at hdecode
  have hnames : (Json.mergeMembers (record.encode s) patches).names.Nodup :=
    Json.nodup_names_mergeMembers _ ((map_fst_encode_sublist s record).nodup h.names)
  obtain ⟨hnamed, hdecode⟩ := decode_obj_eq_some hdecode
  have hread := fieldValue_of_decodeNamed h.lawful hdecode
  refine ⟨fun name hname => ?_, fun field hfield value hvalue => ?_, fun field hfield hnone => ?_⟩
  · exact hnamed name (Json.mem_names_mergeMembers_iff.2 (.inr hname))
  · have hwritten := get?_encode h.names field hfield (h.fields field hfield).written
    rw [← hread field hfield, fieldValue_of_get? hnames
      (Json.get?_mergeMembers_of_get? hpatches hvalue hwritten)]
  · have hwritten := get?_encode h.names field hfield (h.fields field hfield).written
    have hget := (Json.get?_mergeMembers_of_not_mem (Members.get?_eq_none_iff.1 hnone)).trans hwritten
    have hfieldValue := hread field hfield
    rw [fieldValue_of_get? hnames hget, (h.fields field hfield).decode_encode] at hfieldValue
    exact (Option.some.inj hfieldValue).symm

/-- A field that is not written as an object has the value that a member gives it. -/
theorem Merged.decode_of_get? (h : record.Merged s patches result) {field : Field σ}
    (hfield : field ∈ record.fields) (hobj : (field.codec.encode (field.get s)).isObj = false)
    {value : Json} (hvalue : patches.get? field.name = some value) :
    field.codec.decode .json value = some (field.get result) := by
  rw [← h.patched field hfield value hvalue, Json.merge_of_not_isObj hobj]

end Record

end TradeGate
