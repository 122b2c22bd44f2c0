import TradeGate.Proofs.Json.Field

/-!
# Records with members merged in

What is read after merging into a written record is told field by field. A record whose missing
fields stand for what a structure has reads a value as it reads that value merged into what is
written of the structure (`Record.Keeps.absorbs`).
-/

namespace TradeGate

/-- Merging a value into what is written of `b` makes no difference to what is read. -/
def Codec.Absorbs {β : Type} (codec : Codec β) (b : β) : Prop :=
  ∀ value : Json, value.namesOnce = true →
    codec.decode .json (Json.merge (codec.encode b) value) = codec.decode .json value

theorem Codec.absorbs_of_not_isObj {β : Type} {codec : Codec β} {b : β}
    (h : (codec.encode b).isObj = false) : codec.Absorbs b := by
  intro value _
  rw [Json.merge_of_not_isObj h]

/-- The first member of a name is found by its name. -/
theorem Members.get?_eq_head?_filter (members : Members) (name : String) :
    members.get? name = (members.filter (·.1 = name)).head?.map Prod.snd := by
  induction members with
  | nil => rfl
  | cons head rest ih =>
    obtain ⟨key, value⟩ := head
    by_cases h : name = key
    · subst h
      rw [get?_cons_self, List.filter_cons_of_pos (by simp)]
      rfl
    · rw [get?_cons_of_ne h, List.filter_cons_of_neg (by simpa using Ne.symm h), ih]

namespace Record

variable {σ α β : Type}

/-! ## Fields one by one -/

/-- What is read of an object depends on what is read for the fields alone. -/
theorem decodeNamed_congr {dialect other : Dialect} {members others : Members} {record : Record σ α}
    (h : ∀ field ∈ record.fields,
      fieldValue dialect members field.name field.codec field.absent =
        fieldValue other others field.name field.codec field.absent) :
    record.decodeNamed dialect members = record.decodeNamed other others := by
  induction record with
  | start => rfl
  | field front name get codec absent omitted ih =>
    rw [fields, List.forall_mem_append, List.forall_mem_singleton] at h
    obtain ⟨hfront, hlast⟩ := h
    have hlast : fieldValue dialect members name codec absent =
      fieldValue other others name codec absent := hlast
    rw [decodeNamed, decodeNamed, ih hfront, hlast]

theorem fieldValue_of_get?_eq_none {members : Members} {name : String}
    (h : members.get? name = none) (dialect : Dialect) (codec : Codec β) (absent : Absence β) :
    fieldValue dialect members name codec absent = absent.named := by
  rw [Members.get?_eq_head?_filter, Option.map_eq_none_iff, List.head?_eq_none_iff] at h
  unfold fieldValue
  rw [h]

theorem closedOver_iff {record : Record σ α} {members : Members} :
    record.closedOver members = true ↔ ∀ name ∈ members.names, name ∈ record.names := by
  unfold closedOver Members.names
  simp

/-- Merging into a written record adds no name but those of the patch. -/
theorem closedOver_mergeMembers (record : Record σ σ) (s : σ) (patches : Members) :
    record.closedOver (Json.mergeMembers (record.encode s) patches) = record.closedOver patches := by
  rw [Bool.eq_iff_iff, closedOver_iff, closedOver_iff]
  constructor
  · exact fun h name hname => h name (Json.mem_names_mergeMembers_iff.2 (Or.inr hname))
  · intro h name hname
    rcases Json.mem_names_mergeMembers_iff.1 hname with hname | hname
    · exact closedOver_iff.1 (closedOver_encode record s) name hname
    · exact h name hname

/-! ## Merging into defaults -/

/-- Where missing fields stand for what a structure has, merging into what is written of it makes no
difference. -/
theorem Keeps.absorbs {record : Record σ σ} {s : σ} (h : record.Keeps s)
    (hfields : ∀ field ∈ record.fields,
      field.absent.named = some (field.get s) ∧ field.codec.Absorbs (field.get s)) :
    (record.codec true).Absorbs s := by
  intro value hvalue
  cases value with
  | obj patches =>
    have hmerge : Json.merge ((record.codec true).encode s) (.obj patches) =
        .obj (Json.mergeMembers (record.encode s) patches) := Json.merge_obj _ _
    have hpatches := Json.nodup_of_namesOnce hvalue
    have hnames : (Json.mergeMembers (record.encode s) patches).names.Nodup :=
      Json.nodup_names_mergeMembers _ ((map_fst_encode_sublist s record).nodup h.names)
    rw [Json.namesOnce, Bool.and_eq_true] at hvalue
    have hsame : record.decodeNamed .json (Json.mergeMembers (record.encode s) patches) =
        record.decodeNamed .json patches := by
      refine decodeNamed_congr fun field hfield => ?_
      obtain ⟨habsent, habsorbs⟩ := hfields field hfield
      have hwritten := get?_encode h.names field hfield (h.fields field hfield).written
      cases hpatch : Members.get? patches field.name with
      | none =>
        have hget := (Json.get?_mergeMembers_of_not_mem
          (Members.get?_eq_none_iff.1 hpatch)).trans hwritten
        rw [fieldValue_of_get? hnames hget, fieldValue_of_get?_eq_none hpatch, habsent,
          (h.fields field hfield).decode_encode]
      | some inner =>
        have hget := Json.get?_mergeMembers_of_get? hpatches hpatch hwritten
        rw [fieldValue_of_get? hnames hget, fieldValue_of_get? hpatches hpatch]
        exact habsorbs inner (Json.namesOnce_of_get? hvalue.2 hpatch)
    rw [hmerge]
    show record.decode true .json (.obj _) = record.decode true .json (.obj patches)
    rw [decode_obj, decode_obj, closedOver_mergeMembers, hsame]
  | null | bool | int | float | str | arr | malformed =>
    rw [Json.merge_of_patch_not_isObj _ rfl]

end Record

end TradeGate
