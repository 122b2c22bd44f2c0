import Mathlib.Data.Option.Basic
import TradeGate.Proofs.Json.Update

/-!
# Updates one after the other

A value is updated by merging another one into what is written of it and reading the result. A codec
composes if updating twice is as good as updating once with both values merged
(`Codec.ComposesAt`). A codec of plain values composes if a given value is replaced by the next one;
a record does if its fields do (`Record.Sound.composesAt`), so that merging, which is not
associative, composes where every value in between is read as a record.
-/

namespace TradeGate

/-- The second value merged into the first, where both are given. -/
def Json.mergeGiven? : Option Json → Option Json → Option Json
  | some first, some second => some (merge first second)
  | some first, none => some first
  | none, second? => second?

theorem Json.get?_mergeMembers {name : String} {patches : List (String × Json)} {members : Members}
    (hpatches : (Members.names patches).Nodup) :
    (mergeMembers members patches).get? name =
      mergeGiven? (members.get? name) (Members.get? patches name) := by
  induction patches generalizing members with
  | nil =>
    show members.get? name = mergeGiven? (members.get? name) none
    cases members.get? name <;> rfl
  | cons patch rest ih =>
    obtain ⟨key, value⟩ := patch
    obtain ⟨hkey, hrest⟩ := List.nodup_cons.1 hpatches
    rw [mergeMembers, ih hrest]
    by_cases h : name = key
    · subst h
      rw [Members.get?_cons_self, Members.get?_set_self, Members.get?_eq_none_iff.2 hkey]
      cases members.get? name <;> rfl
    · rw [Members.get?_cons_of_ne h, Members.get?_set_of_ne h]

theorem Json.mergeGiven?_eq_none_iff {first? second? : Option Json} :
    mergeGiven? first? second? = none ↔ first? = none ∧ second? = none := by
  cases first? <;> cases second? <;> simp [mergeGiven?]

theorem exists_of_rel_some {α β : Type} {r : α → β → Prop} {a : α} {y : Option β}
    (h : Option.Rel r (some a) y) : ∃ b, y = some b ∧ r a b := by
  cases h with
  | some hr => exact ⟨_, rfl, hr⟩

theorem exists_of_rel_some_right {α β : Type} {r : α → β → Prop} {x : Option α} {b : β}
    (h : Option.Rel r x (some b)) : ∃ a, x = some a := by
  cases h with
  | some hr => exact ⟨_, rfl⟩

namespace Codec

variable {β : Type} (codec : Codec β)

/-- What is read after a value, if one is given, was merged into what is written of `b`. -/
def update (b : β) (given? : Option Json) : Option β :=
  codec.decode .json (given?.elim (codec.encode b) (Json.merge (codec.encode b)))

/-- What is written of the two is read as the same. -/
def Alike (b other : β) : Prop := ∃ c, codec.update b none = some c ∧ codec.update other none = some c

/-- Updating with one value and then with another gives what updating with both merged gives, and
updating with the first one again changes nothing. -/
def ComposesAt (first? second? : Option Json) : Prop :=
  ∀ b b', codec.update b first? = some b' →
    Option.Rel codec.Alike (codec.update b' second?)
        (codec.update b (Json.mergeGiven? first? second?)) ∧
      codec.update b' first? = some b'

/-! ## Plain values -/

/-- What is written is no object, and what is read of it is read again. -/
structure Settles : Prop where
  isObj_encode : ∀ b, (codec.encode b).isObj = false
  settled : ∀ b b', codec.decode .json (codec.encode b) = some b' →
    codec.decode .json (codec.encode b') = some b'

/-- What is read from a value can be written and read again. -/
def Rereads (value : Json) : Prop :=
  ∀ b, codec.decode .json value = some b → ∃ b', codec.decode .json (codec.encode b) = some b'

variable {codec}

theorem Settles.update_some (h : codec.Settles) (b : β) (value : Json) :
    codec.update b (some value) = codec.decode .json value := by
  unfold update
  rw [Option.elim_some, Json.merge_of_not_isObj (h.isObj_encode b)]

theorem Settles.alike_of_decode (h : codec.Settles) {value : Json} (hvalue : codec.Rereads value)
    {b : β} (hb : codec.decode .json value = some b) :
    ∃ b', codec.update b none = some b' ∧ codec.Alike b' b := by
  obtain ⟨b', hb'⟩ := hvalue b hb
  exact ⟨b', hb', b', h.settled b b' hb', hb'⟩

/-- A codec of plain values composes where the second of two given values replaces the first. -/
theorem Settles.composesAt (h : codec.Settles) {first? second? : Option Json}
    (hfirst : ∀ value ∈ first?, codec.Rereads value) (hsecond : ∀ value ∈ second?, codec.Rereads value)
    (hreplaces : ∀ value other, first? = some value → second? = some other →
      (codec.decode .json value).isSome = true →
        codec.decode .json (Json.merge value other) = codec.decode .json other) :
    codec.ComposesAt first? second? := by
  intro b b' hb'
  have hsame {value : Json} (hvalue : codec.Rereads value) :
      Option.Rel codec.Alike (codec.decode .json value) (codec.decode .json value) := by
    cases hread : codec.decode .json value with
    | none => exact .none
    | some c =>
      obtain ⟨c', hc', -⟩ := h.alike_of_decode hvalue hread
      exact .some ⟨c', hc', hc'⟩
  cases first? with
  | none =>
    have hsettled : codec.update b' none = some b' := h.settled b b' hb'
    refine ⟨?_, hsettled⟩
    cases second? with
    | none =>
      show Option.Rel codec.Alike (codec.update b' none) (codec.update b none)
      rw [hsettled, hb']
      exact .some ⟨b', hsettled, hsettled⟩
    | some value =>
      show Option.Rel codec.Alike (codec.update b' (some value)) (codec.update b (some value))
      rw [h.update_some, h.update_some]
      exact hsame (hsecond value rfl)
  | some value =>
    rw [h.update_some] at hb'
    refine ⟨?_, by rw [h.update_some, hb']⟩
    cases second? with
    | none =>
      obtain ⟨c, hc, halike⟩ := h.alike_of_decode (hfirst value rfl) hb'
      show Option.Rel codec.Alike (codec.update b' none) (codec.update b (some value))
      rw [hc, h.update_some, hb']
      exact .some halike
    | some other =>
      show Option.Rel codec.Alike (codec.update b' (some other))
        (codec.update b (some (Json.merge value other)))
      rw [h.update_some, h.update_some, hreplaces value other rfl rfl (by rw [hb']; rfl)]
      exact hsame (hsecond other rfl)

/-- Objects apart, the second of two given values replaces the first. -/
theorem Settles.composesAt_of_decode_obj (h : codec.Settles) {first? second? : Option Json}
    (hfirst : ∀ value ∈ first?, codec.Rereads value) (hsecond : ∀ value ∈ second?, codec.Rereads value)
    (hobj : ∀ members, codec.decode .json (.obj members) = none) :
    codec.ComposesAt first? second? := by
  refine h.composesAt hfirst hsecond fun value other _ _ hread => ?_
  cases value with
  | obj members =>
    rw [hobj] at hread
    exact nomatch hread
  | null | bool | int | float | str | arr | malformed => rw [Json.merge_of_not_isObj rfl]

/-- A codec that reads back all that it writes, and reads no objects, composes. -/
theorem composesAt_of_plain (hplain : ∀ b, (codec.encode b).isObj = false)
    (hdecode : ∀ b, codec.decode .json (codec.encode b) = some b)
    (hobj : ∀ members, codec.decode .json (.obj members) = none) (first? second? : Option Json) :
    codec.ComposesAt first? second? :=
  Settles.composesAt_of_decode_obj ⟨hplain, fun _ b' _ => hdecode b'⟩
    (fun _ _ b _ => ⟨b, hdecode b⟩) (fun _ _ b _ => ⟨b, hdecode b⟩) hobj

/-- Names compose unless two different ones are given as objects, which merging would join. -/
theorem composesAt_named {values : List β} {name : β → String}
    (hvalues : ∀ b, values.find? (name · = name b) = some b) {first? second? : Option Json}
    (hnames : ∀ first second, first? = some (.obj first) → second? = some (.obj second) →
      Members.names first = Members.names second) :
    (named values name).ComposesAt first? second? := by
  refine Settles.composesAt ⟨fun _ => rfl, fun _ b' _ => hvalues b'⟩ (fun _ _ b _ => ⟨b, hvalues b⟩)
    (fun _ _ b _ => ⟨b, hvalues b⟩) fun value other hfirst hsecond hread => ?_
  cases value with
  | obj first =>
    cases other with
    | obj second =>
      have hsame := hnames first second hfirst hsecond
      match first, second, hread, hsame with
      | [(s, payload)], [(s', payload')], hread, hsame =>
        obtain rfl : s = s' := (List.cons.inj hsame).1
        have hnull : payload = .null := by
          cases payload with
          | null => rfl
          | bool | int | float | str | arr | obj | malformed => exact nomatch hread
        subst hnull
        have hmerge : Json.merge (.obj [(s, .null)]) (.obj [(s, payload')]) = .obj [(s, payload')] := by
          rw [Json.merge_obj, Json.mergeMembers, Json.mergeMembers, Members.get?_cons_self]
          dsimp only
          rw [Json.merge_of_not_isObj rfl, Members.set, if_pos rfl]
        rw [hmerge]
    | null | bool | int | float | str | arr | malformed => rw [Json.merge_of_patch_not_isObj _ rfl]
  | null | bool | int | float | str | arr | malformed => rw [Json.merge_of_not_isObj rfl]

end Codec

/-! ## Objects that are given -/

namespace Json

/-- The members of an object that is given. -/
def givenMembers : Option Json → Members
  | some (obj members) => members
  | _ => []

/-- Nothing is given but an object. -/
def GivesObject (given? : Option Json) : Prop :=
  ∀ value, given? = some value → ∃ members, value = .obj members ∧ (Members.names members).Nodup

variable {first? second? : Option Json}

theorem GivesObject.cases {given? : Option Json} (h : GivesObject given?) :
    given? = none ∨ ∃ members, given? = some (.obj members) ∧ (Members.names members).Nodup := by
  cases given? with
  | none => exact Or.inl rfl
  | some value =>
    obtain ⟨members, rfl, hnames⟩ := h value rfl
    exact Or.inr ⟨members, rfl, hnames⟩

theorem GivesObject.nodup {given? : Option Json} (h : GivesObject given?) :
    (givenMembers given?).names.Nodup := by
  rcases h.cases with rfl | ⟨members, rfl, hnames⟩
  · exact List.nodup_nil
  · exact hnames

theorem GivesObject.mergeGiven? (hfirst : GivesObject first?) (hsecond : GivesObject second?) :
    GivesObject (mergeGiven? first? second?) := by
  rcases hfirst.cases with rfl | ⟨first, rfl, hnames⟩
  · exact hsecond
  · rcases hsecond.cases with rfl | ⟨second, rfl, -⟩
    · exact hfirst
    · rintro value hvalue
      rw [← Option.some.inj hvalue, merge_obj]
      exact ⟨_, rfl, nodup_names_mergeMembers _ hnames⟩

theorem get?_givenMembers_mergeGiven? (hfirst : GivesObject first?) (hsecond : GivesObject second?)
    (name : String) :
    (givenMembers (Json.mergeGiven? first? second?)).get? name =
      Json.mergeGiven? ((givenMembers first?).get? name) ((givenMembers second?).get? name) := by
  rcases hfirst.cases with rfl | ⟨first, rfl, -⟩
  · rfl
  · rcases hsecond.cases with rfl | ⟨second, rfl, hnames⟩
    · show Members.get? first name = Json.mergeGiven? (Members.get? first name) none
      cases Members.get? first name <;> rfl
    · show (givenMembers (some (merge (.obj first) (.obj second)))).get? name = _
      rw [merge_obj]
      exact get?_mergeMembers hnames

end Json

namespace Record

variable {σ α : Type}

/-! ## Records -/

/-- A record is made of its fields, which have names of their own and are always written. -/
structure Sound (record : Record σ σ) : Prop where
  lawful : record.Lawful
  names : record.names.Nodup
  rebuild : ∀ s, record.rebuild s = s
  written : ∀ field ∈ record.fields, ∀ b, field.omitted b = false

/-- Values of all fields come from a structure. -/
theorem Lawful.exists_of_fields {record : Record σ σ} (h : record.Lawful)
    {P : (field : Field σ) → field.β → Prop} (hfields : ∀ field ∈ record.fields, ∃ b, P field b) :
    ∃ s, ∀ field ∈ record.fields, P field (field.get s) := by
  have hvalues {α : Type} (record : Record σ α) (hrecord : ∀ field ∈ record.fields, ∃ b, P field b) :
      ∃ values, ∀ s, record.project s = values → ∀ field ∈ record.fields, P field (field.get s) := by
    induction record with
    | start => exact ⟨(), fun _ _ _ hfield => nomatch hfield⟩
    | field front name get codec absent omitted ih =>
      rw [fields, List.forall_mem_append, List.forall_mem_singleton] at hrecord
      obtain ⟨values, hfront⟩ := ih hrecord.1
      obtain ⟨b, hb⟩ := hrecord.2
      refine ⟨(values, b), fun s hs => ?_⟩
      obtain ⟨hvalues, hlast⟩ := Prod.mk.inj hs
      rw [fields, List.forall_mem_append, List.forall_mem_singleton]
      refine ⟨hfront s hvalues, ?_⟩
      subst hlast
      exact hb
  obtain ⟨values, hs⟩ := hvalues record hfields
  exact ⟨record.make values, hs _ (h values)⟩

/-- What fields are read as makes a structure. -/
theorem decodeNamed_of_fieldValue {dialect : Dialect} {members : Members} {s : σ}
    {record : Record σ α} (h : ∀ field ∈ record.fields,
      fieldValue dialect members field.name field.codec field.absent = some (field.get s)) :
    record.decodeNamed dialect members = some (record.rebuild s) := by
  induction record with
  | start => rfl
  | field front name get codec absent omitted ih =>
    rw [fields, List.forall_mem_append, List.forall_mem_singleton] at h
    obtain ⟨hfront, hlast⟩ := h
    have hlast : fieldValue dialect members name codec absent = some (get s) := hlast
    rw [decodeNamed, ih hfront, hlast]
    rfl

namespace Sound

variable {record : Record σ σ} {s result : σ} {patches : Members}

/-- Updating a record is updating its fields, provided that only fields are named. -/
theorem update_eq_some_iff (h : record.Sound) (hpatches : patches.names.Nodup) :
    (record.codec true).update s (some (.obj patches)) = some result ↔
      (∀ name ∈ patches.names, name ∈ record.names) ∧
        ∀ field ∈ record.fields, field.codec.update (field.get s) (patches.get? field.name) =
          some (field.get result) := by
  have hmerge : (record.codec true).update s (some (.obj patches)) =
      record.decode true .json (.obj (Json.mergeMembers (record.encode s) patches)) :=
    congrArg (record.decode true .json) (Json.merge_obj _ _)
  have hnames : (Json.mergeMembers (record.encode s) patches).names.Nodup :=
    Json.nodup_names_mergeMembers _ ((map_fst_encode_sublist s record).nodup h.names)
  have hvalue : ∀ field ∈ record.fields,
      fieldValue .json (Json.mergeMembers (record.encode s) patches) field.name field.codec
          field.absent =
        field.codec.update (field.get s) (patches.get? field.name) := by
    intro field hfield
    have hget := get?_encode h.names field hfield (h.written field hfield (field.get s))
    have hmerged := @Json.get?_mergeMembers field.name patches (record.encode s) hpatches
    rw [hget] at hmerged
    cases hpatch : patches.get? field.name with
    | none =>
      rw [hpatch] at hmerged
      exact fieldValue_of_get? hnames hmerged _ _ _
    | some value =>
      rw [hpatch] at hmerged
      exact fieldValue_of_get? hnames hmerged _ _ _
  rw [hmerge, ← closedOver_iff, ← closedOver_mergeMembers record s patches, decode_obj]
  cases hclosed : record.closedOver (Json.mergeMembers (record.encode s) patches) with
  | false => simp
  | true =>
    rw [Bool.not_true, Bool.and_false, if_neg Bool.false_ne_true]
    constructor
    · intro hdecode
      refine ⟨rfl, fun field hfield => ?_⟩
      rw [← hvalue field hfield]
      exact fieldValue_of_decodeNamed h.lawful hdecode field hfield
    · rintro ⟨-, hfields⟩
      rw [decodeNamed_of_fieldValue fun field hfield => (hvalue field hfield).trans
        (hfields field hfield), h.rebuild]

theorem update_none (record : Record σ σ) (s : σ) :
    (record.codec true).update s none = (record.codec true).update s (some (.obj [])) := by
  have hmerge : Json.merge ((record.codec true).encode s) (.obj []) =
      (record.codec true).encode s := by
    show Json.merge (.obj (record.encode s)) (.obj []) = .obj (record.encode s)
    rw [Json.merge_obj, Json.mergeMembers]
  exact congrArg ((record.codec true).decode .json) hmerge.symm

/-- What is written of a structure is read field by field. -/
theorem update_none_eq_some_iff (h : record.Sound) :
    (record.codec true).update s none = some result ↔
      ∀ field ∈ record.fields, field.codec.update (field.get s) none = some (field.get result) := by
  have hnames : (Members.names []).Nodup := List.nodup_nil
  rw [update_none, h.update_eq_some_iff hnames]
  exact and_iff_right fun _ hname => nomatch hname

/-- What is written of a structure is read as another one, if that is so of its fields. -/
theorem eq_of_update_none (h : record.Sound) (hresult : (record.codec true).update s none = some result)
    {t : σ} (hfields : ∀ field ∈ record.fields, ∀ b,
      field.codec.update (field.get s) none = some b → b = field.get t) : result = t := by
  have hread := h.update_none_eq_some_iff.1 hresult
  rw [← h.rebuild result, ← h.rebuild t]
  exact rebuild_congr fun field hfield => hfields field hfield _ (hread field hfield)

/-- Structures are alike if their fields are. -/
theorem alike (h : record.Sound) {other : σ}
    (hfields : ∀ field ∈ record.fields, field.codec.Alike (field.get s) (field.get other)) :
    (record.codec true).Alike s other := by
  obtain ⟨t, ht⟩ := h.lawful.exists_of_fields hfields
  exact ⟨t, h.update_none_eq_some_iff.2 fun field hfield => (ht field hfield).1,
    h.update_none_eq_some_iff.2 fun field hfield => (ht field hfield).2⟩

/-- Updates of two structures are alike if they name fields only and those are updated alike. -/
theorem rel_update {t : σ} {others : Members} (h : record.Sound) (hpatches : patches.names.Nodup)
    (hothers : others.names.Nodup) (hnamed : (∀ name ∈ patches.names, name ∈ record.names) ↔
      ∀ name ∈ others.names, name ∈ record.names)
    (hfields : ∀ field ∈ record.fields, Option.Rel field.codec.Alike
      (field.codec.update (field.get s) (patches.get? field.name))
      (field.codec.update (field.get t) (others.get? field.name))) :
    Option.Rel (record.codec true).Alike ((record.codec true).update s (some (.obj patches)))
      ((record.codec true).update t (some (.obj others))) := by
  cases hleft : (record.codec true).update s (some (.obj patches)) with
  | some left =>
    obtain ⟨hnames, hupdate⟩ := (h.update_eq_some_iff hpatches).1 hleft
    have hother : ∀ field ∈ record.fields, ∃ b,
        field.codec.update (field.get t) (others.get? field.name) = some b ∧
          field.codec.Alike (field.get left) b := by
      intro field hfield
      have hrel := hfields field hfield
      rw [hupdate field hfield] at hrel
      exact exists_of_rel_some hrel
    obtain ⟨right, hright⟩ := h.lawful.exists_of_fields hother
    rw [(h.update_eq_some_iff hothers).2
      ⟨hnamed.1 hnames, fun field hfield => (hright field hfield).1⟩]
    exact .some (h.alike fun field hfield => (hright field hfield).2)
  | none =>
    cases hright : (record.codec true).update t (some (.obj others)) with
    | none => exact .none
    | some right =>
      obtain ⟨hnames, hupdate⟩ := (h.update_eq_some_iff hothers).1 hright
      have hother : ∀ field ∈ record.fields, ∃ b,
          field.codec.update (field.get s) (patches.get? field.name) = some b := by
        intro field hfield
        have hrel := hfields field hfield
        rw [hupdate field hfield] at hrel
        exact exists_of_rel_some_right hrel
      obtain ⟨left, hleft'⟩ := h.lawful.exists_of_fields hother
      have hread := (h.update_eq_some_iff hpatches).2 ⟨hnamed.2 hnames, hleft'⟩
      exact nomatch hleft.symm.trans hread

section Composition

variable {first second merged : Members}

theorem mem_names_merged
    (hmerged : ∀ name, merged.get? name = Json.mergeGiven? (first.get? name) (second.get? name))
    {name : String} : name ∈ merged.names ↔ name ∈ first.names ∨ name ∈ second.names := by
  have hnone := hmerged name
  rw [← not_iff_not, not_or, ← Members.get?_eq_none_iff, ← Members.get?_eq_none_iff,
    ← Members.get?_eq_none_iff, hnone, Json.mergeGiven?_eq_none_iff]

/-- A record that composes in all its fields composes. -/
theorem composes (h : record.Sound) (hfirst : first.names.Nodup) (hsecond : second.names.Nodup)
    (hnames : merged.names.Nodup)
    (hmerged : ∀ name, merged.get? name = Json.mergeGiven? (first.get? name) (second.get? name))
    (hfields : ∀ field ∈ record.fields,
      field.codec.ComposesAt (first.get? field.name) (second.get? field.name))
    (hresult : (record.codec true).update s (some (.obj first)) = some result) :
    Option.Rel (record.codec true).Alike ((record.codec true).update result (some (.obj second)))
        ((record.codec true).update s (some (.obj merged))) ∧
      (record.codec true).update result (some (.obj first)) = some result := by
  obtain ⟨hnamed, hupdate⟩ := (h.update_eq_some_iff hfirst).1 hresult
  have hcomposes := fun field hfield => hfields field hfield _ _ (hupdate field hfield)
  constructor
  · refine h.rel_update hsecond hnames ?_ fun field hfield => ?_
    · -- what the first object names is named by the record
      refine forall_congr' fun name => ?_
      rw [mem_names_merged hmerged, or_imp]
      exact (and_iff_right (hnamed name)).symm
    · rw [hmerged]
      exact (hcomposes field hfield).1
  · exact (h.update_eq_some_iff hfirst).2 ⟨hnamed, fun field hfield => (hcomposes field hfield).2⟩

end Composition

theorem update_givenMembers {given? : Option Json} (h : Json.GivesObject given?) (record : Record σ σ)
    (s : σ) : (record.codec true).update s given? =
      (record.codec true).update s (some (.obj (Json.givenMembers given?))) := by
  rcases h.cases with rfl | ⟨members, rfl, -⟩
  · exact update_none record s
  · rfl

/-- So does its codec, where nothing is given but objects. -/
theorem composesAt (h : record.Sound) {first? second? : Option Json}
    (hfirst : Json.GivesObject first?) (hsecond : Json.GivesObject second?)
    (hfields : ∀ field ∈ record.fields, field.codec.ComposesAt
      ((Json.givenMembers first?).get? field.name) ((Json.givenMembers second?).get? field.name)) :
    (record.codec true).ComposesAt first? second? := by
  intro s result hresult
  have hmerged := hfirst.mergeGiven? hsecond
  rw [update_givenMembers hfirst] at hresult ⊢
  rw [update_givenMembers hsecond, update_givenMembers hmerged]
  exact h.composes hfirst.nodup hsecond.nodup hmerged.nodup
    (Json.get?_givenMembers_mergeGiven? hfirst hsecond) hfields hresult

end Sound

end Record

end TradeGate
