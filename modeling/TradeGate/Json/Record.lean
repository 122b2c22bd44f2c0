import TradeGate.Json.Codec

/-!
# Records

A record schema lists the fields of a structure: name, projection, codec, and what a missing field
stands for. One list serves for writing, for reading an object, and for reading an array of the
fields in order. Main definitions: `Record`, `Record.encode`, `Record.decode`; main statement: a
record that leaves nothing out is read back as it was written (`decodeNamed_encode`).
-/

namespace TradeGate

/-- What a missing field stands for, in an object and at the end of an array. -/
structure Absence (β : Type) where
  named : Option β
  positional : Option β

/-- The fields that make a value of a type, each read from and written to a `σ`. -/
inductive Record (σ : Type) : Type → Type 1 where
  | start {α : Type} (a : α) : Record σ α
  | field {α β : Type} (front : Record σ (β → α)) (name : String) (get : σ → β) (codec : Codec β)
      (absent : Absence β) (omitted : β → Bool) : Record σ α

namespace Record

variable {σ α β : Type}

/-! ## Kinds of field -/

/-- A field that has to be there. -/
def required (front : Record σ (β → α)) (name : String) (get : σ → β) (codec : Codec β) :
    Record σ α :=
  front.field name get codec ⟨none, none⟩ fun _ => false

/-- A field that may be null, or missing from an object. -/
def nullable (front : Record σ (Option β → α)) (name : String) (get : σ → Option β)
    (codec : Codec β) : Record σ α :=
  front.field name get codec.option ⟨some none, none⟩ fun _ => false

/-- A field that stands for `value` where it is missing. -/
def defaulted (front : Record σ (β → α)) (name : String) (get : σ → β) (codec : Codec β)
    (value : β) : Record σ α :=
  front.field name get codec ⟨some value, some value⟩ fun _ => false

/-- A field that may be null or missing. -/
def optional (front : Record σ (Option β → α)) (name : String) (get : σ → Option β)
    (codec : Codec β) : Record σ α :=
  front.defaulted name get codec.option none

/-- A field that may be null or missing, and is left out where it is null. -/
def leftOut (front : Record σ (Option β → α)) (name : String) (get : σ → Option β)
    (codec : Codec β) : Record σ α :=
  front.field name get codec.option ⟨some none, some none⟩ Option.isNone

/-! ## Writing and reading -/

/-- The names of the fields, in order. -/
def names {α : Type} : Record σ α → List String
  | start _ => []
  | field front name .. => front.names ++ [name]

/-- The value that the fields of `s` make. -/
def rebuild {α : Type} (s : σ) : Record σ α → α
  | start a => a
  | field front _ get .. => front.rebuild s (get s)

/-- The fields of `s` as members. -/
def encode {α : Type} (s : σ) : Record σ α → List (String × Json)
  | start _ => []
  | field front name get codec _ omitted =>
    front.encode s ++ (if omitted (get s) then [] else [(name, codec.encode (get s))])

/-- The value of a field in an object. A field that is given twice is refused. -/
def fieldValue (dialect : Dialect) (members : Members) (name : String) (codec : Codec β)
    (absent : Absence β) : Option β :=
  match members.filter (·.1 = name) with
  | [] => absent.named
  | [(_, value)] => codec.decode dialect value
  | _ => none

/-- Reads the fields by name. Other members are not looked at. -/
def decodeNamed {α : Type} (dialect : Dialect) (members : Members) : Record σ α → Option α
  | start a => some a
  | field front name _ codec absent _ => do
    let make ← front.decodeNamed dialect members
    some (make (← fieldValue dialect members name codec absent))

/-- Reads the fields by place and returns the items that are left. -/
def decodeItems {α : Type} (dialect : Dialect) : Record σ α → List Json → Option (α × List Json)
  | start a, items => some (a, items)
  | field front _ _ codec absent _, items => do
    let (make, items) ← front.decodeItems dialect items
    match items with
    | [] => some (make (← absent.positional), [])
    | item :: rest => some (make (← codec.decode dialect item), rest)

/-- Every member is a field. -/
def closedOver (record : Record σ α) (members : Members) : Bool :=
  members.all fun (name, _) => record.names.contains name

/-- Reads a value from an object, or from an array of its fields in order. A closed record refuses
members that are not fields. -/
def decode (closed : Bool) (record : Record σ α) (dialect : Dialect) : Json → Option α
  | .obj members =>
    if closed && !record.closedOver members then none else record.decodeNamed dialect members
  | .arr items => do
    let (a, rest) ← record.decodeItems dialect items
    if rest.isEmpty || dialect.extraItems then some a else none
  | _ => none

/-- The codec of a structure. -/
def codec (record : Record σ σ) (closed : Bool) : Codec σ where
  encode s := .obj (record.encode s)
  decode := record.decode closed

/-! ## Reading back -/

/-- Every field of `s` is read back by its codec, or may be missing if it is left out. -/
def ReadsBack {α : Type} (dialect : Dialect) (s : σ) : Record σ α → Prop
  | start _ => True
  | field front _ get codec absent omitted =>
    front.ReadsBack dialect s ∧
      if omitted (get s) then absent.named = some (get s)
      else codec.decode dialect (codec.encode (get s)) = some (get s)

theorem fst_mem_names {α : Type} {s : σ} {record : Record σ α} {member : String × Json}
    (h : member ∈ record.encode s) : member.1 ∈ record.names := by
  induction record with
  | start => simp [encode] at h
  | field front name get codec absent omitted ih =>
    simp only [encode, List.mem_append] at h
    simp only [names, List.mem_append]
    rcases h with h | h
    · exact .inl (ih h)
    · right
      split at h <;> simp_all

/-- What is read of the value of a field that goes through a channel between writing and reading. -/
def receivedValue (dialect : Dialect) (channel : Json → Json) (b : β) (codec : Codec β)
    (absent : Absence β) (omitted : β → Bool) : Option β :=
  if omitted b then absent.named else codec.decode dialect (channel (codec.encode b))

/-- What is read of `s` when each of its values goes through a channel. -/
def received {α : Type} (dialect : Dialect) (channel : Json → Json) (s : σ) : Record σ α → Option α
  | start a => some a
  | field front _ get codec absent omitted => do
    let make ← front.received dialect channel s
    some (make (← receivedValue dialect channel (get s) codec absent omitted))

/-- Each field is read from its own member. Members that come after those of a record, under names
that it does not have, do not matter. -/
theorem decodeNamed_channel {α : Type} (dialect : Dialect) (channel : Json → Json) (s : σ)
    {record : Record σ α} (hnames : record.names.Nodup) (more : Members)
    (hmore : ∀ member ∈ more, member.1 ∉ record.names) :
    record.decodeNamed dialect
        ((record.encode s).map (fun member => (member.1, channel member.2)) ++ more) =
      record.received dialect channel s := by
  induction record generalizing more with
  | start => rfl
  | field front name get codec absent omitted ih =>
    simp only [names, List.nodup_append, List.mem_singleton] at hnames
    obtain ⟨hfront, -, hdisjoint⟩ := hnames
    have hname : name ∉ front.names := fun hmem => hdisjoint name hmem name rfl rfl
    have hrest := ih hfront
      ((if omitted (get s) then [] else [(name, channel (codec.encode (get s)))]) ++ more) (by
        intro member hmember
        rcases List.mem_append.1 hmember with hmember | hmember
        · split at hmember
          · simp at hmember
          · simp only [List.mem_singleton] at hmember
            subst hmember
            exact hname
        · exact fun hmem => hmore member hmember (by simp [names, hmem]))
    have hfilter : ((front.encode s).map fun member => (member.1, channel member.2)).filter
        (·.1 = name) = [] := by
      refine List.filter_eq_nil_iff.2 fun member hmember => ?_
      obtain ⟨written, hwritten, rfl⟩ := List.mem_map.1 hmember
      simp only [decide_eq_true_eq]
      exact fun heq => hname (heq ▸ fst_mem_names hwritten)
    have hfilter' : more.filter (·.1 = name) = [] := by
      refine List.filter_eq_nil_iff.2 fun member hmember => ?_
      simp only [decide_eq_true_eq]
      exact fun heq => hmore member hmember (by simp [names, heq])
    have hvalue : fieldValue dialect
        (((front.encode s).map fun member => (member.1, channel member.2)) ++
          ((if omitted (get s) then [] else [(name, channel (codec.encode (get s)))]) ++ more)) name
        codec absent = receivedValue dialect channel (get s) codec absent omitted := by
      simp only [fieldValue, receivedValue, List.filter_append, hfilter, hfilter', List.nil_append,
        List.append_nil]
      cases omitted (get s) <;> simp
    have hmap : ((encode s (field front name get codec absent omitted)).map
        fun member => (member.1, channel member.2)) ++ more =
          ((front.encode s).map fun member => (member.1, channel member.2)) ++
            ((if omitted (get s) then [] else [(name, channel (codec.encode (get s)))]) ++ more) := by
      rw [encode, List.map_append, List.append_assoc]
      cases omitted (get s) <;> rfl
    rw [hmap, decodeNamed, hrest, hvalue]
    rfl

theorem received_id_of_readsBack {α : Type} {dialect : Dialect} {s : σ} {record : Record σ α}
    (h : record.ReadsBack dialect s) : record.received dialect id s = some (record.rebuild s) := by
  induction record with
  | start => rfl
  | field front name get codec absent omitted ih =>
    have hfield : receivedValue dialect id (get s) codec absent omitted = some (get s) := by
      have hback := h.2
      unfold receivedValue
      split at hback
      · rwa [if_pos (by assumption)]
      · rwa [if_neg (by assumption)]
    rw [received, ih h.1, hfield]
    rfl

/-- What a record writes, it reads back. -/
theorem decodeNamed_encode {α : Type} {dialect : Dialect} {s : σ} {record : Record σ α}
    (hnames : record.names.Nodup) (h : record.ReadsBack dialect s) :
    record.decodeNamed dialect (record.encode s) = some (record.rebuild s) := by
  have hread := decodeNamed_channel dialect id s hnames [] (by simp)
  rw [List.append_nil, received_id_of_readsBack h] at hread
  simpa using hread

end Record

end TradeGate
