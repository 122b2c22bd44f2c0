import TradeGate.Policy.Override
import TradeGate.Proofs.Audit.Legible
import TradeGate.Proofs.Json.Field

/-!
# Overrides change what they name

A policy consists of the fields of its groups and two switches (`Policy.leaves`). Overriding writes
the whole policy, merges a patch into it and reads the result, with standard values for whatever is
missing; `Policy.override_named` says that nevertheless a leaf has the value that the patch gives it
if there is one, and its own value if the patch does not mention it, and that a name that stands for
nothing is refused (`Policy.Misnames`).
-/

namespace TradeGate

/-! ## Leaves -/

/-- A group of thresholds and switches. -/
structure Policy.Group where
  {τ : Type}
  name : String
  get : Policy → τ
  record : Record τ τ

/-- A threshold or switch, and the path to it. -/
structure Policy.Leaf where
  {β : Type}
  path : List String
  get : Policy → β
  codec : Codec β

namespace Policy

def groups : List Group :=
  [⟨"system_integrity", (·.systemIntegrity), IntegrityPolicy.record⟩,
    ⟨"execution_safety", (·.executionSafety), ExecutionPolicy.record⟩,
    ⟨"state_consistency", (·.stateConsistency), ConsistencyPolicy.record⟩,
    ⟨"rules", (·.rules), RulePolicy.record⟩,
    ⟨"environmental", (·.environmental), MarketPolicy.record⟩,
    ⟨"timing", (·.timing), TimingPolicy.record⟩,
    ⟨"alerting", (·.alerting), AlertPolicy.record⟩]

/-- The thresholds and switches of a group. -/
def Group.leaves (group : Group) : List Leaf :=
  group.record.fields.map fun field =>
    ⟨[group.name, field.name], fun policy => field.get (group.get policy), field.codec⟩

/-- The switches that are in no group. -/
def switches : List Leaf :=
  [⟨["block_on_internal_error"], (·.blockOnInternalError), .bool⟩,
    ⟨["block_on_missing_input"], (·.blockOnMissingInput), .bool⟩]

def leaves : List Leaf := groups.flatMap Group.leaves ++ switches

/-- The numbers of a policy. -/
def floats (policy : Policy) : List Binary64 :=
  [policy.systemIntegrity.maxMarketDataAgeSeconds, policy.systemIntegrity.minSymbolCoveragePct,
    policy.systemIntegrity.maxFeaturePipelineLagSeconds, policy.systemIntegrity.maxClockDriftMs,
    policy.systemIntegrity.maxRequestAgeSeconds, policy.systemIntegrity.maxFutureTimestampSeconds,
    policy.executionSafety.maxExchangeLatencyMs, policy.executionSafety.minOrderSuccessRate1h,
    policy.executionSafety.maxRateLimitUtilization, policy.executionSafety.maxNetworkLatencyMs,
    policy.stateConsistency.maxPositionSyncAgeSeconds, policy.stateConsistency.maxMarginRatio,
    policy.environmental.maxRiskScore, policy.environmental.maxVolatilityForTrading,
    policy.environmental.minLiquidityScore, policy.environmental.maxSpreadPct]

/-- The amounts of a policy. -/
def amounts (policy : Policy) : List Amount :=
  [policy.stateConsistency.equityMismatchTolerancePct, policy.stateConsistency.minAvailableBalance]

/-- The numbers can be written and the amounts are read back. -/
structure Expressible (policy : Policy) : Prop where
  floats : ∀ x ∈ policy.floats, x.isFinite = true
  amounts : ∀ x ∈ policy.amounts, Amount.read? x.text = some x

end Policy

/-! ## What is written of a leaf -/

/-- What the codec writes of a value is no object, and it is read back. -/
structure Codec.Plain {β : Type} (codec : Codec β) (b : β) : Prop where
  isObj_encode : (codec.encode b).isObj = false
  decode_encode : codec.decode .json (codec.encode b) = some b

namespace Codec

@[simp] theorem plain_bool (b : Bool) : bool.Plain b := ⟨rfl, rfl⟩

theorem plain_binary64 {x : Binary64} (h : x.isFinite = true) : binary64.Plain x := by
  have hencode : binary64.encode x = .float x := if_pos h
  exact ⟨by rw [hencode]; rfl, by rw [hencode]; rfl⟩

theorem plain_amount {x : Amount} (h : Amount.read? x.text = some x) : amount.Plain x := ⟨rfl, h⟩

@[simp] theorem plain_uint8 (n : UInt8) : uint8.Plain n := ⟨rfl, (recovers_uint8 n).decode_encode⟩

@[simp] theorem plain_uint32 (n : UInt32) : uint32.Plain n :=
  ⟨rfl, (recovers_uint32 n).decode_encode⟩

@[simp] theorem plain_uint64 (n : UInt64) : uint64.Plain n :=
  ⟨rfl, by
    unfold uint64
    dsimp only
    rw [natBelow?_int n.toNat_lt_size, Option.map_some, UInt64.ofNat_toNat]⟩

@[simp] theorem plain_severity (s : Severity) : severity.Plain s := ⟨rfl, (recovers_severity s).decode_encode⟩

theorem plain_list {β : Type} {item : Codec β} {items : List β}
    (h : ∀ a ∈ items, item.decode .json (item.encode a) = some a) : item.list.Plain items :=
  ⟨rfl, decode_encode_list h⟩

@[simp] theorem plain_strings (texts : List String) : string.list.Plain texts := plain_list fun _ _ => rfl

end Codec

/-- A leaf that is always written, in a plain form. -/
structure Field.Plain {σ : Type} (field : Field σ) (s : σ) : Prop where
  written : field.omitted (field.get s) = false
  plain : field.codec.Plain (field.get s)

theorem Field.Plain.kept {σ : Type} {field : Field σ} {s : σ} (h : field.Plain s) : field.Kept s :=
  ⟨h.written, h.plain.decode_encode⟩

namespace Record

variable {σ α β : Type} {P : Field σ → Prop} {front : Record σ (β → α)} {name : String} {get : σ → β}
  {codec : Codec β}

@[simp] theorem forall_fields_start (a : α) :
    (∀ field ∈ (start a : Record σ α).fields, P field) ↔ True :=
  ⟨fun _ => trivial, fun _ _ hfield => nomatch hfield⟩

@[simp] theorem forall_fields_defaulted {value : β} :
    (∀ field ∈ (front.defaulted name get codec value).fields, P field) ↔
      (∀ field ∈ front.fields, P field) ∧
        P ⟨name, get, codec, ⟨some value, some value⟩, fun _ => false⟩ := by
  rw [defaulted, fields, List.forall_mem_append, List.forall_mem_singleton]

@[simp] theorem forall_fields_required :
    (∀ field ∈ (front.required name get codec).fields, P field) ↔
      (∀ field ∈ front.fields, P field) ∧ P ⟨name, get, codec, ⟨none, none⟩, fun _ => false⟩ := by
  rw [required, fields, List.forall_mem_append, List.forall_mem_singleton]

end Record

@[simp] theorem Field.plain_iff {σ β : Type} {s : σ} {name : String} {get : σ → β} {codec : Codec β}
    {absent : Absence β} :
    Field.Plain ⟨name, get, codec, absent, fun _ => false⟩ s ↔ codec.Plain (get s) :=
  ⟨fun h => h.plain, fun h => ⟨rfl, h⟩⟩

open Record Codec

/-- A record that writes all its fields in a plain form can read them back. -/
theorem Record.keeps_of_plain {σ : Type} {record : Record σ σ} {s : σ} (hlawful : record.Lawful)
    (hnames : record.names.Nodup) (hrebuild : record.rebuild s = s)
    (h : ∀ field ∈ record.fields, field.Plain s) : record.Keeps s :=
  ⟨hlawful, hnames, hrebuild, fun field hfield => (h field hfield).kept⟩

theorem TradingWindow.keeps (window : TradingWindow) : TradingWindow.record.Keeps window := by
  have hplain : ∀ field ∈ TradingWindow.record.fields, field.Plain window := by
    simp [TradingWindow.record]
  exact keeps_of_plain (fun _ => rfl) (by decide) rfl hplain

@[simp] theorem Codec.plain_windows (windows : List TradingWindow) :
    (Codec.list TradingWindow.codec).Plain windows :=
  plain_list fun window _ => window.keeps.decode_encode true

namespace Policy

variable {policy : Policy}

theorem forall_groups {P : Group → Prop} : (∀ group ∈ groups, P group) ↔
    P ⟨"system_integrity", (·.systemIntegrity), IntegrityPolicy.record⟩ ∧
    P ⟨"execution_safety", (·.executionSafety), ExecutionPolicy.record⟩ ∧
    P ⟨"state_consistency", (·.stateConsistency), ConsistencyPolicy.record⟩ ∧
    P ⟨"rules", (·.rules), RulePolicy.record⟩ ∧
    P ⟨"environmental", (·.environmental), MarketPolicy.record⟩ ∧
    P ⟨"timing", (·.timing), TimingPolicy.record⟩ ∧
    P ⟨"alerting", (·.alerting), AlertPolicy.record⟩ := by
  simp [groups]

/-- What is written of the leaves of a group is plain. -/
theorem Expressible.plain (h : policy.Expressible) :
    ∀ group ∈ groups, ∀ field ∈ group.record.fields, field.Plain (group.get policy) := by
  obtain ⟨hfloats, hamounts⟩ := h
  simp only [Policy.floats, Policy.amounts, List.forall_mem_cons] at hfloats hamounts
  refine forall_groups.2 ⟨?integrity, ?execution, ?consistency, ?rules, ?market, ?timing, ?alerting⟩
  case integrity =>
    show ∀ field ∈ IntegrityPolicy.record.fields, field.Plain policy.systemIntegrity
    simp [IntegrityPolicy.record, plain_binary64, hfloats]
  case execution =>
    show ∀ field ∈ ExecutionPolicy.record.fields, field.Plain policy.executionSafety
    simp [ExecutionPolicy.record, plain_binary64, hfloats]
  case consistency =>
    show ∀ field ∈ ConsistencyPolicy.record.fields, field.Plain policy.stateConsistency
    simp [ConsistencyPolicy.record, plain_binary64, plain_amount, hfloats, hamounts]
  case rules =>
    show ∀ field ∈ RulePolicy.record.fields, field.Plain policy.rules
    simp [RulePolicy.record]
  case market =>
    show ∀ field ∈ MarketPolicy.record.fields, field.Plain policy.environmental
    simp [MarketPolicy.record, plain_binary64, hfloats]
  case timing =>
    show ∀ field ∈ TimingPolicy.record.fields, field.Plain policy.timing
    simp [TimingPolicy.record]
  case alerting =>
    show ∀ field ∈ AlertPolicy.record.fields, field.Plain policy.alerting
    simp [AlertPolicy.record]

theorem Expressible.keeps_group (h : policy.Expressible) :
    ∀ group ∈ groups, group.record.Keeps (group.get policy) := by
  obtain ⟨h₁, h₂, h₃, h₄, h₅, h₆, h₇⟩ := forall_groups.1 h.plain
  exact forall_groups.2
    ⟨keeps_of_plain (fun _ => rfl) (by decide) rfl h₁,
      keeps_of_plain (fun _ => rfl) (by decide) rfl h₂,
      keeps_of_plain (fun _ => rfl) (by decide) rfl h₃,
      keeps_of_plain (fun _ => rfl) (by decide) rfl h₄,
      keeps_of_plain (fun _ => rfl) (by decide) rfl h₅,
      keeps_of_plain (fun _ => rfl) (by decide) rfl h₆,
      keeps_of_plain (fun _ => rfl) (by decide) rfl h₇⟩

/-- A policy is read back from what is written of it. -/
theorem Expressible.keeps (h : policy.Expressible) : record.Keeps policy where
  lawful _ := rfl
  names := by decide
  rebuild := rfl
  fields := by
    obtain ⟨h₁, h₂, h₃, h₄, h₅, h₆, h₇⟩ := forall_groups.1 h.keeps_group
    simp only [record, forall_fields_defaulted, forall_fields_start]
    exact ⟨⟨⟨⟨⟨⟨⟨⟨⟨trivial, rfl, h₁.decode_encode true⟩, rfl, h₂.decode_encode true⟩,
      rfl, h₃.decode_encode true⟩, rfl, h₄.decode_encode true⟩, rfl, h₅.decode_encode true⟩,
      rfl, h₆.decode_encode true⟩, rfl, h₇.decode_encode true⟩, rfl, rfl⟩, rfl, rfl⟩

/-- A group is a field of the policy. -/
theorem exists_field_of_group : ∀ group ∈ groups, ∃ absent : Absence group.τ,
    (⟨group.name, group.get, group.record.codec true, absent, fun _ => false⟩ : Field Policy) ∈
      record.fields :=
  forall_groups.2
    ⟨⟨_, List.mem_of_getElem? (show record.fields[0]? = _ from rfl)⟩,
      ⟨_, List.mem_of_getElem? (show record.fields[1]? = _ from rfl)⟩,
      ⟨_, List.mem_of_getElem? (show record.fields[2]? = _ from rfl)⟩,
      ⟨_, List.mem_of_getElem? (show record.fields[3]? = _ from rfl)⟩,
      ⟨_, List.mem_of_getElem? (show record.fields[4]? = _ from rfl)⟩,
      ⟨_, List.mem_of_getElem? (show record.fields[5]? = _ from rfl)⟩,
      ⟨_, List.mem_of_getElem? (show record.fields[6]? = _ from rfl)⟩⟩

/-- A switch is a field of the policy, and not written as an object. -/
theorem exists_field_of_switch : ∀ leaf ∈ switches, ∃ field ∈ record.fields,
    leaf = ⟨[field.name], field.get, field.codec⟩ ∧
      ∀ policy, (field.codec.encode (field.get policy)).isObj = false := by
  refine List.forall_mem_cons.2 ⟨?_, List.forall_mem_singleton.2 ?_⟩
  · exact ⟨_, List.mem_of_getElem? (show record.fields[7]? = _ from rfl), rfl, fun _ => rfl⟩
  · exact ⟨_, List.mem_of_getElem? (show record.fields[8]? = _ from rfl), rfl, fun _ => rfl⟩

/-! ## Merging into a policy -/

section Merged

variable {base result : Policy} {patches : Members}

/-- A group without a member is as it was. -/
theorem group_eq_of_get?_eq_none (h : record.Merged base patches result) {group : Group}
    (hgroup : group ∈ groups) (hnone : patches.get? group.name = none) :
    group.get result = group.get base := by
  obtain ⟨absent, hfield⟩ := exists_field_of_group group hgroup
  exact h.kept _ hfield hnone

/-- A group that is given as something else than an object is what that says. -/
theorem decode_group_of_get? (h : record.Merged base patches result) {group : Group}
    (hgroup : group ∈ groups) {value : Json} (hvalue : patches.get? group.name = some value)
    (hobj : value.isObj = false) :
    (group.record.codec true).decode .json value = some (group.get result) := by
  obtain ⟨absent, hfield⟩ := exists_field_of_group group hgroup
  have hmerged := h.patched _ hfield value hvalue
  rwa [Json.merge_of_patch_not_isObj _ hobj] at hmerged

/-- A group that is given as an object has its members merged in. -/
theorem merged_group_of_get? (hbase : base.Expressible) (h : record.Merged base patches result)
    {group : Group} (hgroup : group ∈ groups) {members : Members} (hnames : members.names.Nodup)
    (hvalue : patches.get? group.name = some (.obj members)) :
    group.record.Merged (group.get base) members (group.get result) := by
  obtain ⟨absent, hfield⟩ := exists_field_of_group group hgroup
  exact (hbase.keeps_group group hgroup).merged hnames (h.patched _ hfield _ hvalue)

end Merged

/-! ## What an override says -/

/-- Behind an override the policy has what the patch says, and nothing else has changed. -/
structure Follows (base : Policy) (patch : Json) (result : Policy) : Prop where
  /-- A leaf that the patch gives a value has it. -/
  given : ∀ leaf ∈ leaves, ∀ value, patch.at? leaf.path = some value →
    leaf.codec.decode .json value = some (leaf.get result)
  /-- So has a group that is given as a whole. -/
  whole : ∀ group ∈ groups, ∀ value, patch.at? [group.name] = some value → value.isObj = false →
    (group.record.codec true).decode .json value = some (group.get result)
  /-- A leaf that the patch does not mention is as it was. -/
  kept : ∀ leaf ∈ leaves, patch.mentions leaf.path = false → leaf.get result = leaf.get base

/-- The trading hours that the patch gives, in an object of rules or in an array of them. -/
def givenHours? (patch : Json) : Option Json :=
  match patch.at? ["rules"] with
  | some (.obj members) => Members.get? members "allowed_trading_hours_utc"
  | some (.arr items) => items[1]?
  | _ => none

/-- The patch has a name that stands for nothing. -/
inductive Misnames : Json → Prop
  | top {members : Members} {name : String} (hmem : name ∈ members.names)
    (hname : name ∉ record.names) : Misnames (.obj members)
  | inGroup {patch : Json} {group : Group} {members : Members} {name : String}
    (hgroup : group ∈ groups) (hpatch : patch.at? [group.name] = some (.obj members))
    (hmem : name ∈ members.names) (hname : name ∉ group.record.names) : Misnames patch
  | inWindow {patch : Json} {windows : List Json} {members : Members} {name : String}
    (hpatch : givenHours? patch = some (.arr windows)) (hwindow : .obj members ∈ windows)
    (hmem : name ∈ members.names) (hname : name ∉ TradingWindow.record.names) : Misnames patch

theorem at?_singleton (patches : Members) (name : String) :
    (Json.obj patches).at? [name] = patches.get? name := by
  show (patches.get? name).bind some = _
  exact Option.bind_fun_some _

theorem get?_of_mentions {members : Members} {name : String}
    (h : (Json.obj members).mentions [name] = false) : members.get? name = none := by
  dsimp only [Json.mentions] at h
  cases hvalue : members.get? name with
  | none => rfl
  | some value =>
    rw [hvalue] at h
    exact nomatch h

theorem nodup_of_get? {patches members : Members} (h : (Json.obj patches).namesOnce = true)
    {name : String} (hvalue : patches.get? name = some (.obj members)) : members.names.Nodup := by
  rw [Json.namesOnce, Bool.and_eq_true] at h
  exact Json.nodup_of_namesOnce (Json.namesOnce_of_get? h.2 hvalue)

/-- What an override with an object is read from. -/
theorem decode_of_override {base result : Policy} {patches : Members}
    (h : base.override (.obj patches) = .ok result) :
    codec.decode .json (Json.merge base.toJson (.obj patches)) = some result := by
  have hobj : (Json.obj patches).isObj = true := rfl
  unfold override at h
  rw [if_pos hobj] at h
  cases hdecode : codec.decode .json (Json.merge base.toJson (.obj patches)) with
  | none =>
    rw [hdecode] at h
    exact nomatch h
  | some found =>
    rw [hdecode] at h
    rw [Except.ok.inj h]

theorem exists_of_isObj {patch : Json} (h : patch.isObj = true) : ∃ patches, patch = .obj patches := by
  cases patch with
  | obj patches => exact ⟨patches, rfl⟩
  | null | bool | int | float | str | arr | malformed => exact nomatch h

theorem override_of_not_isObj (base : Policy) {patch : Json} (h : patch.isObj = false) :
    base.override patch = .error .overridesNotObject := by
  unfold override
  rw [if_neg (by simp [h])]

theorem override_empty {base : Policy} (hbase : base.Expressible) :
    base.override (.obj []) = .ok base := by
  have hmerge : Json.merge base.toJson (.obj []) = base.toJson := by
    show Json.merge (.obj (record.encode base)) _ = .obj (record.encode base)
    rw [Json.merge_obj, Json.mergeMembers]
  have hdecode : codec.decode .json base.toJson = some base := hbase.keeps.decode_encode true
  have hobj : (Json.obj []).isObj = true := rfl
  unfold override
  rw [if_pos hobj, hmerge, hdecode]

section Named

variable {base result : Policy} {patches : Members}

theorem given_of_group (hbase : base.Expressible) (hnames : (Json.obj patches).namesOnce = true)
    (h : record.Merged base patches result) {group : Group} (hgroup : group ∈ groups) :
    ∀ leaf ∈ group.leaves, ∀ value, (Json.obj patches).at? leaf.path = some value →
      leaf.codec.decode .json value = some (leaf.get result) := by
  intro leaf hleaf value hvalue
  obtain ⟨field, hfield, rfl⟩ := List.mem_map.1 hleaf
  obtain ⟨inner, hinner, hvalue⟩ := Option.bind_eq_some_iff.1 hvalue
  cases inner with
  | obj members =>
    rw [at?_singleton] at hvalue
    exact (merged_group_of_get? hbase h hgroup (nodup_of_get? hnames hinner) hinner).decode_of_get?
      hfield (hbase.plain group hgroup field hfield).plain.isObj_encode hvalue
  | null | bool | int | float | str | arr | malformed => exact nomatch hvalue

theorem kept_of_group (hbase : base.Expressible) (hnames : (Json.obj patches).namesOnce = true)
    (h : record.Merged base patches result) {group : Group} (hgroup : group ∈ groups) :
    ∀ leaf ∈ group.leaves, (Json.obj patches).mentions leaf.path = false →
      leaf.get result = leaf.get base := by
  intro leaf hleaf hmentions
  obtain ⟨field, hfield, rfl⟩ := List.mem_map.1 hleaf
  dsimp only [Json.mentions] at hmentions ⊢
  cases hinner : patches.get? group.name with
  | none => rw [group_eq_of_get?_eq_none h hgroup hinner]
  | some inner =>
    rw [hinner] at hmentions
    cases inner with
    | obj members =>
      exact (merged_group_of_get? hbase h hgroup (nodup_of_get? hnames hinner) hinner).kept field
        hfield (get?_of_mentions hmentions)
    | null | bool | int | float | str | arr | malformed => exact nomatch hmentions

/-- What a leaf of a group has behind an override. -/
theorem follows_of_merged (hbase : base.Expressible)
    (hnames : (Json.obj patches).namesOnce = true) (h : record.Merged base patches result) :
    Follows base (.obj patches) result := by
  refine ⟨List.forall_mem_append.2 ⟨?_, ?_⟩, ?_, List.forall_mem_append.2 ⟨?_, ?_⟩⟩
  · rw [List.forall_mem_flatMap]
    exact fun group hgroup => given_of_group hbase hnames h hgroup
  · intro leaf hleaf value hvalue
    obtain ⟨field, hfield, rfl, hobj⟩ := exists_field_of_switch leaf hleaf
    rw [at?_singleton] at hvalue
    exact h.decode_of_get? hfield (hobj base) hvalue
  · intro group hgroup value hvalue hobj
    rw [at?_singleton] at hvalue
    exact decode_group_of_get? h hgroup hvalue hobj
  · rw [List.forall_mem_flatMap]
    exact fun group hgroup => kept_of_group hbase hnames h hgroup
  · intro leaf hleaf hmentions
    obtain ⟨field, hfield, rfl, -⟩ := exists_field_of_switch leaf hleaf
    exact h.kept field hfield (get?_of_mentions hmentions)

theorem follows_of_override (hbase : base.Expressible)
    (hnames : (Json.obj patches).namesOnce = true)
    (h : base.override (.obj patches) = .ok result) : Follows base (.obj patches) result :=
  follows_of_merged hbase hnames
    (hbase.keeps.merged (Json.nodup_of_namesOnce hnames) (decode_of_override h))

end Named

/-! ## Names that stand for nothing -/

theorem isSome_decode_of_mem {β : Type} {item : Codec β} {dialect : Dialect} {values : List Json}
    (h : (item.list.decode dialect (.arr values)).isSome = true) :
    ∀ value ∈ values, (item.decode dialect value).isSome = true := by
  change (values.mapM (item.decode dialect)).isSome = true at h
  induction values with
  | nil => exact fun _ hvalue => nomatch hvalue
  | cons first rest ih =>
    obtain ⟨items, h⟩ := Option.isSome_iff_exists.1 h
    rw [List.mapM_cons] at h
    obtain ⟨a, hfirst, h⟩ := Option.bind_eq_some_iff.1 h
    obtain ⟨others, hrest, -⟩ := Option.bind_eq_some_iff.1 h
    exact List.forall_mem_cons.2
      ⟨Option.isSome_iff_exists.2 ⟨a, hfirst⟩, ih (Option.isSome_iff_exists.2 ⟨others, hrest⟩)⟩

/-- The trading hours of a patch that is followed are windows. -/
theorem isSome_decode_givenHours {base result : Policy} {patch windows : Json}
    (h : Follows base patch result) (hgiven : givenHours? patch = some windows) :
    ((Codec.list TradingWindow.codec).decode .json windows).isSome = true := by
  have hrules : (⟨"rules", (·.rules), RulePolicy.record⟩ : Group) ∈ groups :=
    List.mem_of_getElem? (show groups[3]? = _ from rfl)
  unfold givenHours? at hgiven
  split at hgiven
  · rename_i members hmembers
    have hhours : (⟨["rules", "allowed_trading_hours_utc"], (·.rules.allowedTradingHoursUtc),
        .list TradingWindow.codec⟩ : Leaf) ∈ leaves :=
      List.mem_append_left _ (List.mem_flatMap.2 ⟨_, hrules,
        List.mem_of_getElem? (show (Group.leaves _)[1]? = _ from rfl)⟩)
    have hat : patch.at? ["rules", "allowed_trading_hours_utc"] = some windows := by
      cases patch with
      | obj patches =>
        rw [at?_singleton] at hmembers
        show (Members.get? patches "rules").bind _ = _
        rw [hmembers]
        exact (at?_singleton _ _).trans hgiven
      | null | bool | int | float | str | arr | malformed => exact nomatch hmembers
    exact Option.isSome_iff_exists.2 ⟨_, h.given _ hhours windows hat⟩
  · rename_i items hitems
    have hread := h.whole _ hrules _ hitems rfl
    obtain ⟨⟨a, left⟩, hread, -⟩ := Option.bind_eq_some_iff.1 hread
    exact (decode_of_decodeItems hread).2 1 _ windows (show RulePolicy.record.fields[1]? = _ from rfl)
      hgiven
  · exact nomatch hgiven

/-- A patch that is followed has no name that stands for nothing. -/
theorem not_misnames_of_override {base result : Policy} {patches : Members} (hbase : base.Expressible)
    (hnames : (Json.obj patches).namesOnce = true)
    (h : base.override (.obj patches) = .ok result) : ¬ Misnames (.obj patches) := by
  have hmerged := hbase.keeps.merged (Json.nodup_of_namesOnce hnames) (decode_of_override h)
  have hfollows := follows_of_override hbase hnames h
  intro hmisnames
  cases hmisnames with
  | top hmem hname => exact hname (hmerged.named _ hmem)
  | inGroup hgroup hpatch hmem hname =>
    rw [at?_singleton] at hpatch
    exact hname ((merged_group_of_get? hbase hmerged hgroup (nodup_of_get? hnames hpatch)
      hpatch).named _ hmem)
  | inWindow hpatch hwindow hmem hname =>
    have hread := isSome_decode_of_mem (isSome_decode_givenHours hfollows hpatch) _ hwindow
    obtain ⟨window, hwindow⟩ := Option.isSome_iff_exists.1 hread
    exact hname ((decode_obj_eq_some hwindow).1 _ hmem)

/-- The leaves are all that there is to a policy. -/
theorem eq_of_leaves {policy other : Policy}
    (h : ∀ leaf ∈ leaves, leaf.get policy = leaf.get other) : policy = other := by
  obtain ⟨hgroups, hswitches⟩ := List.forall_mem_append.1 h
  have hrebuild : ∀ group ∈ groups, ∀ s, group.record.rebuild s = s :=
    forall_groups.2 ⟨fun _ => rfl, fun _ => rfl, fun _ => rfl, fun _ => rfl, fun _ => rfl,
      fun _ => rfl, fun _ => rfl⟩
  have hget : ∀ group ∈ groups, group.get policy = group.get other := by
    intro group hgroup
    have hleaves := List.forall_mem_flatMap.1 hgroups group hgroup
    rw [← hrebuild group hgroup (group.get policy), ← hrebuild group hgroup (group.get other)]
    exact rebuild_congr (List.forall_mem_map.1 hleaves)
  obtain ⟨h₁, h₂, h₃, h₄, h₅, h₆, h₇⟩ := forall_groups.1 hget
  obtain ⟨h₈, h₉⟩ := List.forall_mem_cons.1 hswitches
  have hrecord : record.rebuild policy = record.rebuild other := rebuild_congr (by
    simp only [record, forall_fields_defaulted, forall_fields_start]
    exact ⟨⟨⟨⟨⟨⟨⟨⟨⟨trivial, h₁⟩, h₂⟩, h₃⟩, h₄⟩, h₅⟩, h₆⟩, h₇⟩, h₈⟩, h₉ _ List.mem_cons_self⟩)
  exact hrecord

/-- Overrides change just what they name, and what they name has to be there. -/
theorem override_named {base : Policy} (hbase : base.Expressible) {patch : Json}
    (hnames : patch.namesOnce = true) :
    (patch.isObj = false → base.override patch = .error .overridesNotObject) ∧
      base.override (.obj []) = .ok base ∧
      (Misnames patch → ∃ error, base.override patch = .error error) ∧
      (∀ result, base.override patch = .ok result → Follows base patch result) ∧
      ∀ other : Policy, (∀ leaf ∈ leaves, leaf.get other = leaf.get base) → other = base := by
  refine ⟨override_of_not_isObj base, override_empty hbase, fun hmisnames => ?_, fun result h => ?_,
    fun other => eq_of_leaves⟩
  · cases hobj : patch.isObj with
    | false => exact ⟨_, override_of_not_isObj base hobj⟩
    | true =>
      obtain ⟨patches, rfl⟩ := exists_of_isObj hobj
      cases hresult : base.override (.obj patches) with
      | error error => exact ⟨error, rfl⟩
      | ok result => exact absurd hmisnames (not_misnames_of_override hbase hnames hresult)
  · cases hobj : patch.isObj with
    | false =>
      rw [override_of_not_isObj base hobj] at h
      exact nomatch h
    | true =>
      obtain ⟨patches, rfl⟩ := exists_of_isObj hobj
      exact follows_of_override hbase hnames h

/-! ## A sample -/

theorem expressible_standard : standard.Expressible := ⟨by decide +kernel, by decide +kernel⟩

/-- A limit of one group and a switch. -/
def samplePatch : Json :=
  .obj [("timing", .obj [("max_evaluation_time_ms", .int 50)]),
    ("block_on_internal_error", .bool false)]

/-- The standard policy with the limit and the switch of the patch. -/
def patchedStandard : Policy :=
  { standard with
    timing := { TimingPolicy.standard with maxEvaluationTimeMs := 50 }
    blockOnInternalError := false }

theorem override_samplePatch :
    samplePatch.namesOnce = true ∧ standard.override samplePatch = .ok patchedStandard ∧
      Follows standard samplePatch patchedStandard := by
  have hnames : samplePatch.namesOnce = true := by decide
  have hresult : standard.override samplePatch = .ok patchedStandard := by decide +kernel
  exact ⟨hnames, hresult, (override_named expressible_standard hnames).2.2.2.1 _ hresult⟩

end Policy

end TradeGate
