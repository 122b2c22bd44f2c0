import TradeGate.Proofs.Json.Composition
import TradeGate.Proofs.Number.AmountText
import TradeGate.Proofs.Policy.Override

/-!
# Overrides one after the other

Overriding with one object and then with another is overriding with both merged, and overriding
with the first one again changes nothing (`Policy.override_override`). Merging is not associative, as
an object that replaces a plain value forgets that value; but a policy that was read has objects
where its groups are and plain values at its leaves. Just the severity of the alerting section may
be given as an object as well, and two of different names do not merge into one.
-/

namespace TradeGate

namespace Json

mutual

/-- Every number in the value is finite as a binary64 number. -/
def finite : Json → Bool
  | int n => (Binary64.ofInt n).isFinite
  | float x => x.isFinite
  | arr items => finiteItems items
  | obj members => finiteMembers members
  | _ => true

/-- `finite` of every item. -/
def finiteItems : List Json → Bool
  | [] => true
  | item :: rest => finite item && finiteItems rest

/-- `finite` of every member's value. -/
def finiteMembers : List (String × Json) → Bool
  | [] => true
  | (_, value) :: rest => finite value && finiteMembers rest

end

theorem finite_of_get? {members : Members} (h : finiteMembers members = true) {name : String}
    {value : Json} (hvalue : members.get? name = some value) : value.finite = true := by
  induction members with
  | nil => exact nomatch hvalue
  | cons head rest ih =>
    obtain ⟨key, first⟩ := head
    rw [finiteMembers, Bool.and_eq_true] at h
    by_cases hkey : name = key
    · subst hkey
      rw [Members.get?_cons_self] at hvalue
      rw [← Option.some.inj hvalue]
      exact h.1
    · rw [Members.get?_cons_of_ne hkey] at hvalue
      exact ih h.2 hvalue

end Json

/-! ## Leaves -/

namespace Codec

variable {first? second? : Option Json}

@[simp] theorem composesAt_bool : bool.ComposesAt first? second? :=
  composesAt_of_plain (fun _ => rfl) (fun _ => rfl) (fun _ => rfl) _ _

@[simp] theorem composesAt_uint8 : uint8.ComposesAt first? second? :=
  composesAt_of_plain (fun _ => rfl) (fun n => (plain_uint8 n).decode_encode) (fun _ => rfl) _ _

@[simp] theorem composesAt_uint32 : uint32.ComposesAt first? second? :=
  composesAt_of_plain (fun _ => rfl) (fun n => (plain_uint32 n).decode_encode) (fun _ => rfl) _ _

@[simp] theorem composesAt_uint64 : uint64.ComposesAt first? second? :=
  composesAt_of_plain (fun _ => rfl) (fun n => (plain_uint64 n).decode_encode) (fun _ => rfl) _ _

@[simp] theorem composesAt_strings : string.list.ComposesAt first? second? :=
  composesAt_of_plain (fun _ => rfl) (fun texts => (plain_strings texts).decode_encode)
    (fun _ => rfl) _ _

@[simp] theorem composesAt_windows :
    (Codec.list TradingWindow.codec).ComposesAt first? second? :=
  composesAt_of_plain (fun _ => rfl) (fun windows => (plain_windows windows).decode_encode)
    (fun _ => rfl) _ _

@[simp] theorem Plain.update_none {β : Type} {codec : Codec β} {b c : β} (h : codec.Plain b) :
    codec.update b none = some c ↔ c = b := by
  show codec.decode .json (codec.encode b) = some c ↔ _
  rw [h.decode_encode, Option.some_inj, eq_comm]

/-- A number that is not finite is written as null, which is not read. -/
theorem update_binary64_none {x y : Binary64} :
    binary64.update x none = some y ↔ x.isFinite = true ∧ y = x := by
  show binary64.decode .json (Json.ofBinary64 x) = some y ↔ _
  unfold Json.ofBinary64
  cases h : x.isFinite with
  | false => exact ⟨nofun, nofun⟩
  | true => exact ⟨fun hy => ⟨rfl, (Option.some.inj hy).symm⟩, fun hy => congrArg some hy.2.symm⟩

theorem settles_binary64 : binary64.Settles where
  isObj_encode x := by
    show (Json.ofBinary64 x).isObj = false
    unfold Json.ofBinary64
    split <;> rfl
  settled x y hy := by
    obtain ⟨hx, rfl⟩ := update_binary64_none.1 hy
    exact update_binary64_none.2 ⟨hx, rfl⟩

theorem rereads_binary64 {value : Json} (h : value.finite = true) : binary64.Rereads value := by
  intro x hx
  refine ⟨x, update_binary64_none.2 ⟨?_, rfl⟩⟩
  cases value with
  | int n =>
    have hread : Binary64.ofInt n = x := Option.some.inj hx
    rw [Json.finite, hread] at h
    exact h
  | float y =>
    have hread : y = x := Option.some.inj hx
    rw [Json.finite, hread] at h
    exact h
  | null | bool | str | arr | obj | malformed => exact nomatch hx

theorem composesAt_binary64 (hfirst : ∀ value ∈ first?, value.finite = true)
    (hsecond : ∀ value ∈ second?, value.finite = true) : binary64.ComposesAt first? second? :=
  settles_binary64.composesAt_of_decode_obj (fun value hvalue => rereads_binary64 (hfirst value hvalue))
    (fun value hvalue => rereads_binary64 (hsecond value hvalue)) fun _ => rfl

/-- An amount is written with its scale, so that no more than the sign of a zero is lost. -/
theorem update_amount_none (x : Amount) : amount.update x none = some x.unsignedZero :=
  x.read?_text

theorem settles_amount : amount.Settles where
  isObj_encode _ := rfl
  settled x y hy := by
    obtain rfl : x.unsignedZero = y := Option.some.inj ((update_amount_none x).symm.trans hy)
    exact (update_amount_none _).trans (congrArg some x.unsignedZero_unsignedZero)

@[simp] theorem composesAt_amount : amount.ComposesAt first? second? :=
  settles_amount.composesAt_of_decode_obj (fun _ _ x _ => ⟨_, update_amount_none x⟩)
    (fun _ _ x _ => ⟨_, update_amount_none x⟩) fun _ => rfl

end Codec

namespace Policy

open Codec Record

/-! ## Sections -/

/-- A JSON object whose sections hold objects. -/
structure Sectioned (members : Members) : Prop where
  namesOnce : (Json.obj members).namesOnce = true
  finite : (Json.obj members).finite = true
  sections : ∀ group ∈ groups, (members.get? group.name).all Json.isObj = true

/-- Where both give the severity of alerts as an object, they give the same name. -/
def SameSeverity (first second : Members) : Prop :=
  ∀ given given', (Json.obj first).at? ["alerting", "min_severity_for_alert"] = some (.obj given) →
    (Json.obj second).at? ["alerting", "min_severity_for_alert"] = some (.obj given') →
      Members.names given = Members.names given'

section Sections

variable {members first second : Members}

theorem Sectioned.nodup (h : Sectioned members) : members.names.Nodup :=
  Json.nodup_of_namesOnce h.namesOnce

theorem Sectioned.givesObject (h : Sectioned members) {group : Group} (hgroup : group ∈ groups) :
    Json.GivesObject (members.get? group.name) := by
  intro value hvalue
  have hobj := (Option.all_eq_true _ _).1 (h.sections group hgroup) value hvalue
  obtain ⟨given, rfl⟩ := exists_of_isObj hobj
  exact ⟨given, rfl, nodup_of_get? h.namesOnce hvalue⟩

/-- What is given in a section is what is found by the path to it. -/
theorem at?_of_givenMembers {group name : String} {value : Json}
    (h : (Json.givenMembers (members.get? group)).get? name = some value) :
    (Json.obj members).at? [group, name] = some value := by
  show (members.get? group).bind _ = _
  cases hgiven : members.get? group with
  | none =>
    rw [hgiven] at h
    exact nomatch h
  | some given =>
    rw [hgiven] at h
    cases given with
    | obj inner => exact (at?_singleton inner name).trans h
    | null | bool | int | float | str | arr | malformed => exact nomatch h

theorem Sectioned.finite_given (h : Sectioned members) (group name : String) :
    ∀ value ∈ (Json.givenMembers (members.get? group)).get? name, value.finite = true := by
  intro value hvalue
  have hfinite : Json.finiteMembers members = true := by
    have hfinite := h.finite
    rwa [Json.finite] at hfinite
  cases hgiven : members.get? group with
  | none =>
    rw [hgiven] at hvalue
    exact nomatch hvalue
  | some given =>
    rw [hgiven] at hvalue
    have hinner := Json.finite_of_get? hfinite hgiven
    cases given with
    | obj inner =>
      rw [Json.finite] at hinner
      exact Json.finite_of_get? hinner hvalue
    | null | bool | int | float | str | arr | malformed => exact nomatch hvalue

/-- The leaves of all groups compose. -/
theorem composesAt_leaves (hfirst : Sectioned first) (hsecond : Sectioned second)
    (hseverity : SameSeverity first second) :
    ∀ group ∈ groups, ∀ field ∈ group.record.fields, field.codec.ComposesAt
      ((Json.givenMembers (first.get? group.name)).get? field.name)
      ((Json.givenMembers (second.get? group.name)).get? field.name) := by
  have hnumber : ∀ group name : String, binary64.ComposesAt
      ((Json.givenMembers (first.get? group)).get? name)
      ((Json.givenMembers (second.get? group)).get? name) :=
    fun group name => composesAt_binary64 (hfirst.finite_given group name)
      (hsecond.finite_given group name)
  have hnamed : severity.ComposesAt
      ((Json.givenMembers (first.get? "alerting")).get? "min_severity_for_alert")
      ((Json.givenMembers (second.get? "alerting")).get? "min_severity_for_alert") :=
    composesAt_named (fun s => (plain_severity s).decode_encode) fun given given' h h' =>
      hseverity given given' (at?_of_givenMembers h) (at?_of_givenMembers h')
  refine forall_groups.2 ⟨?integrity, ?execution, ?consistency, ?rules, ?market, ?timing, ?alerting⟩
  case integrity => simp [IntegrityPolicy.record, hnumber]
  case execution => simp [ExecutionPolicy.record, hnumber]
  case consistency => simp [ConsistencyPolicy.record, hnumber]
  case rules => simp [RulePolicy.record]
  case market => simp [MarketPolicy.record, hnumber]
  case timing => simp [TimingPolicy.record]
  case alerting => simp [AlertPolicy.record, hnamed]

end Sections

/-! ## Groups -/

theorem sound_group : ∀ group ∈ groups, group.record.Sound := by
  refine forall_groups.2 ⟨?integrity, ?execution, ?consistency, ?rules, ?market, ?timing, ?alerting⟩
  case integrity => exact ⟨fun _ => rfl, by decide, fun _ => rfl, by simp [IntegrityPolicy.record]⟩
  case execution => exact ⟨fun _ => rfl, by decide, fun _ => rfl, by simp [ExecutionPolicy.record]⟩
  case consistency =>
    exact ⟨fun _ => rfl, by decide, fun _ => rfl, by simp [ConsistencyPolicy.record]⟩
  case rules => exact ⟨fun _ => rfl, by decide, fun _ => rfl, by simp [RulePolicy.record]⟩
  case market => exact ⟨fun _ => rfl, by decide, fun _ => rfl, by simp [MarketPolicy.record]⟩
  case timing => exact ⟨fun _ => rfl, by decide, fun _ => rfl, by simp [TimingPolicy.record]⟩
  case alerting => exact ⟨fun _ => rfl, by decide, fun _ => rfl, by simp [AlertPolicy.record]⟩

theorem sound_record : record.Sound :=
  ⟨fun _ => rfl, by decide, fun _ => rfl, by simp [record]⟩

/-- The groups and the switches compose. -/
theorem composesAt_fields {first second : Members} (hfirst : Sectioned first)
    (hsecond : Sectioned second) (hseverity : SameSeverity first second) :
    ∀ field ∈ record.fields,
      field.codec.ComposesAt (first.get? field.name) (second.get? field.name) := by
  have hgroups : ∀ group ∈ groups, (group.record.codec true).ComposesAt (first.get? group.name)
      (second.get? group.name) := fun group hgroup =>
    (sound_group group hgroup).composesAt (hfirst.givesObject hgroup) (hsecond.givesObject hgroup)
      (composesAt_leaves hfirst hsecond hseverity group hgroup)
  obtain ⟨h₁, h₂, h₃, h₄, h₅, h₆, h₇⟩ := forall_groups.1 hgroups
  simp only [record, forall_fields_defaulted, forall_fields_start]
  exact ⟨⟨⟨⟨⟨⟨⟨⟨⟨trivial, h₁⟩, h₂⟩, h₃⟩, h₄⟩, h₅⟩, h₆⟩, h₇⟩, composesAt_bool⟩, composesAt_bool⟩

/-! ## Equal policies -/

/-- The policy, without the signs that zero amounts may have. -/
def unsignedZeros (policy : Policy) : Policy :=
  { policy with
    stateConsistency :=
      { policy.stateConsistency with
        equityMismatchTolerancePct := policy.stateConsistency.equityMismatchTolerancePct.unsignedZero
        minAvailableBalance := policy.stateConsistency.minAvailableBalance.unsignedZero } }

theorem units_unsignedZeros (policy : Policy) :
    policy.unsignedZeros.amounts.map Amount.units = policy.amounts.map Amount.units := by
  simp [amounts, unsignedZeros, Amount.units_unsignedZero]

/-- Equal field by field: a zero amount has no sign, and every number equals itself. -/
structure Same (policy other : Policy) : Prop where
  unsignedZeros : policy.unsignedZeros = other.unsignedZeros
  floats : ∀ x ∈ policy.floats, x.isFinite = true

/-- Amounts of equal policies are equal numbers. -/
theorem Same.units {policy other : Policy} (h : policy.Same other) :
    policy.amounts.map Amount.units = other.amounts.map Amount.units := by
  rw [← units_unsignedZeros, h.unsignedZeros, units_unsignedZeros]

/-- Equal policies, or no policy at all. -/
inductive SameOutcome : Except PolicyError Policy → Except PolicyError Policy → Prop
  | ok {policy other : Policy} (h : policy.Same other) : SameOutcome (.ok policy) (.ok other)
  | error (e e' : PolicyError) : SameOutcome (.error e) (.error e')

theorem not_sameOutcome_ok_error {policy : Policy} {e : PolicyError} :
    ¬ SameOutcome (.ok policy) (.error e) := nofun

section Reread

variable {policy result : Policy}

/-- What is written of the leaves is read for them. -/
theorem update_leaves (h : codec.update policy none = some result) :
    ∀ group ∈ groups, ∀ field ∈ group.record.fields,
      field.codec.update (field.get (group.get policy)) none =
        some (field.get (group.get result)) := by
  intro group hgroup
  obtain ⟨absent, hfield⟩ := exists_field_of_group group hgroup
  have hread := sound_record.update_none_eq_some_iff.1 h _ hfield
  exact (sound_group group hgroup).update_none_eq_some_iff.1 hread

/-- What is read of a leaf is what was written of it, but for the sign of a zero amount. -/
theorem leaf_eq_of_update_none (policy : Policy) :
    ∀ group ∈ groups, ∀ field ∈ group.record.fields, ∀ b,
      field.codec.update (field.get (group.get policy)) none = some b →
        b = field.get (group.get policy.unsignedZeros) := by
  refine forall_groups.2 ⟨?integrity, ?execution, ?consistency, ?rules, ?market, ?timing, ?alerting⟩
  case integrity => simp [IntegrityPolicy.record, update_binary64_none, unsignedZeros]
  case execution => simp [ExecutionPolicy.record, update_binary64_none, unsignedZeros]
  case consistency =>
    simp [ConsistencyPolicy.record, update_binary64_none, update_amount_none, unsignedZeros]
  case rules => simp [RulePolicy.record, unsignedZeros]
  case market => simp [MarketPolicy.record, update_binary64_none, unsignedZeros]
  case timing => simp [TimingPolicy.record, unsignedZeros]
  case alerting => simp [AlertPolicy.record, unsignedZeros]

/-- What is written of a policy is read as that policy, but for the signs of its zero amounts. -/
theorem eq_of_update_none (h : codec.update policy none = some result) :
    result = policy.unsignedZeros := by
  have hgroups : ∀ group ∈ groups, ∀ s,
      (group.record.codec true).update (group.get policy) none = some s →
        s = group.get policy.unsignedZeros := fun group hgroup s hs =>
    (sound_group group hgroup).eq_of_update_none hs (leaf_eq_of_update_none policy group hgroup)
  obtain ⟨h₁, h₂, h₃, h₄, h₅, h₆, h₇⟩ := forall_groups.1 hgroups
  refine sound_record.eq_of_update_none h ?_
  simp only [record, forall_fields_defaulted, forall_fields_start]
  exact ⟨⟨⟨⟨⟨⟨⟨⟨⟨trivial, h₁⟩, h₂⟩, h₃⟩, h₄⟩, h₅⟩, h₆⟩, h₇⟩,
    fun b hb => (Option.some.inj hb).symm⟩, fun b hb => (Option.some.inj hb).symm⟩

/-- What is written of a policy is not read unless its numbers are finite. -/
theorem finite_of_update_none (h : codec.update policy none = some result) :
    ∀ x ∈ policy.floats, x.isFinite = true := by
  obtain ⟨h₁, h₂, h₃, -, h₅, -⟩ := forall_groups.1 (update_leaves h)
  simp only [IntegrityPolicy.record, ExecutionPolicy.record, ConsistencyPolicy.record,
    MarketPolicy.record, forall_fields_defaulted, update_binary64_none] at h₁ h₂ h₃ h₅
  simp [floats, h₁, h₂, h₃, h₅]

theorem same_of_alike {other : Policy} (h : codec.Alike policy other) : policy.Same other := by
  obtain ⟨result, hpolicy, hother⟩ := h
  exact ⟨(eq_of_update_none hpolicy).symm.trans (eq_of_update_none hother),
    finite_of_update_none hpolicy⟩

end Reread

/-! ## Overrides -/

theorem override_of_update {base result : Policy} {patches : Members}
    (h : codec.update base (some (.obj patches)) = some result) :
    base.override (.obj patches) = .ok result := by
  have hobj : (Json.obj patches).isObj = true := rfl
  have hdecode : codec.decode .json (Json.merge base.toJson (.obj patches)) = some result := h
  unfold override
  rw [if_pos hobj, hdecode]

theorem override_of_update_eq_none {base : Policy} {patches : Members}
    (h : codec.update base (some (.obj patches)) = none) :
    base.override (.obj patches) = .error .undecodable := by
  have hobj : (Json.obj patches).isObj = true := rfl
  have hdecode : codec.decode .json (Json.merge base.toJson (.obj patches)) = none := h
  unfold override
  rw [if_pos hobj, hdecode]

theorem sameOutcome_of_rel {policy other : Policy} {patches others : Members}
    (h : Option.Rel codec.Alike (codec.update policy (some (.obj patches)))
      (codec.update other (some (.obj others)))) :
    SameOutcome (policy.override (.obj patches)) (other.override (.obj others)) := by
  generalize hread : codec.update policy (some (.obj patches)) = read at h
  generalize hread' : codec.update other (some (.obj others)) = read' at h
  cases h with
  | some halike =>
    rw [override_of_update hread, override_of_update hread']
    exact .ok (same_of_alike halike)
  | none =>
    rw [override_of_update_eq_none hread, override_of_update_eq_none hread']
    exact .error _ _

section Twice

variable {base middle : Policy} {first second : Members}

theorem update_update (hfirst : Sectioned first) (hsecond : Sectioned second)
    (hseverity : SameSeverity first second) (hmiddle : base.override (.obj first) = .ok middle) :
    Option.Rel codec.Alike (codec.update middle (some (.obj second)))
        (codec.update base (some (.obj (Json.mergeMembers first second)))) ∧
      codec.update middle (some (.obj first)) = some middle :=
  sound_record.composes hfirst.nodup hsecond.nodup (Json.nodup_names_mergeMembers _ hfirst.nodup)
    (fun _ => Json.get?_mergeMembers hsecond.nodup) (composesAt_fields hfirst hsecond hseverity)
    (decode_of_override hmiddle)

theorem sectioned_nil : Sectioned [] := ⟨by decide, by decide, by decide⟩

/-- Overriding with an object again changes nothing. -/
theorem override_again (hfirst : Sectioned first) (hmiddle : base.override (.obj first) = .ok middle) :
    middle.override (.obj first) = .ok middle := by
  have hseverity : SameSeverity first [] := fun _ _ _ hgiven => nomatch hgiven
  exact override_of_update (update_update hfirst sectioned_nil hseverity hmiddle).2

/-- Overriding twice is overriding once with both objects merged, and overriding with the first one
again changes nothing. -/
theorem override_override (hfirst : Sectioned first) (hsecond : Sectioned second)
    (hmiddle : base.override (.obj first) = .ok middle) :
    (SameSeverity first second →
        SameOutcome (middle.override (.obj second))
          (base.override (Json.merge (.obj first) (.obj second)))) ∧
      middle.override (.obj first) = .ok middle := by
  refine ⟨fun hseverity => ?_, override_again hfirst hmiddle⟩
  rw [Json.merge_obj]
  exact sameOutcome_of_rel (update_update hfirst hsecond hseverity hmiddle).1

end Twice

/-! ## Samples -/

/-- A limit of one group, and a switch. -/
def sampleLimit : Members :=
  [("timing", .obj [("max_evaluation_time_ms", .int 50)]), ("block_on_internal_error", .bool false)]

/-- A switch of that group, and a group that is named only. -/
def sampleSwitch : Members := [("timing", .obj [("strict_timing", .bool false)]), ("rules", .obj [])]

theorem sectioned_sampleLimit : Sectioned sampleLimit :=
  ⟨by decide, by decide +kernel, by decide⟩

theorem sectioned_sampleSwitch : Sectioned sampleSwitch := ⟨by decide, by decide, by decide⟩

theorem override_sampleLimit :
    standard.override (.obj sampleLimit) = .ok patchedStandard ∧
      SameOutcome (patchedStandard.override (.obj sampleSwitch))
        (standard.override (Json.merge (.obj sampleLimit) (.obj sampleSwitch))) ∧
      patchedStandard.override (.obj sampleLimit) = .ok patchedStandard := by
  have hmiddle : standard.override (.obj sampleLimit) = .ok patchedStandard := by decide +kernel
  have hseverity : SameSeverity sampleLimit sampleSwitch := fun _ _ hgiven => nomatch hgiven
  obtain ⟨hsame, hagain⟩ := override_override sectioned_sampleLimit sectioned_sampleSwitch hmiddle
  exact ⟨hmiddle, hsame hseverity, hagain⟩

/-- The severity of alerts, given by its name as the member of an object. -/
def severityPatch (name : String) : Members :=
  [("alerting", .obj [("min_severity_for_alert", .obj [(name, .null)])])]

/-- The standard policy with that severity. -/
def alertingFrom (severity : Severity) : Policy :=
  { standard with alerting := { AlertPolicy.standard with minSeverityForAlert := severity } }

/-- Two names merge into an object that is no severity. -/
theorem not_sameOutcome_severityPatch :
    Sectioned (severityPatch "HIGH") ∧ Sectioned (severityPatch "MEDIUM") ∧
      standard.override (.obj (severityPatch "HIGH")) = .ok (alertingFrom .high) ∧
      ¬ SameOutcome ((alertingFrom .high).override (.obj (severityPatch "MEDIUM")))
        (standard.override
          (Json.merge (.obj (severityPatch "HIGH")) (.obj (severityPatch "MEDIUM")))) := by
  have htwice : (alertingFrom .high).override (.obj (severityPatch "MEDIUM")) =
      .ok (alertingFrom .medium) := by decide +kernel
  have honce : standard.override
      (Json.merge (.obj (severityPatch "HIGH")) (.obj (severityPatch "MEDIUM"))) =
        .error .undecodable := by decide +kernel
  refine ⟨⟨by decide, by decide, by decide⟩, ⟨by decide, by decide, by decide⟩, by decide +kernel, ?_⟩
  rw [htwice, honce]
  exact not_sameOutcome_ok_error

end Policy

end TradeGate
