import TradeGate.Proofs.Json.Dialect
import TradeGate.Proofs.Policy.Override

/-!
# Defaults do not drift

A field that a document leaves out stands for a default, and the standard policy is made of defaults
too. They are the same: reading an object as a policy, and overriding the standard policy with it,
succeed for the same objects and then give the same policy (`Policy.override_standard`). A TOML
document of that object is read in the other dialect, which accepts arrays with more items than fields
and a name as an object in another form; where the object has neither, it gives that policy too
(`Policy.defaults_agree`).
-/

namespace TradeGate

open Record Codec

namespace Policy

/-! ## Defaults -/

/-- What stands for a missing field of a group is what the standard policy has there. -/
theorem named_standard : ∀ group ∈ groups, ∀ field ∈ group.record.fields,
    field.absent.named = some (field.get (group.get standard)) := by
  refine forall_groups.2 ⟨?integrity, ?execution, ?consistency, ?rules, ?market, ?timing, ?alerting⟩
  case integrity => simp [IntegrityPolicy.record, standard, IntegrityPolicy.standard]
  case execution => simp [ExecutionPolicy.record, standard]
  case consistency => simp [ConsistencyPolicy.record, standard]
  case rules => simp [RulePolicy.record, standard]
  case market => simp [MarketPolicy.record, standard]
  case timing => simp [TimingPolicy.record, standard, TimingPolicy.standard]
  case alerting => simp [AlertPolicy.record, standard, AlertPolicy.standard]

theorem absorbs_group : ∀ group ∈ groups,
    (group.record.codec true).Absorbs (group.get standard) := by
  intro group hgroup
  refine (expressible_standard.keeps_group group hgroup).absorbs fun field hfield => ?_
  have hplain := expressible_standard.plain group hgroup field hfield
  exact ⟨named_standard group hgroup field hfield, absorbs_of_not_isObj hplain.plain.isObj_encode⟩

/-- Merging into the standard policy makes no difference to what is read. -/
theorem absorbs_standard : codec.Absorbs standard := by
  obtain ⟨h₁, h₂, h₃, h₄, h₅, h₆, h₇⟩ := forall_groups.1 absorbs_group
  have hbool (b : Bool) : bool.Absorbs b := absorbs_of_not_isObj rfl
  refine expressible_standard.keeps.absorbs ?_
  simp only [record, forall_fields_defaulted, forall_fields_start]
  exact ⟨⟨⟨⟨⟨⟨⟨⟨⟨trivial, rfl, h₁⟩, rfl, h₂⟩, rfl, h₃⟩, rfl, h₄⟩, rfl, h₅⟩, rfl, h₆⟩, rfl, h₇⟩,
    rfl, hbool _⟩, rfl, hbool _⟩

/-- Overriding the standard policy with an object gives what the object is read as. -/
theorem override_standard {members : Members} (hnames : (Json.obj members).namesOnce = true)
    (policy : Policy) :
    standard.override (.obj members) = .ok policy ↔
      codec.decode .json (.obj members) = some policy := by
  have hobj : (Json.obj members).isObj = true := rfl
  have hmerge : codec.decode .json (Json.merge standard.toJson (.obj members)) =
      codec.decode .json (.obj members) := absorbs_standard _ hnames
  unfold override
  rw [if_pos hobj, hmerge]
  cases codec.decode .json (.obj members) with
  | none => exact ⟨nofun, nofun⟩
  | some other => rw [Except.ok.injEq, Option.some.injEq]

/-! ## Dialects -/

/-- The least severity that the patch gives, in an object of alerting or in an array. -/
def givenSeverity? (patch : Json) : Option Json :=
  (patch.at? ["alerting"]).bind (Json.given? "min_severity_for_alert" 2)

/-- The patch gives no record as an array with more items than fields, and no severity as an object. -/
structure Portable (patch : Json) : Prop where
  groupsFit : ∀ group ∈ groups, ∀ items, patch.at? [group.name] = some (.arr items) →
    items.length ≤ group.record.fields.length
  windowsFit : ∀ windows, givenHours? patch = some (.arr windows) → ∀ items, .arr items ∈ windows →
    items.length ≤ TradingWindow.record.fields.length
  severityNamed : ∀ members, givenSeverity? patch ≠ some (.obj members)

theorem agrees_group : ∀ group ∈ groups, (group.record.codec true).Agrees := by
  have hwindow : TradingWindow.codec.Agrees := Record.agrees
    (by simp [TradingWindow.record, (uniform_uint8).agrees]) true
  have huniform {β : Type} {codec : Codec β} (h : codec.Uniform) : codec.Agrees := h.agrees
  refine forall_groups.2 ⟨?integrity, ?execution, ?consistency, ?rules, ?market, ?timing, ?alerting⟩
  case integrity => exact Record.agrees (by simp [IntegrityPolicy.record, huniform]) true
  case execution => exact Record.agrees (by simp [ExecutionPolicy.record, huniform]) true
  case consistency => exact Record.agrees (by simp [ConsistencyPolicy.record, huniform]) true
  case rules => exact Record.agrees (by simp [RulePolicy.record, huniform, hwindow.list]) true
  case market => exact Record.agrees (by simp [MarketPolicy.record, huniform]) true
  case timing => exact Record.agrees (by simp [TimingPolicy.record, huniform]) true
  case alerting =>
    exact Record.agrees (by simp [AlertPolicy.record, huniform, severity, agrees_named]) true

/-- What both dialects read of a policy is the same. -/
theorem agrees_codec : codec.Agrees := by
  obtain ⟨h₁, h₂, h₃, h₄, h₅, h₆, h₇⟩ := forall_groups.1 agrees_group
  refine Record.agrees ?_ true
  simp only [record, forall_fields_defaulted, forall_fields_start]
  exact ⟨⟨⟨⟨⟨⟨⟨⟨⟨trivial, h₁⟩, h₂⟩, h₃⟩, h₄⟩, h₅⟩, h₆⟩, h₇⟩, uniform_bool.agrees⟩, uniform_bool.agrees⟩

theorem givenHours?_eq (patch : Json) :
    givenHours? patch =
      (patch.at? ["rules"]).bind (Json.given? "allowed_trading_hours_utc" 1) := by
  unfold givenHours?
  cases patch.at? ["rules"] with
  | none => rfl
  | some value => cases value <;> rfl

section Portable

variable {patches : Members} (h : Portable (.obj patches))

include h

theorem Portable.length_le {group : Group} (hgroup : group ∈ groups) {value : Json}
    (hvalue : patches.get? group.name = some value) :
    ∀ items, value = .arr items → items.length ≤ group.record.fields.length := by
  rintro items rfl
  exact h.groupsFit group hgroup items ((at?_singleton _ _).trans hvalue)

/-- The trading hours are read the same in both dialects. -/
theorem Portable.decode_hours {value given : Json} (hvalue : patches.get? "rules" = some value)
    (hgiven : value.given? "allowed_trading_hours_utc" 1 = some given) :
    (Codec.list TradingWindow.codec).decode .toml given =
      (Codec.list TradingWindow.codec).decode .json given := by
  have hhours : givenHours? (.obj patches) = some given := by
    rw [givenHours?_eq, at?_singleton, hvalue]
    exact hgiven
  cases given with
  | arr windows =>
    refine decode_list_congr fun window hwindow => ?_
    refine decode_toml_of_uniform true (by simp [TradingWindow.record]) ?_
    rintro items rfl
    exact h.windowsFit windows hhours items hwindow
  | null | bool | int | float | str | obj | malformed => rfl

theorem Portable.decode_severity {value given : Json} (hvalue : patches.get? "alerting" = some value)
    (hgiven : value.given? "min_severity_for_alert" 2 = some given) :
    Codec.severity.decode .toml given = Codec.severity.decode .json given := by
  have hseverity : givenSeverity? (.obj patches) = some given := by
    unfold givenSeverity?
    rw [at?_singleton, hvalue]
    exact hgiven
  refine uniform_named_of_not_isObj ?_
  cases given with
  | obj members => exact absurd hseverity (h.severityNamed members)
  | null | bool | int | float | str | arr | malformed => rfl

/-- So is every group. -/
theorem Portable.decode_group : ∀ group ∈ groups, ∀ value, patches.get? group.name = some value →
    (group.record.codec true).decode .toml value = (group.record.codec true).decode .json value := by
  have hgroups : ∀ group ∈ groups, ∀ value, patches.get? group.name = some value →
      (∀ items, value = .arr items → items.length ≤ group.record.fields.length) →
      (group.record.codec true).decode .toml value =
        (group.record.codec true).decode .json value := by
    refine forall_groups.2 ⟨?integrity, ?execution, ?consistency, ?rules, ?market, ?timing, ?alerting⟩ <;>
      intro value hvalue hitems
    case integrity =>
      exact decode_toml_of_uniform true (by simp [IntegrityPolicy.record]) hitems
    case execution =>
      exact decode_toml_of_uniform true (by simp [ExecutionPolicy.record]) hitems
    case consistency =>
      exact decode_toml_of_uniform true (by simp [ConsistencyPolicy.record]) hitems
    case market => exact decode_toml_of_uniform true (by simp [MarketPolicy.record]) hitems
    case timing => exact decode_toml_of_uniform true (by simp [TimingPolicy.record]) hitems
    case rules =>
      exact decode_toml_of_field true (by decide) (show RulePolicy.record.fields[1]? = _ from rfl)
        (by simp [RulePolicy.record]) (fun _ => h.decode_hours hvalue) hitems
    case alerting =>
      exact decode_toml_of_field true (by decide) (show AlertPolicy.record.fields[2]? = _ from rfl)
        (by simp [AlertPolicy.record]) (fun _ => h.decode_severity hvalue) hitems
  exact fun group hgroup value hvalue =>
    hgroups group hgroup value hvalue (h.length_le hgroup hvalue)

/-- And so is the policy. -/
theorem Portable.decode_toml :
    codec.decode .toml (.obj patches) = codec.decode .json (.obj patches) := by
  obtain ⟨h₁, h₂, h₃, h₄, h₅, h₆, h₇⟩ := forall_groups.1 h.decode_group
  have hbool (name : String) (given : Json) (_ : patches.get? name = some given) :
      bool.decode .toml given = bool.decode .json given := uniform_bool given
  have hfields : ∀ field ∈ record.fields, ∀ given, patches.get? field.name = some given →
      field.codec.decode .toml given = field.codec.decode .json given := by
    simp only [record, forall_fields_defaulted, forall_fields_start]
    exact ⟨⟨⟨⟨⟨⟨⟨⟨⟨trivial, h₁⟩, h₂⟩, h₃⟩, h₄⟩, h₅⟩, h₆⟩, h₇⟩, hbool _⟩, hbool _⟩
  exact Record.decode_toml true
    (fun _ field hfield given => hfields field (List.mem_of_getElem? hfield) given)
    (fun _ hitems => Json.noConfusion hitems)

end Portable

/-! ## Documents -/

/-- An object as overrides of the standard policy and as a document of its own: the first is what the
object is read as in JSON. A TOML document of the object gives nothing else, and it gives that policy
unless the object is written in a way that one of the dialects refuses. -/
theorem defaults_agree {members : Members} (hnames : (Json.obj members).namesOnce = true) :
    (∀ policy, standard.override (.obj members) = .ok policy ↔
      codec.decode .json (.obj members) = some policy) ∧
    ∀ document, Toml.read? document = some (.obj members) →
      (∀ policy other, standard.override (.obj members) = .ok policy →
        ofToml document = .ok other → policy = other) ∧
      (Portable (.obj members) → ∀ policy, ofToml document = .ok policy ↔
        standard.override (.obj members) = .ok policy) := by
  refine ⟨override_standard hnames, fun document hdocument => ?_⟩
  have htoml : ∀ policy, ofToml document = .ok policy ↔
      codec.decode .toml (.obj members) = some policy := by
    intro policy
    unfold ofToml
    rw [hdocument, Option.bind_some]
    cases codec.decode .toml (.obj members) with
    | none => exact ⟨nofun, nofun⟩
    | some other => rw [Except.ok.injEq, Option.some.injEq]
  constructor
  · intro policy other hpolicy hother
    exact agrees_codec _ _ _ ((override_standard hnames policy).1 hpolicy) ((htoml other).1 hother)
  · intro hportable policy
    rw [htoml, override_standard hnames, hportable.decode_toml]

/-! ## Sample documents -/

/-- The first two fields of a group as an array, a field of another one, and an empty group. -/
def sampleDocument : String :=
  "timing = [50, 20]\n[alerting]\nmax_alerts_per_hour = 5\n[rules]\n"

/-- The object of the sample document. -/
def sampleMembers : Members :=
  [("timing", .arr [.int 50, .int 20]), ("alerting", .obj [("max_alerts_per_hour", .int 5)]),
    ("rules", .obj [])]

/-- The standard policy with what the sample document gives. -/
def sampledStandard : Policy :=
  { standard with
    timing := ⟨50, 20, true⟩
    alerting := { AlertPolicy.standard with maxAlertsPerHour := 5 } }

/-- The value is the object of the sample document. -/
def isSample : Option Json → Bool
  | some (.obj [("timing", .arr [.int 50, .int 20]),
    ("alerting", .obj [("max_alerts_per_hour", .int 5)]), ("rules", .obj [])]) => true
  | _ => false

theorem eq_of_isSample {read : Option Json} (h : isSample read = true) :
    read = some (.obj sampleMembers) := by
  unfold isSample at h
  split at h
  · rfl
  · exact absurd h Bool.false_ne_true

theorem read_sampleDocument : Toml.read? sampleDocument = some (.obj sampleMembers) :=
  eq_of_isSample (by decide +kernel)

theorem portable_sampleMembers : Portable (.obj sampleMembers) where
  groupsFit := by
    refine forall_groups.2 ⟨?_, ?_, ?_, ?_, ?_, ?_, ?_⟩ <;> rintro items h <;>
      simp [Json.at?, sampleMembers, Members.get?, List.lookup_cons] at h
    subst h
    decide
  windowsFit := by
    intro windows h
    simp [givenHours?, Json.at?, sampleMembers, Members.get?, List.lookup_cons] at h
  severityNamed := by
    intro members h
    simp [givenSeverity?, Json.given?, Json.at?, sampleMembers, Members.get?, List.lookup_cons] at h

theorem ofToml_sampleDocument :
    standard.override (.obj sampleMembers) = .ok sampledStandard ∧
      ofToml sampleDocument = .ok sampledStandard := by
  have hnames : (Json.obj sampleMembers).namesOnce = true := by decide
  have hoverride : standard.override (.obj sampleMembers) = .ok sampledStandard := by decide +kernel
  exact ⟨hoverride, (((defaults_agree hnames).2 _ read_sampleDocument).2 portable_sampleMembers _).2
    hoverride⟩

/-- An array with more items than the group has fields. -/
def overlongDocument : String := "timing = [100, 20, true, 1]"

/-- The object of the document with that array. -/
def overlongMembers : Members :=
  [("timing", .arr [.int 100, .int 20, .bool true, .int 1])]

/-- The value is that object. -/
def isOverlong : Option Json → Bool
  | some (.obj [("timing", .arr [.int 100, .int 20, .bool true, .int 1])]) => true
  | _ => false

theorem eq_of_isOverlong {read : Option Json} (h : isOverlong read = true) :
    read = some (.obj overlongMembers) := by
  unfold isOverlong at h
  split at h
  · rfl
  · exact absurd h Bool.false_ne_true

/-- In TOML the item too many is ignored, in JSON it is refused. -/
theorem ofToml_overlongDocument :
    (Json.obj overlongMembers).namesOnce = true ∧
      Toml.read? overlongDocument = some (.obj overlongMembers) ∧
      ofToml overlongDocument = .ok standard ∧
      standard.override (.obj overlongMembers) = .error .undecodable :=
  ⟨by decide, eq_of_isOverlong (by decide +kernel), by decide +kernel, by decide +kernel⟩

end Policy

end TradeGate
