import Mathlib.Data.List.Forall2
import TradeGate.Check.Basic

/-!
# Conditions and objections

A `Condition` says when a trade is blocked and what for, without saying how that is found out. A
check `Answers` a condition if it objects exactly when the condition holds. Checks that answer a list
of conditions in order come to the first one that holds (`firstViolation?_of_firstOf`), or to
nothing (`firstViolation?_eq_none_iff_of_answers`).
-/

namespace TradeGate

/-- When a trade is blocked, and what for. -/
structure Condition where
  holds : Prop
  reason : Reason
  severity : Severity

/-- The first of a list of conditions that holds. -/
def Condition.FirstOf (condition : Condition) (conditions : List Condition) : Prop :=
  condition.holds ∧ ∃ before after, conditions = before ++ condition :: after ∧
    ∀ other ∈ before, ¬ other.holds

theorem Condition.FirstOf.mem {condition : Condition} {conditions : List Condition}
    (h : condition.FirstOf conditions) : condition ∈ conditions := by
  obtain ⟨_, before, after, rfl, _⟩ := h
  exact List.mem_append_right before List.mem_cons_self

/-- The objection is raised exactly if the condition holds, and under its reason and severity. -/
structure Answers (objection : Option Violation) (condition : Condition) : Prop where
  isSome_iff : objection.isSome = true ↔ condition.holds
  reported : ∀ violation, objection = some violation →
    violation.reason = condition.reason ∧ violation.severity = condition.severity

theorem answers_none {condition : Condition} (h : ¬ condition.holds) : Answers none condition where
  isSome_iff := iff_of_false Bool.false_ne_true h
  reported := fun _ h => nomatch h

theorem answers_some {condition : Condition} {violation : Violation} (h : condition.holds)
    (hreason : violation.reason = condition.reason)
    (hseverity : violation.severity = condition.severity) : Answers (some violation) condition where
  isSome_iff := iff_of_true rfl h
  reported := by
    rintro _ ⟨⟩
    exact ⟨hreason, hseverity⟩

/-- Every condition can be answered. -/
theorem exists_answers (condition : Condition) : ∃ objection, Answers objection condition := by
  by_cases h : condition.holds
  · exact ⟨some ⟨condition.reason, condition.severity, "", .empty⟩, answers_some h rfl rfl⟩
  · exact ⟨none, answers_none h⟩

theorem answers_when {violation : Violation} {test : Bool} {holds : Prop} (h : test = true ↔ holds) :
    Answers (violation.when test) ⟨holds, violation.reason, violation.severity⟩ := by
  unfold Violation.when
  split
  · exact answers_some (h.1 ‹_›) rfl rfl
  · exact answers_none fun hholds => absurd (h.2 hholds) ‹_›

theorem answers_bind {α : Type} {value : Option α} {check : α → Option Violation}
    {holds : α → Prop} {reason : Reason} {severity : Severity}
    (h : ∀ a, Answers (check a) ⟨holds a, reason, severity⟩) :
    Answers (value.bind check) ⟨∃ a ∈ value, holds a, reason, severity⟩ := by
  cases value with
  | none => exact answers_none fun ⟨_, hnone, _⟩ => nomatch hnone
  | some a =>
    refine ⟨(h a).isSome_iff.trans ⟨fun hholds => ⟨a, rfl, hholds⟩, ?_⟩, (h a).reported⟩
    rintro ⟨_, ⟨⟩, hholds⟩
    exact hholds

section Lists

variable {objections : List (Option Violation)} {conditions : List Condition}

/-- Where some condition holds, one of them is the first. -/
theorem exists_firstOf (h : ∃ condition ∈ conditions, condition.holds) :
    ∃ condition, Condition.FirstOf condition conditions := by
  induction conditions with
  | nil =>
    obtain ⟨_, hmem, _⟩ := h
    exact absurd hmem List.not_mem_nil
  | cons condition rest ih =>
    by_cases hfirst : condition.holds
    · exact ⟨condition, hfirst, [], rest, rfl, fun _ h => absurd h List.not_mem_nil⟩
    · have hrest : ∃ other ∈ rest, other.holds := by
        obtain ⟨other, hmem, hholds⟩ := h
        rcases List.mem_cons.1 hmem with rfl | hmem
        · exact absurd hholds hfirst
        · exact ⟨other, hmem, hholds⟩
      obtain ⟨first, hholds, before, after, rfl, hbefore⟩ := ih hrest
      refine ⟨first, hholds, condition :: before, after, rfl, fun other hmem => ?_⟩
      rcases List.mem_cons.1 hmem with rfl | hmem
      · exact hfirst
      · exact hbefore other hmem

theorem firstViolation?_eq_none_iff_of_answers (h : List.Forall₂ Answers objections conditions) :
    firstViolation? objections = none ↔ ∀ condition ∈ conditions, ¬ condition.holds := by
  rw [firstViolation?_eq_none_iff]
  induction h with
  | nil => exact iff_of_true (fun _ h => absurd h List.not_mem_nil) (fun _ h => absurd h List.not_mem_nil)
  | cons hanswers _ ih =>
    rw [List.forall_mem_cons, List.forall_mem_cons, ih, ← hanswers.isSome_iff,
      Option.not_isSome_iff_eq_none]

theorem firstViolation?_of_firstOf (h : List.Forall₂ Answers objections conditions)
    {condition : Condition} (hfirst : condition.FirstOf conditions) :
    ∃ violation, firstViolation? objections = some violation ∧
      violation.reason = condition.reason ∧ violation.severity = condition.severity := by
  obtain ⟨hholds, before, after, rfl, hbefore⟩ := hfirst
  induction before generalizing objections with
  | nil =>
    cases h with
    | cons hanswers _ =>
      obtain ⟨violation, rfl⟩ := Option.isSome_iff_exists.1 (hanswers.isSome_iff.2 hholds)
      exact ⟨violation, rfl, hanswers.reported violation rfl⟩
  | cons other rest ih =>
    cases h with
    | cons hanswers hrest =>
      obtain ⟨hother, hbefore⟩ := List.forall_mem_cons.1 hbefore
      rw [← hanswers.isSome_iff, Option.not_isSome_iff_eq_none] at hother
      obtain ⟨violation, hfound, hreported⟩ := ih hbefore hrest
      rw [hother]
      exact ⟨violation, hfound, hreported⟩

/-- A violation that is found is reported as some condition of the list says. -/
theorem exists_condition_of_firstViolation? (h : List.Forall₂ Answers objections conditions)
    {violation : Violation} (hfound : firstViolation? objections = some violation) :
    ∃ condition : Condition, condition.FirstOf conditions ∧
      violation.reason = condition.reason ∧ violation.severity = condition.severity := by
  have hsome : ∃ condition ∈ conditions, condition.holds := by
    by_contra hnone
    push Not at hnone
    rw [(firstViolation?_eq_none_iff_of_answers h).2 hnone] at hfound
    exact nomatch hfound
  obtain ⟨condition, hfirst⟩ := exists_firstOf hsome
  obtain ⟨other, hother, hreported⟩ := firstViolation?_of_firstOf h hfirst
  rw [hfound] at hother
  obtain rfl := Option.some.inj hother
  exact ⟨condition, hfirst, hreported⟩

end Lists

end TradeGate
