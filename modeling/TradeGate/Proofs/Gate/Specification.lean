import TradeGate.Proofs.Gate.Window

/-!
# Decisions by the table

The conditions of all families form one table in the order of the validators, with that of a replay
at the head of system integrity. A decision follows the table if it executes exactly where the
snapshot is complete and no condition holds, and else blocks for the first one that holds
(`Decision.FollowsTable`). What the checks of a policy object to answers the table, but for replays,
where the window may hold more than the table asks for (`Policy.exists_answers_conditions`).
-/

namespace TradeGate

/-! ## Missing sections -/

namespace Snapshot

/-- The snapshot lacks the section of this name. -/
inductive Lacks (snapshot : Snapshot) : String → Prop
  | tradeIntent (h : snapshot.tradeIntent = none) : Lacks snapshot "trade_intent"
  | systemState (h : snapshot.systemState = none) : Lacks snapshot "system_state"
  | executionHealth (h : snapshot.executionHealth = none) : Lacks snapshot "execution_health"
  | haltState (h : snapshot.haltState = none) : Lacks snapshot "halt_state"
  | accountState (h : snapshot.accountState = none) : Lacks snapshot "account_state"
  | environmentalContext (h : snapshot.environmentalContext = none) :
      Lacks snapshot "environmental_context"

/-- The names of the sections, in order. -/
def sectionNames : List String :=
  ["trade_intent", "system_state", "execution_health", "halt_state", "account_state",
    "environmental_context"]

/-- The names that are marked. -/
def marked (entries : List (String × Bool)) : List String :=
  entries.filterMap fun (name, isMarked) => if isMarked then some name else none

theorem marked_sublist (entries : List (String × Bool)) :
    (marked entries).Sublist (entries.map Prod.fst) := by
  induction entries with
  | nil => exact List.Sublist.refl []
  | cons entry rest ih =>
    obtain ⟨name, isMarked⟩ := entry
    cases isMarked with
    | true => exact ih.cons_cons name
    | false => exact ih.cons name

theorem mem_marked_iff (entries : List (String × Bool)) (name : String) :
    name ∈ marked entries ↔ (name, true) ∈ entries := by
  unfold marked
  simp

theorem missingSections_sublist (snapshot : Snapshot) :
    snapshot.missingSections.Sublist sectionNames :=
  marked_sublist _

/-- The names that are reported are those of the sections that are lacking. -/
theorem mem_missingSections_iff (snapshot : Snapshot) (name : String) :
    name ∈ snapshot.missingSections ↔ snapshot.Lacks name := by
  show name ∈ marked _ ↔ _
  rw [mem_marked_iff]
  simp only [List.mem_cons, Prod.mk.injEq, List.not_mem_nil, or_false, eq_comm (a := true),
    Option.isNone_iff_eq_none]
  constructor
  · rintro (⟨rfl, h⟩ | ⟨rfl, h⟩ | ⟨rfl, h⟩ | ⟨rfl, h⟩ | ⟨rfl, h⟩ | ⟨rfl, h⟩)
    · exact .tradeIntent h
    · exact .systemState h
    · exact .executionHealth h
    · exact .haltState h
    · exact .accountState h
    · exact .environmentalContext h
  · intro h
    cases h <;> simp [*]

theorem sections?_eq_none_iff (snapshot : Snapshot) :
    snapshot.sections? = none ↔ ∃ name, snapshot.Lacks name := by
  rw [← Option.not_isSome_iff_eq_none, sections?_isSome_iff, List.eq_nil_iff_forall_not_mem]
  simp only [mem_missingSections_iff, Classical.not_forall, Classical.not_not]

end Snapshot

/-! ## All objections answer the table -/

namespace Policy

variable (policy : Policy) (s : Sections) (now : Instant)

theorem standing_answers :
    List.Forall₂ Answers (policy.standingObjections s now) (policy.standing s now) :=
  List.rel_flatten <|
    .cons (policy.rules.answers s now) <|
    .cons (policy.systemIntegrity.answers s now) <|
    .cons (policy.executionSafety.answers s) <|
    .cons (policy.stateConsistency.answers s now) <|
    .cons (policy.environmental.answers s) .nil

variable {window : ReplayWindow}

/-- Where no admission of the id is held that is older than the span, what is held is what the table
asks for. -/
theorem answers_replay (h : window.Suits policy) (hold : ¬ window.HoldsOld s.intent.requestId now) :
    Answers (policy.replayObjection window s now) (policy.systemIntegrity.replay s now window) := by
  have hreplay : ∀ seen, (window.register s.intent.requestId now).1 = some seen ↔
      (s.intent.requestId, seen) ∈ window.queue ∧
        now.nanosSince seen ≤ policy.systemIntegrity.duplicateSpan := by
    intro seen
    rw [ReplayWindow.register_fst_eq_some_iff h.consistent,
      ReplayWindow.mem_held_iff_of_not_holdsOld hold, h.span_eq]
  cases hseen : (window.register s.intent.requestId now).1 with
  | none =>
    rw [policy.replayObjection_of_none hseen]
    refine answers_none ?_
    rintro ⟨seen, hadmitted⟩
    rw [(hreplay seen).2 hadmitted] at hseen
    exact nomatch hseen
  | some seen =>
    rw [policy.replayObjection_of_some hseen]
    exact answers_some ⟨seen, (hreplay seen).1 hseen⟩ rfl rfl

/-- The table is answered if the replays in it are. -/
theorem answers_of_replay {objection : Option Violation}
    (h : Answers objection (policy.systemIntegrity.replay s now window)) :
    List.Forall₂ Answers
      [policy.rules.violations s now, objection :: policy.systemIntegrity.violations s now,
        policy.executionSafety.violations s, policy.stateConsistency.violations s now,
        policy.environmental.violations s].flatten
      (policy.conditions s now window) :=
  List.rel_flatten <|
    .cons (policy.rules.answers s now) <|
    .cons (.cons h (policy.systemIntegrity.answers s now)) <|
    .cons (policy.executionSafety.answers s) <|
    .cons (policy.stateConsistency.answers s now) <|
    .cons (policy.environmental.answers s) .nil

/-- The first objection is that of checks that answer the table, if no admission of the id is held
that is older than the span, or a rule objects before that matters. -/
theorem exists_answers_conditions (h : window.Suits policy)
    (hreplay : (∃ condition ∈ policy.rules.conditions s now, condition.holds) ∨
      ¬ window.HoldsOld s.intent.requestId now) :
    ∃ objections, List.Forall₂ Answers objections (policy.conditions s now window) ∧
      firstViolation? objections = firstViolation? (policy.objections window s now) := by
  rcases hreplay with ⟨condition, hmem, hholds⟩ | hold
  · obtain ⟨objection, hobjection⟩ := exists_answers (policy.systemIntegrity.replay s now window)
    refine ⟨_, policy.answers_of_replay s now hobjection, ?_⟩
    cases hrules : firstViolation? (policy.rules.violations s now) with
    | none =>
      rw [firstViolation?_eq_none_iff_of_answers (policy.rules.answers s now)] at hrules
      exact absurd hholds (hrules condition hmem)
    | some violation =>
      have hfirst : ∀ others, firstViolation? (policy.rules.violations s now :: others).flatten =
          some violation := by
        intro others
        rw [List.flatten_cons, firstViolation?_append, hrules, Option.some_or]
      exact (hfirst _).trans (hfirst _).symm
  · exact ⟨_, policy.answers_of_replay s now (policy.answers_replay s now h hold), rfl⟩

end Policy

/-! ## Decisions by the table -/

/-- The decision is the one that a table of conditions asks for. -/
structure Decision.FollowsTable (decision : Decision) (snapshot : Snapshot)
    (conditions : Sections → List Condition) : Prop where
  execute_iff : decision.verdict = .execute ↔
    ∃ s, snapshot.sections? = some s ∧ ∀ condition ∈ conditions s, ¬ condition.holds
  of_firstOf : ∀ s condition, snapshot.sections? = some s →
    Condition.FirstOf condition (conditions s) →
    decision.verdict = .block ∧ decision.reason = some condition.reason ∧
      decision.severity = some condition.severity
  /-- What is missing is named in order, and nothing else. -/
  of_lacks : (∃ name, snapshot.Lacks name) →
    decision.verdict = .block ∧ decision.reason = some .guardInternalError ∧
      decision.severity = some .critical ∧
      ∃ names, decision.details.get? "missing_sections" = some (.ofStrings names) ∧
        names.Sublist Snapshot.sectionNames ∧ ∀ name, name ∈ names ↔ snapshot.Lacks name

namespace Gate

variable {policy : Policy} {gate : Gate ReplayWindow} {snapshot : Snapshot} {now : Instant}
  {watch : Stopwatch} {window : ReplayWindow}

theorem followsTable_of_incomplete (conditions : Sections → List Condition)
    (hs : snapshot.sections? = none) :
    (gate.evaluate snapshot now watch window).1.decision.FollowsTable snapshot conditions := by
  rw [evaluate_of_incomplete now window hs]
  refine ⟨iff_of_false (fun h => nomatch h) ?_, ?_, fun _ => ⟨rfl, rfl, rfl, _, ?_,
    snapshot.missingSections_sublist, snapshot.mem_missingSections_iff⟩⟩
  · rintro ⟨s, hcomplete, _⟩
    rw [hs] at hcomplete
    exact nomatch hcomplete
  · intro s _ hcomplete
    rw [hs] at hcomplete
    exact nomatch hcomplete
  · rfl

theorem followsTable_of_complete {s : Sections} (hs : snapshot.sections? = some s)
    {decision : Decision} {objections : List (Option Violation)}
    (hreports : decision.Reports (firstViolation? objections))
    {conditions : Sections → List Condition}
    (hanswers : List.Forall₂ Answers objections (conditions s)) :
    decision.FollowsTable snapshot conditions where
  execute_iff := by
    rw [hs]
    simp only [Option.some.injEq, exists_eq_left']
    rw [← firstViolation?_eq_none_iff_of_answers hanswers]
    exact hreports.verdict_eq_execute_iff
  of_firstOf := by
    intro s' condition hs' hfirst
    rw [hs] at hs'
    obtain rfl := Option.some.inj hs'
    obtain ⟨violation, hfound, hreason, hseverity⟩ := firstViolation?_of_firstOf hanswers hfirst
    rw [hfound] at hreports
    rw [← hreason, ← hseverity]
    exact hreports
  of_lacks := by
    intro hlacks
    rw [← Snapshot.sections?_eq_none_iff, hs] at hlacks
    exact nomatch hlacks

/-- Within its time the gate executes exactly if the snapshot is complete, its request is not a
replay, and no other condition holds. -/
theorem verdict_eq_execute_iff (hgate : ofPolicy policy = .ok gate)
    (hbudget : gate.InBudget watch) :
    (gate.evaluate snapshot now watch window).1.decision.verdict = .execute ↔
      ∃ s, snapshot.sections? = some s ∧ (window.register s.intent.requestId now).1 = none ∧
        ∀ condition ∈ policy.standing s now, ¬ condition.holds := by
  cases hs : snapshot.sections? with
  | none =>
    rw [evaluate_of_incomplete now window hs]
    exact iff_of_false (fun h => nomatch h) (fun ⟨_, h, _⟩ => nomatch h)
  | some s =>
    obtain ⟨hreports, _⟩ := evaluate_of_complete now window hgate hbudget hs
    simp only [Option.some.injEq, exists_eq_left']
    rw [← firstViolation?_eq_none_iff_of_answers (policy.standing_answers s now),
      ← policy.firstViolation?_objections_eq_none_iff, hreports.verdict_eq_execute_iff]

end Gate

end TradeGate
