import TradeGate.Proofs.Gate.Objection

/-!
# Decisions without measured times

Two evaluations of one snapshot may take different times. Within its time a gate comes to the same
decision in both, times aside, if its validators come to the same outcomes from the two states
(`Alike`, `Gate.untimed_evaluate`). The validators of a policy do so from any two replay windows
that answer alike to the request (`Policy.alike_of_register`).
-/

namespace TradeGate

/-- The finding without the time that it took. -/
def Finding.untimed (finding : Finding) : Finding :=
  { finding with validationTimeMs := .ofNat 0 }

/-- The decision without the times that were measured. -/
def Decision.untimed (decision : Decision) : Decision :=
  { decision with
    findings := decision.findings.map Finding.untimed
    evaluationTimeMs := .ofNat 0 }

theorem Decision.verdict_untimed (decision : Decision) :
    decision.untimed.verdict = decision.verdict := rfl

theorem Decision.reason_untimed (decision : Decision) :
    decision.untimed.reason = decision.reason := rfl

/-- The end without the time that its finding took. -/
def Ending.untimed : Ending → Ending
  | passed => passed
  | failed finding => failed finding.untimed
  | stopped finding => stopped finding.untimed
  | broken message => broken message

namespace Run

/-- The run without the times that its findings took. -/
def untimed (run : Run) : Run :=
  ⟨run.findings.map Finding.untimed, run.ending.untimed⟩

theorem untimed_cons (finding : Finding) (run : Run) :
    (run.cons finding).untimed = run.untimed.cons finding.untimed := rfl

/-- What a run comes to, times aside, can be read off the run without its times. -/
theorem untimed_decision (run : Run) (evaluationId : String) (intent : Option TradeIntent)
    (total : Binary64) (now : Instant) :
    (run.decision evaluationId intent total now).untimed =
      run.untimed.decision evaluationId intent (.ofNat 0) now := by
  obtain ⟨findings, ending⟩ := run
  have hblock : ∀ finding : Finding,
      (Decision.block evaluationId intent finding (findings ++ [finding]) total now).untimed =
        .block evaluationId intent finding.untimed
          (findings.map Finding.untimed ++ [finding.untimed]) (.ofNat 0) now := by
    intro finding
    unfold Decision.untimed Decision.block Finding.untimed
    simp only [List.map_append, List.map_cons, List.map_nil]
  cases ending with
  | passed => rfl
  | failed finding => exact hblock finding
  | stopped finding => exact hblock finding
  | broken message => rfl

end Run

section Loop

variable {σ : Type} {s : Sections} {now : Instant}

/-- Run one after the other from two states, the validators come to the same outcomes. -/
inductive Alike (s : Sections) (now : Instant) : List (Validator σ) → σ → σ → Prop
  | nil (state other : σ) : Alike s now [] state other
  | cons {validator : Validator σ} {rest : List (Validator σ)} {state other : σ}
      (same : (validator.run s now state).1 = (validator.run s now other).1)
      (behind : Alike s now rest (validator.run s now state).2 (validator.run s now other).2) :
      Alike s now (validator :: rest) state other

/-- Within its time a run is settled by the outcomes of its validators. -/
theorem runFrom_untimed_of_alike {timing : TimingPolicy} {watch watch' : Stopwatch} {count : Nat}
    (hbudget : watch.InBudget timing count) (hbudget' : watch'.InBudget timing count)
    {validators : List (Validator σ)} {state other : σ} (h : Alike s now validators state other)
    (k : Nat) (hcount : k + validators.length ≤ count) :
    (runFrom timing watch s now k validators state).1.untimed =
      (runFrom timing watch' s now k validators other).1.untimed := by
  induction h generalizing k with
  | nil => rfl
  | @cons validator rest state other same _ ih =>
    rw [List.length_cons] at hcount
    obtain ⟨htotal, htime⟩ := hbudget k (by omega)
    obtain ⟨htotal', htime'⟩ := hbudget' k (by omega)
    have hrest := ih (k + 1) (by omega)
    -- within the budget neither run stops for its time
    rw [runFrom, runFrom, htotal, htotal', if_neg Bool.false_ne_true, if_neg Bool.false_ne_true]
    generalize validator.run s now state = result at same hrest
    generalize validator.run s now other = result' at same hrest
    obtain ⟨outcome, next⟩ := result
    obtain ⟨outcome', next'⟩ := result'
    obtain rfl : outcome = outcome' := same
    cases outcome with
    | broken message => rfl
    | failed violation =>
      simp only [Validator.report_failed _ _ _ htime, Validator.report_failed _ _ _ htime']
      rfl
    | passed details =>
      simp only [Validator.report_passed _ _ _ htime, Validator.report_passed _ _ _ htime',
        Finding.pass, if_true, Run.untimed_cons, hrest]
      rfl

end Loop

theorem Gate.decision_evaluate {σ : Type} (gate : Gate σ) (snapshot : Snapshot) (now : Instant)
    (watch : Stopwatch) (state : σ) :
    (gate.evaluate snapshot now watch state).1.decision =
      (gate.run snapshot now watch state).1.decision (evaluationId now snapshot.requestId?)
        snapshot.tradeIntent watch.total now := rfl

/-- Within its time a gate comes to the same decision, times aside, from two states that its
validators do not tell apart. -/
theorem Gate.untimed_evaluate {σ : Type} (gate : Gate σ) {snapshot : Snapshot} {now : Instant}
    {watch watch' : Stopwatch} {state other : σ} (hbudget : gate.InBudget watch)
    (hbudget' : gate.InBudget watch')
    (h : ∀ s, snapshot.sections? = some s → Alike s now gate.validators state other) :
    (gate.evaluate snapshot now watch state).1.decision.untimed =
      (gate.evaluate snapshot now watch' other).1.decision.untimed := by
  rw [decision_evaluate, decision_evaluate, Run.untimed_decision, Run.untimed_decision]
  cases hs : snapshot.sections? with
  | none => rw [run_of_incomplete hs, run_of_incomplete hs]
  | some s =>
    rw [run_of_complete hs, run_of_complete hs,
      runFrom_untimed_of_alike hbudget hbudget' (h s hs) 0 (Nat.le_of_eq (Nat.zero_add _))]

/-- The validators of a policy do not tell two windows apart that answer alike to the request. -/
theorem Policy.alike_of_register (policy : Policy) {s : Sections} {now : Instant}
    {window other : ReplayWindow}
    (h : (window.register s.intent.requestId now).1 = (other.register s.intent.requestId now).1) :
    Alike s now policy.validators window other := by
  have hintegrity : (policy.systemIntegrity.validator.run s now window).1 =
      (policy.systemIntegrity.validator.run s now other).1 := by
    show Outcome.ofCheck (policy.systemIntegrity.check s now window).1 =
      .ofCheck (policy.systemIntegrity.check s now other).1
    rw [integrity_check, integrity_check]
    unfold replayObjection
    rw [h]
  exact .cons rfl (.cons hintegrity (.cons rfl (.cons rfl (.cons rfl (.nil _ _)))))

end TradeGate
