import TradeGate.Gate.Basic
import TradeGate.Proofs.Gate.Passing

/-!
# Decisions up to what was measured

A decision tells what was measured in three places: its own time, the times of its findings, and
the time in the details of a timeout. `Decision.unmeasured` has no number there. Two evaluations of one
snapshot from one state come to the same decision up to that, and leave the same state, as long as
their times are on the same sides of the limits (`Stopwatch.SameSides`, `Gate.unmeasured_evaluate`);
unlike in `Gate.untimed_evaluate` they may both be over a limit.
-/

namespace TradeGate

/-! ## What was measured -/

/-- The details with no number for the time of a timeout. -/
def Details.unmeasured (details : Details) (reason : Option Reason) : Details :=
  if reason = some .timeout then details.set "elapsed_ms" .null else details

/-- The finding with no number for the times that were measured. -/
def Finding.unmeasured (finding : Finding) : Finding :=
  { finding with
    details := finding.details.unmeasured finding.reason
    validationTimeMs := .nan }

/-- The decision with no number for the times that were measured. -/
def Decision.unmeasured (decision : Decision) : Decision :=
  { decision with
    details := decision.details.unmeasured decision.reason
    findings := decision.findings.map Finding.unmeasured
    evaluationTimeMs := .nan }

theorem Decision.isBlock_unmeasured (decision : Decision) :
    decision.unmeasured.isBlock = decision.isBlock := rfl

theorem Details.message?_unmeasured (details : Details) (reason : Option Reason) :
    (details.unmeasured reason).message? = details.message? := by
  unfold unmeasured
  split
  · unfold message? text? get? Details.set
    rw [Members.get?_set_of_ne (by decide)]
  · rfl

/-- The end with no number for the times that were measured. -/
def Ending.unmeasured : Ending → Ending
  | passed => passed
  | failed finding => failed finding.unmeasured
  | stopped finding => stopped finding.unmeasured
  | broken message => broken message

namespace Run

/-- The run with no number for the times that were measured. -/
def unmeasured (run : Run) : Run :=
  ⟨run.findings.map Finding.unmeasured, run.ending.unmeasured⟩

theorem unmeasured_cons (finding : Finding) (run : Run) :
    (run.cons finding).unmeasured = run.unmeasured.cons finding.unmeasured := rfl

/-- What a run comes to, up to what was measured, can be read off the run up to that. -/
theorem unmeasured_decision (run : Run) (evaluationId : String) (intent : Option TradeIntent)
    (total : Binary64) (now : Instant) :
    (run.decision evaluationId intent total now).unmeasured =
      run.unmeasured.decision evaluationId intent .nan now := by
  obtain ⟨findings, ending⟩ := run
  have hblock : ∀ finding : Finding,
      (Decision.block evaluationId intent finding (findings ++ [finding]) total now).unmeasured =
        .block evaluationId intent finding.unmeasured
          (findings.map Finding.unmeasured ++ [finding.unmeasured]) .nan now := by
    intro finding
    -- a block without a reason is no timeout, and neither is its finding
    have hdetails : finding.details.unmeasured (some (finding.reason.getD .guardInternalError)) =
        finding.details.unmeasured finding.reason := by
      cases finding.reason <;> rfl
    unfold Decision.unmeasured Decision.block
    simp only [List.map_append, List.map_singleton, hdetails]
    rfl
  cases ending with
  | passed => rfl
  | failed finding => exact hblock finding
  | stopped finding => exact hblock finding
  | broken message => rfl

end Run

/-- Answers that are the same up to a part are the same fault, or results that are the same up to it. -/
theorem error_or_ok_of_map_eq_map {ε α β : Type} {part : α → β} {answer other : Except ε α}
    (h : answer.map part = other.map part) :
    (∃ fault, answer = .error fault ∧ other = .error fault) ∨
      ∃ a b, answer = .ok a ∧ other = .ok b ∧ part a = part b := by
  cases answer with
  | error fault => cases other with
    | error fault' => exact .inl ⟨fault, rfl, by rw [Except.error.inj h]⟩
    | ok b => cases h
  | ok a => cases other with
    | error fault' => cases h
    | ok b => exact .inr ⟨a, b, rfl, rfl, Except.ok.inj h⟩

/-! ## Times on the same sides of the limits -/

/-- The readings of two stopwatches are over the same limits. -/
structure Stopwatch.SameSides (timing : TimingPolicy) (watch other : Stopwatch) : Prop where
  isOver_eq : ∀ k, timing.isOver (watch.before k) = timing.isOver (other.before k)
  isLate_eq : ∀ k, timing.isLate (watch.taken k) = timing.isLate (other.taken k)

section Run

variable {σ : Type} {timing : TimingPolicy} {watch other : Stopwatch} {s : Sections} {now : Instant}

/-- A run that is stopped tells no more than that it is. -/
theorem unmeasured_outOfTime (timing : TimingPolicy) (elapsed elapsed' : Binary64) (completed : Nat)
    (next : String) : (outOfTime timing elapsed completed next).unmeasured =
      (outOfTime timing elapsed' completed next).unmeasured := by
  simp [outOfTime, Finding.unmeasured, Details.unmeasured, Violation.toFinding, Finding.block,
    Violation.allDetails, Violation.detail, Violation.of, Details.set, Details.empty, Members.set]

theorem unmeasured_overran (info : ValidatorInfo) (timing : TimingPolicy) (taken taken' : Binary64) :
    ((Validator.overran info timing taken).toFinding info.name taken).unmeasured =
      ((Validator.overran info timing taken').toFinding info.name taken').unmeasured := by
  simp [Validator.overran, Finding.unmeasured, Details.unmeasured, Violation.toFinding,
    Finding.block, Violation.allDetails, Violation.detail, Violation.of, Details.set, Details.empty,
    Members.set]

/-- The same outcome is reported by the same finding, up to the time that it took. -/
theorem report_unmeasured (info : ValidatorInfo) {taken taken' : Binary64}
    (h : timing.isLate taken = timing.isLate taken') (outcome : Outcome) :
    (Validator.report info timing taken outcome).map Finding.unmeasured =
      (Validator.report info timing taken' outcome).map Finding.unmeasured := by
  cases hlate : timing.isLate taken' with
  | true =>
    rw [hlate] at h
    cases outcome with
    | broken message => rfl
    | passed details | failed violation =>
      rw [Validator.report_of_isLate info timing taken h (by simp),
        Validator.report_of_isLate info timing taken' hlate (by simp)]
      exact congrArg Except.ok (unmeasured_overran info timing taken taken')
  | false =>
    rw [hlate] at h
    cases outcome with
    | broken message => rfl
    | passed details =>
      rw [Validator.report_passed info timing taken h, Validator.report_passed info timing taken' hlate]
      rfl
    | failed violation =>
      rw [Validator.report_failed info timing taken h, Validator.report_failed info timing taken' hlate]
      rfl

/-- Runs from one state go alike, up to what was measured. -/
theorem runFrom_unmeasured (h : watch.SameSides timing other) (validators : List (Validator σ))
    (k : Nat) (state : σ) :
    (runFrom timing watch s now k validators state).1.unmeasured =
        (runFrom timing other s now k validators state).1.unmeasured ∧
      (runFrom timing watch s now k validators state).2 =
        (runFrom timing other s now k validators state).2 := by
  induction validators generalizing k state with
  | nil => exact ⟨rfl, rfl⟩
  | cons validator rest ih =>
    rw [runFrom, runFrom, h.isOver_eq k]
    split
    · refine ⟨?_, rfl⟩
      exact congrArg (fun finding => Run.mk [] (.stopped finding))
        (unmeasured_outOfTime timing _ _ k validator.info.name)
    · obtain ⟨outcome, next⟩ := validator.run s now state
      have hreport := report_unmeasured validator.info (h.isLate_eq k) outcome
      dsimp only
      rcases error_or_ok_of_map_eq_map hreport with
        ⟨message, hfinding, hfinding'⟩ | ⟨finding, finding', hfinding, hfinding', hsame⟩
      · rw [hfinding, hfinding']
        exact ⟨rfl, rfl⟩
      · have hvalid : finding.isValid = finding'.isValid := (congrArg Finding.isValid hsame :)
        rw [hfinding, hfinding']
        dsimp only
        rw [hvalid]
        split
        · obtain ⟨hrun, hstate⟩ := ih (k + 1) next
          refine ⟨?_, hstate⟩
          rw [Run.unmeasured_cons, Run.unmeasured_cons, hrun, hsame]
        · exact ⟨congrArg (fun finding => Run.mk [] (.failed finding)) hsame, rfl⟩

end Run

/-- From one state a gate comes to the same decision, up to what was measured, and leaves the same
state, if the times are on the same sides of its limits. -/
theorem Gate.unmeasured_evaluate {σ : Type} (gate : Gate σ) (snapshot : Snapshot) (now : Instant)
    {watch other : Stopwatch} (h : watch.SameSides gate.policy.timing other) (state : σ) :
    (gate.evaluate snapshot now watch state).1.decision.unmeasured =
        (gate.evaluate snapshot now other state).1.decision.unmeasured ∧
      (gate.evaluate snapshot now watch state).2 = (gate.evaluate snapshot now other state).2 := by
  have hrun : (gate.run snapshot now watch state).1.unmeasured =
        (gate.run snapshot now other state).1.unmeasured ∧
      (gate.run snapshot now watch state).2 = (gate.run snapshot now other state).2 := by
    unfold Gate.run
    cases snapshot.sections? with
    | none => exact ⟨rfl, rfl⟩
    | some s => exact runFrom_unmeasured h gate.validators 0 state
  refine ⟨?_, hrun.2⟩
  unfold Gate.evaluate
  dsimp only
  rw [Run.unmeasured_decision, Run.unmeasured_decision, hrun.1]

end TradeGate
