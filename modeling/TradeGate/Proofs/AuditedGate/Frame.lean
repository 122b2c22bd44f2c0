import TradeGate.AuditedGate

/-!
# The gate inside an audited gate

What stands around a gate has no say in what it decides: an answer is the decision of the gate, and
the state is the one that the gate leaves. The repository has the decision as its latest, also where
no answer is given (`AuditedGate.frames_evaluateAt`).
-/

namespace TradeGate

namespace Repository

variable (repository : Repository) (decision : Decision) (alert : AlertRecord) (now : Instant)

theorem decisions_logDecision : (repository.logDecision decision now).2.view.decisions =
    decision :: repository.view.decisions := by
  cases repository <;> rfl

theorem decisions_countDecision :
    (repository.countDecision decision).view.decisions = repository.view.decisions := by
  cases repository <;> rfl

theorem decisions_logAlert :
    (repository.logAlert alert now).2.view.decisions = repository.view.decisions := by
  cases repository <;> rfl

end Repository

namespace AuditedGate

variable {σ : Type} (audited : AuditedGate σ) (decision : Decision) (outcome : AlertOutcome)
  (id : RecordId) (now : Instant)

/-- The decisions that the repository has, the latest first. -/
def kept : Option (List Decision) :=
  audited.repository.map fun repository => repository.view.decisions

@[simp] theorem state_persist : (audited.persist decision now).state = audited.state := by
  unfold persist
  split <;> rfl

@[simp] theorem state_keepAlert : (audited.keepAlert outcome id now).state = audited.state := by
  unfold keepAlert
  split <;> rfl

theorem kept_persist :
    (audited.persist decision now).kept = audited.kept.map (decision :: ·) := by
  unfold persist kept
  cases hrepository : audited.repository with
  | none =>
    dsimp only
    rw [hrepository]
    rfl
  | some repository =>
    refine congrArg some ((Repository.decisions_countDecision ..).trans ?_)
    exact repository.decisions_logDecision decision now

theorem kept_keepAlert : (audited.keepAlert outcome id now).kept = audited.kept := by
  unfold keepAlert
  split
  · rename_i repository record hrepository hrecord
    unfold kept
    rw [hrepository]
    exact congrArg some (repository.decisions_logAlert record now)
  · rfl

/-- What an alert leaves as it was. -/
theorem frame_alert :
    (audited.alert decision id now).2.gate = audited.gate ∧
      (audited.alert decision id now).2.state = audited.state ∧
      (audited.alert decision id now).2.kept = audited.kept := by
  unfold alert
  cases audited.notifier with
  | none => exact ⟨rfl, rfl, rfl⟩
  | some notifier =>
    dsimp only
    split
    · exact ⟨rfl, rfl, rfl⟩
    · exact ⟨gate_keepAlert .., state_keepAlert .., kept_keepAlert ..⟩

/-- An evaluation of an audited gate seen from the gate inside it, which comes to this evaluation and
this state: it goes on as it was, what is answered is its decision, and that is kept as the latest,
answered or not. -/
structure Frames (audited : AuditedGate σ) (inner : Evaluation × σ)
    (result : Except SpanFault Answer × AuditedGate σ) : Prop where
  gate_eq : result.2.gate = audited.gate
  state_eq : result.2.state = inner.2
  kept_eq : result.2.kept = audited.kept.map (inner.1.decision :: ·)
  decision_eq : ∀ answer, result.1 = .ok answer → answer.decision = inner.1.decision

theorem frames_evaluateAt (size : σ → Nat) (snapshot : Snapshot) (later : Instant)
    (watch : Stopwatch) :
    Frames audited (audited.gate.evaluate snapshot now watch audited.state)
      (audited.evaluateAt size snapshot now later watch id) := by
  unfold evaluateAt decide
  generalize audited.gate.evaluate snapshot now watch audited.state = inner
  obtain ⟨evaluation, next⟩ := inner
  dsimp only
  split
  · obtain ⟨hgate, hstate, hkept⟩ := frame_alert (persist _ evaluation.decision later)
      evaluation.decision id later
    refine ⟨hgate.trans (gate_persist ..), hstate.trans (state_persist ..),
      hkept.trans (kept_persist ..), fun answer hanswer => ?_⟩
    cases houtcome : (alert (persist _ evaluation.decision later) evaluation.decision id later).1 with
    | error fault =>
      rw [houtcome] at hanswer
      exact nomatch hanswer
    | ok outcome =>
      rw [houtcome] at hanswer
      rw [← Except.ok.inj hanswer]
  · refine ⟨gate_persist .., state_persist .., kept_persist .., fun answer hanswer => ?_⟩
    rw [← Except.ok.inj hanswer]

end AuditedGate

end TradeGate
