import TradeGate.Proofs.Check.Preset
import TradeGate.Proofs.Gate.FailClosed
import TradeGate.Proofs.Gate.Untimed

/-!
# The ceiling on the time of an evaluation

The total time is looked at before each validator, and at no other place. `Gate.KeepsCeiling` says
what that comes to: an evaluation executes only if there was time left before the last validator,
and once the time is up before a validator the evaluation blocks, for that or for an earlier
failure. The time that passes in the last validator and after it is told in the decision and
changes nothing about it, so a gate can execute above the ceiling.
-/

namespace TradeGate

/-- The readings of the total time in a run of `count` validators. -/
def Stopwatch.readings (watch : Stopwatch) (count : Nat) : List Binary64 :=
  (List.range count).map watch.before ++ [watch.total]

/-- A run does not look at the total time at its end. -/
theorem runFrom_total {σ : Type} (timing : TimingPolicy) (watch : Stopwatch) (total : Binary64)
    (s : Sections) (now : Instant) (k : Nat) (validators : List (Validator σ)) (state : σ) :
    runFrom timing { watch with total } s now k validators state =
      runFrom timing watch s now k validators state := by
  induction validators generalizing k state with
  | nil => rfl
  | cons validator rest ih =>
    rw [runFrom, runFrom]
    simp only [ih]

/-- The time at the end stands in the decision and nowhere else. -/
theorem Run.decision_total (run : Run) (id : String) (intent : Option TradeIntent)
    (first total : Binary64) (now : Instant) :
    (run.decision id intent first now).evaluationTimeMs = first ∧
      run.decision id intent total now =
        { run.decision id intent first now with evaluationTimeMs := total } := by
  obtain ⟨findings, ending⟩ := run
  cases ending <;> exact ⟨rfl, rfl⟩

namespace Gate

variable {σ : Type} (gate : Gate σ) (snapshot : Snapshot) (now : Instant) (watch : Stopwatch)
  (state : σ)

/-- The decision was made before the `k`-th validator was started: the time was up, or something
failed earlier. -/
inductive EndsBy (k : Nat) (decision : Decision) : Prop
  | timeUp (passed : List Finding) (validator : Validator σ) (due : passed.length ≤ k)
      (next : gate.validators[passed.length]? = some validator)
      (exceeded : gate.policy.timing.isOver (watch.before passed.length) = true)
      (reason : decision.reason = some .timeout)
      (rests : decision.RestsOn passed (TradeGate.outOfTime gate.policy.timing
        (watch.before passed.length) passed.length validator.info.name))
  | incomplete (missing : snapshot.sections? = none)
      (rests : decision.RestsOn [] (inputIncomplete snapshot.missingSections))
  | failed (passed : List Finding) (decider : Finding) (last : σ) (earlier : passed.length < k)
      (rests : decision.RestsOn passed decider)
      (decides : gate.Decides snapshot now watch state passed decider last)
  | broken (place : Nat) (message : Option String) (earlier : place < k)
      (breaks : gate.BreaksAt snapshot now watch state place message)
      (reason : decision.reason = some .guardInternalError)

/-- What the ceiling on the total time comes to in the decision of an evaluation. -/
structure KeepsCeiling (decision : Decision) : Prop where
  /-- An evaluation executes only if there was time left before every validator, and with strict
  timing none took longer than it may. -/
  of_execute : decision.verdict = .execute → gate.InBudget watch
  /-- Once the time is up before a validator the evaluation blocks, and the validator is not
  started. -/
  of_isOver : ∀ k < gate.validators.length,
    gate.policy.timing.isOver (watch.before k) = true →
    decision.verdict = .block ∧ gate.EndsBy snapshot now watch state k decision
  /-- The time at the end is told and not looked at. -/
  total_told : decision.evaluationTimeMs = watch.total ∧ ∀ total,
    (gate.evaluate snapshot now { watch with total } state).1.decision =
      { decision with evaluationTimeMs := total }

variable {gate snapshot now watch state}

/-- A gate executes only within its time. -/
theorem inBudget_of_execute
    (h : (gate.evaluate snapshot now watch state).1.decision.verdict = .execute) :
    gate.InBudget watch := by
  cases hs : snapshot.sections? with
  | none =>
    rw [evaluate_of_run (run_of_incomplete hs)] at h
    exact nomatch h
  | some s =>
    rcases runFrom_cases gate.policy.timing watch s now 0 gate.validators state with
      ⟨findings, last, hpass⟩ |
      ⟨before, validator, after, findings, mid, ending, last, hsplit, hpass, hstop⟩
    · intro k hk
      have hin := hpass.inTime k hk
      rwa [Nat.zero_add] at hin
    · rw [Nat.zero_add] at hstop
      rw [evaluate_of_run (run_of_stops hs hsplit hpass hstop)] at h
      cases hstop <;> exact nomatch h

/-- Once the time is up before the `k`-th validator, the decision is made before it. -/
theorem endsBy_of_isOver {k : Nat} (hk : k < gate.validators.length)
    (hover : gate.policy.timing.isOver (watch.before k) = true) :
    (gate.evaluate snapshot now watch state).1.decision.verdict = .block ∧
      gate.EndsBy snapshot now watch state k (gate.evaluate snapshot now watch state).1.decision := by
  cases hs : snapshot.sections? with
  | none =>
    rw [evaluate_of_run (run_of_incomplete hs)]
    exact ⟨rfl, .incomplete hs
      (Decision.restsOn_block _ _ _ _ _ _ _ fun _ hmem => absurd hmem List.not_mem_nil)⟩
  | some s =>
    -- nothing behind the `k`-th validator is started, and that one is not either
    have hleft : ∀ {before : List (Validator σ)} {findings : List Finding} {mid : σ},
        Passes gate.policy.timing watch s now 0 before state findings mid → before.length ≤ k := by
      intro before findings mid hpass
      refine Nat.not_lt.1 fun hlt => ?_
      have htime := (hpass.inTime k hlt).1
      rw [Nat.zero_add, hover] at htime
      exact nomatch htime
    rcases runFrom_cases gate.policy.timing watch s now 0 gate.validators state with
      ⟨findings, last, hpass⟩ |
      ⟨before, validator, after, findings, mid, ending, last, hsplit, hpass, hstop⟩
    · exact absurd hk (Nat.not_lt.2 (hleft hpass))
    · rw [Nat.zero_add] at hstop
      have hdue := hleft hpass
      have hearlier : gate.policy.timing.isOver (watch.before findings.length) = false →
          findings.length < k := by
        intro hunder
        rw [← hpass.length_eq] at hdue
        refine Nat.lt_of_le_of_ne hdue fun hsame => ?_
        rw [hsame, hover] at hunder
        exact nomatch hunder
      rw [evaluate_of_run (run_of_stops hs hsplit hpass hstop)]
      rw [← hpass.length_eq] at hstop hdue
      cases hstop with
      | outOfTime timeUp =>
        exact ⟨rfl, .timeUp findings validator hdue (getElem?_of_split hsplit hpass) timeUp rfl
          (Decision.restsOn_block _ _ _ _ _ _ _ hpass.valid)⟩
      | failed inTotal ran reported invalid =>
        have hdecides := decides_of_failed hs hsplit hpass inTotal ran reported
        obtain ⟨violation, rfl⟩ := Validator.eq_toFinding_of_report _ _ _ reported invalid
        exact ⟨rfl, .failed findings _ last (hearlier inTotal)
          (Decision.restsOn_block _ _ _ _ _ _ _ hpass.valid) hdecides⟩
      | broken inTotal ran =>
        exact ⟨rfl, .broken findings.length _ (hearlier inTotal)
          (breaksAt_of_broken hs hsplit hpass inTotal ran) rfl⟩

theorem run_total (total : Binary64) :
    gate.run snapshot now { watch with total } state = gate.run snapshot now watch state := by
  unfold run
  simp only [runFrom_total]

/-- Every evaluation keeps the ceiling, in as far as it looks at the time. -/
theorem evaluate_keepsCeiling (gate : Gate σ) (snapshot : Snapshot) (now : Instant)
    (watch : Stopwatch) (state : σ) :
    gate.KeepsCeiling snapshot now watch state
      (gate.evaluate snapshot now watch state).1.decision where
  of_execute := inBudget_of_execute
  of_isOver _ hk hover := endsBy_of_isOver hk hover
  total_told := by
    rw [decision_evaluate]
    refine ⟨(Run.decision_total _ _ _ _ .nan now).1, fun total => ?_⟩
    rw [decision_evaluate, run_total]
    exact (Run.decision_total _ _ _ _ _ now).2

/-! ## A gate above its ceiling -/

/-- Sixty milliseconds for an evaluation, and five seconds for each validator. -/
def shortPolicy : Policy :=
  { Policy.standard with
    timing := { maxEvaluationTimeMs := 60, validatorTimeoutMs := 5000, strictTiming := true } }

/-- Two validators that pass whatever they see. -/
def passingGate : Gate Unit where
  policy := shortPolicy
  accepted := by decide +kernel
  validators := List.replicate 2 (.stateless ⟨"Waiting", .internalError, "Waits", false⟩
    fun _ _ => .passed .empty)

/-- If the first validator takes too long the second one is not started. If the second one does,
the gate executes above its ceiling. -/
theorem executes_above_ceiling :
    let early := Stopwatch.ofDurations [.ofNat 150, .ofNat 0]
    let late := Stopwatch.ofDurations [.ofNat 0, .ofNat 150]
    let decisionOf := fun watch =>
      (passingGate.evaluate (.calm "r-1" .epoch) .epoch watch ()).1.decision
    early.readings 2 = [.ofNat 0, .ofNat 150, .ofNat 150] ∧
      (decisionOf early).verdict = .block ∧ (decisionOf early).reason = some .timeout ∧
      late.readings 2 = [.ofNat 0, .ofNat 0, .ofNat 150] ∧
      (decisionOf late).verdict = .execute ∧
      shortPolicy.timing.isOver (decisionOf late).evaluationTimeMs = true := by
  decide +kernel

end Gate

end TradeGate
