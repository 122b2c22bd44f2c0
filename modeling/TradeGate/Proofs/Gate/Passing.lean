import TradeGate.Gate.Basic

/-!
# Validators that pass one after the other

`Passes` says that validators, taken from a place of the run on, pass in order and in time; it names
the findings they leave and the state behind them. A run first goes through the validators that
pass (`runFrom_append`), and either these are all of them or the next one stops it
(`runFrom_cases`, with `Stops` for the three ways in which it can).
-/

namespace TradeGate

/-- Under strict timing, a validator that took this long fails. -/
def TimingPolicy.isLate (timing : TimingPolicy) (taken : Binary64) : Bool :=
  timing.strictTiming && Binary64.lt (.ofNat timing.validatorTimeoutMs.toNat) taken

namespace Validator

variable (info : ValidatorInfo) (timing : TimingPolicy) (taken : Binary64)

theorem report_of_isLate (h : timing.isLate taken = true) {outcome : Outcome}
    (hout : ∀ message, outcome ≠ .broken message) :
    report info timing taken outcome =
      .ok ((overran info timing taken).toFinding info.name taken) := by
  unfold TimingPolicy.isLate at h
  cases outcome with
  | passed details => simp only [report, h, if_true]
  | failed violation => simp only [report, h, if_true]
  | broken message => exact absurd rfl (hout message)

theorem report_passed (h : timing.isLate taken = false) (details : Details) :
    report info timing taken (.passed details) = .ok (.pass info.name details taken) := by
  unfold TimingPolicy.isLate at h
  simp [report, h]

theorem report_failed (h : timing.isLate taken = false) (violation : Violation) :
    report info timing taken (.failed violation) =
      .ok (violation.toFinding info.name taken) := by
  unfold TimingPolicy.isLate at h
  simp [report, h]

/-- A finding is valid only if the validator passed in time. -/
theorem eq_pass_of_report {outcome : Outcome} {finding : Finding}
    (h : report info timing taken outcome = .ok finding) (hvalid : finding.isValid = true) :
    ∃ details, outcome = .passed details ∧ timing.isLate taken = false ∧
      finding = .pass info.name details taken := by
  cases outcome with
  | broken message => exact nomatch h
  | passed details =>
    cases hlate : timing.isLate taken with
    | false =>
      rw [report_passed info timing taken hlate] at h
      exact ⟨details, rfl, rfl, (Except.ok.inj h).symm⟩
    | true =>
      rw [report_of_isLate info timing taken hlate (by simp)] at h
      rw [← Except.ok.inj h] at hvalid
      exact nomatch hvalid
  | failed violation =>
    cases hlate : timing.isLate taken with
    | false =>
      rw [report_failed info timing taken hlate] at h
      rw [← Except.ok.inj h] at hvalid
      exact nomatch hvalid
    | true =>
      rw [report_of_isLate info timing taken hlate (by simp)] at h
      rw [← Except.ok.inj h] at hvalid
      exact nomatch hvalid

/-- A finding that is not valid comes from a violation: the one that the check reported, or that
the validator overran its time. -/
theorem eq_toFinding_of_report {outcome : Outcome} {finding : Finding}
    (h : report info timing taken outcome = .ok finding) (hvalid : finding.isValid = false) :
    ∃ violation : Violation, finding = violation.toFinding info.name taken := by
  cases hlate : timing.isLate taken with
  | true =>
    rw [report_of_isLate info timing taken hlate (fun message e => by subst e; exact nomatch h)] at h
    exact ⟨_, (Except.ok.inj h).symm⟩
  | false =>
    cases outcome with
    | broken message => exact nomatch h
    | passed details =>
      rw [report_passed info timing taken hlate] at h
      rw [← Except.ok.inj h] at hvalid
      exact nomatch hvalid
    | failed violation =>
      rw [report_failed info timing taken hlate] at h
      exact ⟨violation, (Except.ok.inj h).symm⟩

end Validator

section Loop

variable {σ : Type} {timing : TimingPolicy} {watch : Stopwatch} {s : Sections} {now : Instant}

/-- The validators, the first of them the `k`-th of the run, pass in order: the total time is not up
before any of them, and none is late. The findings and the state behind them go with it. -/
inductive Passes (timing : TimingPolicy) (watch : Stopwatch) (s : Sections) (now : Instant) :
    Nat → List (Validator σ) → σ → List Finding → σ → Prop
  | nil (k : Nat) (state : σ) : Passes timing watch s now k [] state [] state
  | cons {k : Nat} {validator : Validator σ} {rest : List (Validator σ)} {state next last : σ}
      {details : Details} {findings : List Finding}
      (inTotal : timing.isOver (watch.before k) = false)
      (passed : validator.run s now state = (.passed details, next))
      (inTime : timing.isLate (watch.taken k) = false)
      (others : Passes timing watch s now (k + 1) rest next findings last) :
      Passes timing watch s now k (validator :: rest) state
        (.pass validator.info.name details (watch.taken k) :: findings) last

/-- How the `k`-th validator of a run, reached in `state`, ends the run, and the state that it
leaves. -/
inductive Stops (timing : TimingPolicy) (watch : Stopwatch) (s : Sections) (now : Instant) (k : Nat)
    (validator : Validator σ) (state : σ) : Ending → σ → Prop
  | outOfTime (timeUp : timing.isOver (watch.before k) = true) :
      Stops timing watch s now k validator state
        (.stopped (outOfTime timing (watch.before k) k validator.info.name)) state
  | failed {outcome : Outcome} {next : σ} {finding : Finding}
      (inTotal : timing.isOver (watch.before k) = false)
      (ran : validator.run s now state = (outcome, next))
      (reported : Validator.report validator.info timing (watch.taken k) outcome = .ok finding)
      (invalid : finding.isValid = false) :
      Stops timing watch s now k validator state (.failed finding) next
  | broken {message : Option String} {next : σ}
      (inTotal : timing.isOver (watch.before k) = false)
      (ran : validator.run s now state = (.broken message, next)) :
      Stops timing watch s now k validator state (.broken message) next

namespace Passes

variable {k : Nat} {validators : List (Validator σ)} {state last : σ} {findings : List Finding}

/-- Validators that pass were all in time. -/
theorem inTime (h : Passes timing watch s now k validators state findings last) :
    ∀ i < validators.length, timing.isOver (watch.before (k + i)) = false ∧
      timing.isLate (watch.taken (k + i)) = false := by
  induction h with
  | nil => exact fun _ hi => absurd hi (Nat.not_lt_zero _)
  | @cons k _ _ _ _ _ _ _ inTotal _ inTime _ ih =>
    intro i hi
    cases i with
    | zero => exact ⟨inTotal, inTime⟩
    | succ i =>
      have hrest := ih i (Nat.lt_of_succ_lt_succ hi)
      rwa [Nat.add_assoc, Nat.add_comm 1] at hrest

theorem length_eq (h : Passes timing watch s now k validators state findings last) :
    findings.length = validators.length := by
  induction h with
  | nil => rfl
  | cons _ _ _ _ ih => rw [List.length_cons, List.length_cons, ih]

/-- There is one finding for each validator, under its name. -/
theorem names_eq (h : Passes timing watch s now k validators state findings last) :
    findings.map Finding.validatorName = validators.map (·.info.name) := by
  induction h with
  | nil => rfl
  | cons _ _ _ _ ih => rw [List.map_cons, List.map_cons, ih]; rfl

theorem valid (h : Passes timing watch s now k validators state findings last) :
    ∀ finding ∈ findings, finding.isValid = true := by
  induction h with
  | nil => exact fun _ hmem => absurd hmem List.not_mem_nil
  | cons _ _ _ _ ih =>
    intro finding hmem
    rcases List.mem_cons.1 hmem with rfl | hmem
    · rfl
    · exact ih finding hmem

/-- Every one of the validators has run, in order, and nothing else has. -/
theorem state_eq (h : Passes timing watch s now k validators state findings last) :
    last = validators.foldl (fun state validator => (validator.run s now state).2) state := by
  induction h with
  | nil => rfl
  | cons _ passed _ _ ih => rw [List.foldl_cons, passed]; exact ih

end Passes

/-- A run goes through the validators that pass and then on with those behind them. -/
theorem runFrom_append {k : Nat} {before : List (Validator σ)} {state mid : σ}
    {findings : List Finding} (h : Passes timing watch s now k before state findings mid)
    (after : List (Validator σ)) :
    runFrom timing watch s now k (before ++ after) state =
      let (run, last) := runFrom timing watch s now (k + before.length) after mid
      (⟨findings ++ run.findings, run.ending⟩, last) := by
  induction h with
  | nil => rfl
  | @cons k validator rest state next last details findings inTotal passed inTime _ ih =>
    rw [List.cons_append, runFrom, inTotal, passed]
    simp only [Bool.false_eq_true, if_false]
    rw [Validator.report_passed validator.info timing _ inTime]
    simp only [Finding.pass, if_true]
    rw [ih, List.length_cons, Nat.add_assoc, Nat.add_comm 1]
    rfl

theorem runFrom_of_passes {k : Nat} {validators : List (Validator σ)} {state last : σ}
    {findings : List Finding} (h : Passes timing watch s now k validators state findings last) :
    runFrom timing watch s now k validators state = (⟨findings, .passed⟩, last) := by
  have hrun := runFrom_append h []
  rw [List.append_nil, runFrom] at hrun
  simpa only [List.append_nil] using hrun

theorem runFrom_of_stops {k : Nat} {validator : Validator σ} {after : List (Validator σ)}
    {state last : σ} {ending : Ending} (h : Stops timing watch s now k validator state ending last) :
    runFrom timing watch s now k (validator :: after) state = (⟨[], ending⟩, last) := by
  cases h with
  | outOfTime timeUp => rw [runFrom, timeUp]; rfl
  | failed inTotal ran reported invalid =>
    rw [runFrom, inTotal, ran]
    simp only [Bool.false_eq_true, if_false, reported, invalid]
  | broken inTotal ran =>
    rw [runFrom, inTotal, ran]
    rfl

/-- Either all validators pass, or there is one that stops the run behind those that pass. -/
theorem runFrom_cases (timing : TimingPolicy) (watch : Stopwatch) (s : Sections) (now : Instant)
    (k : Nat) (validators : List (Validator σ)) (state : σ) :
    (∃ findings last, Passes timing watch s now k validators state findings last) ∨
    ∃ before validator after findings mid ending last,
      validators = before ++ validator :: after ∧
      Passes timing watch s now k before state findings mid ∧
      Stops timing watch s now (k + before.length) validator mid ending last := by
  induction validators generalizing k state with
  | nil => exact Or.inl ⟨[], state, .nil k state⟩
  | cons validator rest ih =>
    cases hover : timing.isOver (watch.before k) with
    | true => exact Or.inr ⟨[], validator, rest, [], state, _, _, rfl, .nil k state, .outOfTime hover⟩
    | false =>
      obtain ⟨outcome, next, hrun⟩ : ∃ outcome next, validator.run s now state = (outcome, next) :=
        ⟨_, _, rfl⟩
      cases hreport : Validator.report validator.info timing (watch.taken k) outcome with
      | error message =>
        obtain rfl : outcome = .broken message := by
          cases outcome with
          | broken m => exact congrArg Outcome.broken (Except.error.inj hreport)
          | passed details => exact nomatch hreport
          | failed violation => exact nomatch hreport
        exact Or.inr ⟨[], validator, rest, [], state, _, _, rfl, .nil k state, .broken hover hrun⟩
      | ok finding =>
        cases hvalid : finding.isValid with
        | false =>
          exact Or.inr ⟨[], validator, rest, [], state, _, _, rfl, .nil k state,
            .failed hover hrun hreport hvalid⟩
        | true =>
          obtain ⟨details, rfl, htime, rfl⟩ := Validator.eq_pass_of_report _ _ _ hreport hvalid
          rcases ih (k + 1) next with ⟨findings, last, h⟩ |
            ⟨before, stopper, after, findings, mid, ending, last, rfl, hpass, hstop⟩
          · exact Or.inl ⟨_, _, .cons hover hrun htime h⟩
          · refine Or.inr ⟨validator :: before, stopper, after, _, mid, ending, last, rfl,
              .cons hover hrun htime hpass, ?_⟩
            rwa [List.length_cons, Nat.add_comm before.length, ← Nat.add_assoc]

end Loop

theorem Run.heading_decision (run : Run) (id : String) (intent : Option TradeIntent)
    (total : Binary64) (now : Instant) :
    (run.decision id intent total now).evaluationId = id ∧
      (run.decision id intent total now).tradeIntent = intent ∧
      (run.decision id intent total now).timestamp = now := by
  obtain ⟨findings, ending⟩ := run
  cases ending <;> exact ⟨rfl, rfl, rfl⟩

namespace Gate

variable {σ : Type} {gate : Gate σ} {snapshot : Snapshot} {now : Instant} {watch : Stopwatch}
  {state : σ}

theorem run_of_complete {s : Sections} (hs : snapshot.sections? = some s) :
    gate.run snapshot now watch state =
      runFrom gate.policy.timing watch s now 0 gate.validators state := by
  unfold run
  rw [hs]

theorem run_of_incomplete (hs : snapshot.sections? = none) :
    gate.run snapshot now watch state =
      (⟨[], .stopped (inputIncomplete snapshot.missingSections)⟩, state) := by
  unfold run
  rw [hs]

theorem evaluate_of_run {run : Run} {last : σ}
    (h : gate.run snapshot now watch state = (run, last)) :
    gate.evaluate snapshot now watch state =
      (⟨run.decision (evaluationId now snapshot.requestId?) snapshot.tradeIntent watch.total now,
        run.measured⟩, last) := by
  unfold evaluate
  rw [h]

/-- Whatever a run comes to, the decision tells what it is about. -/
theorem heading_evaluate (gate : Gate σ) (snapshot : Snapshot) (now : Instant) (watch : Stopwatch)
    (state : σ) :
    let decision := (gate.evaluate snapshot now watch state).1.decision
    decision.evaluationId = evaluationId now snapshot.requestId? ∧
      decision.tradeIntent = snapshot.tradeIntent ∧ decision.timestamp = now := by
  exact Run.heading_decision ..

theorem evaluate_snd :
    (gate.evaluate snapshot now watch state).2 = (gate.run snapshot now watch state).2 := rfl

end Gate

end TradeGate
