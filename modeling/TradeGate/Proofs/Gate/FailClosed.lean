import TradeGate.Proofs.Gate.Passing

/-!
# The gate fails closed

An evaluation executes exactly if the snapshot is complete and every validator passes in time; all
else blocks, with a reason. `Gate.FailClosed` collects what a caller may rely on, for every list of
validators, whatever they do and keep.
-/

namespace TradeGate

/-! ## Shapes of decisions -/

namespace Decision

/-- A block, with its reason, severity, category and message. -/
structure IsExplainedBlock (decision : Decision) : Prop where
  verdict : decision.verdict = .block
  explained : ∃ reason severity message, decision.reason = some reason ∧
    decision.severity = some severity ∧ decision.category = some reason.category ∧
    decision.details.get? "message" = some (.str message)

/-- Of the findings all but the last are valid; the last one is not, and the decision is as it
says. -/
structure RestsOn (decision : Decision) (passed : List Finding) (decider : Finding) : Prop where
  findings : decision.findings = passed ++ [decider]
  valid : ∀ finding ∈ passed, finding.isValid = true
  invalid : decider.isValid = false
  reason : decision.reason = decider.reason
  severity : decision.severity = decider.severity
  details : decision.details = decider.details

variable (evaluationId : String) (intent : Option TradeIntent) (total : Binary64) (now : Instant)

theorem isExplainedBlock_block (violation : Violation) (name : String) (taken : Binary64)
    (findings : List Finding) :
    (block evaluationId intent (violation.toFinding name taken) findings total
      now).IsExplainedBlock where
  verdict := rfl
  explained := ⟨violation.reason, violation.severity, violation.message, rfl, rfl, rfl,
    Members.get?_set_self _ _ _⟩

theorem isExplainedBlock_internalError (errorType errorMessage : String) :
    (internalError evaluationId intent errorType errorMessage total now).IsExplainedBlock where
  verdict := rfl
  explained := ⟨_, _, _, rfl, rfl, rfl, rfl⟩

theorem restsOn_block (violation : Violation) (name : String) (taken : Binary64)
    {passed : List Finding} (hpassed : ∀ finding ∈ passed, finding.isValid = true) :
    (block evaluationId intent (violation.toFinding name taken)
      (passed ++ [violation.toFinding name taken]) total now).RestsOn passed
      (violation.toFinding name taken) where
  findings := rfl
  valid := hpassed
  invalid := rfl
  reason := rfl
  severity := rfl
  details := rfl

end Decision

/-! ## What an evaluation comes to -/

namespace Gate

variable {σ : Type} (gate : Gate σ) (snapshot : Snapshot) (now : Instant) (watch : Stopwatch)
  (state : σ)

/-- The state behind the first `count` validators, run one after the other and nothing else; an
incomplete snapshot runs none. -/
def stateAfter (count : Nat) : σ :=
  match snapshot.sections? with
  | none => state
  | some s =>
    (gate.validators.take count).foldl (fun state validator => (validator.run s now state).2) state

/-- The snapshot is complete, and every validator passes in order and in time. -/
def AllPass : Prop :=
  ∃ s findings last, snapshot.sections? = some s ∧
    Passes gate.policy.timing watch s now 0 gate.validators state findings last

/-- The `k`-th validator is run, after those before it have passed, and breaks down. -/
def BreaksAt (k : Nat) (message : Option String) : Prop :=
  ∃ s before validator after findings mid next, snapshot.sections? = some s ∧
    gate.validators = before ++ validator :: after ∧ before.length = k ∧
    Passes gate.policy.timing watch s now 0 before state findings mid ∧
    gate.policy.timing.isOver (watch.before k) = false ∧
    validator.run s now mid = (.broken message, next)

/-- A block rests on `decider` after the findings `passed`: sections are missing, or the validator
that comes next was not started because the total time was up, or it was the last one to run. -/
inductive Decides (passed : List Finding) (decider : Finding) (last : σ) : Prop
  | incomplete (missing : snapshot.sections? = none) (first : passed = [])
      (finding : decider = inputIncomplete snapshot.missingSections) (kept : last = state)
  | outOfTime (validator : Validator σ) (next : gate.validators[passed.length]? = some validator)
      (timeUp : gate.policy.timing.isOver (watch.before passed.length) = true)
      (finding : decider = TradeGate.outOfTime gate.policy.timing (watch.before passed.length)
        passed.length validator.info.name)
      (ran : last = gate.stateAfter snapshot now state passed.length)
  | failed (s : Sections) (validator : Validator σ) (outcome : Outcome)
      (complete : snapshot.sections? = some s)
      (next : gate.validators[passed.length]? = some validator)
      (inTotal : gate.policy.timing.isOver (watch.before passed.length) = false)
      (ran : validator.run s now (gate.stateAfter snapshot now state passed.length) =
        (outcome, last))
      (finding : Validator.report validator.info gate.policy.timing (watch.taken passed.length)
        outcome = .ok decider)

/-- What a caller may rely on in the decision of an evaluation and the state behind it. -/
structure FailClosed (decision : Decision) (last : σ) : Prop where
  execute_iff : decision.verdict = .execute ↔ gate.AllPass snapshot now watch state
  /-- One valid finding for each validator, in order, and nothing that belongs to a block. -/
  of_execute : decision.verdict = .execute →
    decision.findings.map Finding.validatorName = gate.validators.map (·.info.name) ∧
    (∀ finding ∈ decision.findings, finding.isValid = true) ∧
    decision.reason = none ∧ decision.severity = none ∧ decision.category = none ∧
    last = gate.stateAfter snapshot now state gate.validators.length
  of_not_execute : decision.verdict ≠ .execute → decision.IsExplainedBlock
  /-- Without a breakdown the last finding decides, and no validator runs after that. -/
  of_not_broken : decision.verdict ≠ .execute →
    (∀ k message, ¬ gate.BreaksAt snapshot now watch state k message) →
    ∃ passed decider, decision.RestsOn passed decider ∧
      passed.map Finding.validatorName =
        (gate.validators.take passed.length).map (·.info.name) ∧
      gate.Decides snapshot now watch state passed decider last
  /-- A breakdown blocks as an internal error, without findings, and no validator runs after it. -/
  of_broken : ∀ k message, gate.BreaksAt snapshot now watch state k message →
    decision = .internalError (evaluationId now snapshot.requestId?) snapshot.tradeIntent "panic"
      (Run.breakdownText message) watch.total now ∧
    last = gate.stateAfter snapshot now state (k + 1)

variable {gate snapshot now watch state}

theorem stateAfter_of_append {s : Sections} {before after : List (Validator σ)}
    (hs : snapshot.sections? = some s) (hsplit : gate.validators = before ++ after) :
    gate.stateAfter snapshot now state before.length =
      before.foldl (fun state validator => (validator.run s now state).2) state := by
  unfold stateAfter
  rw [hs, hsplit, List.take_left]

theorem run_of_allPass {s : Sections} {findings : List Finding} {last : σ}
    (hs : snapshot.sections? = some s)
    (h : Passes gate.policy.timing watch s now 0 gate.validators state findings last) :
    gate.run snapshot now watch state = (⟨findings, .passed⟩, last) := by
  rw [run_of_complete hs, runFrom_of_passes h]

theorem run_of_stops {s : Sections} {before after : List (Validator σ)} {validator : Validator σ}
    {findings : List Finding} {mid last : σ} {ending : Ending} (hs : snapshot.sections? = some s)
    (hsplit : gate.validators = before ++ validator :: after)
    (hpass : Passes gate.policy.timing watch s now 0 before state findings mid)
    (hstop : Stops gate.policy.timing watch s now before.length validator mid ending last) :
    gate.run snapshot now watch state = (⟨findings, ending⟩, last) := by
  rw [run_of_complete hs, hsplit, runFrom_append hpass, Nat.zero_add, runFrom_of_stops hstop]
  simp only [List.append_nil]

/-- A breakdown ends the run right behind the validator that broke down. -/
theorem run_of_breaksAt {k : Nat} {message : Option String}
    (h : gate.BreaksAt snapshot now watch state k message) :
    ∃ findings, gate.run snapshot now watch state =
      (⟨findings, .broken message⟩, gate.stateAfter snapshot now state (k + 1)) := by
  obtain ⟨s, before, validator, after, findings, mid, next, hs, hsplit, rfl, hpass, htotal, hran⟩ := h
  refine ⟨findings, ?_⟩
  rw [run_of_stops hs hsplit hpass (.broken htotal hran)]
  have hlength : before.length + 1 = (before ++ [validator]).length := by simp
  rw [hlength, stateAfter_of_append hs (by rw [hsplit, List.append_cons]), List.foldl_append,
    ← hpass.state_eq, List.foldl_cons, hran, List.foldl_nil]

theorem not_allPass_of_run {findings : List Finding} {ending : Ending} {last : σ}
    (h : gate.run snapshot now watch state = (⟨findings, ending⟩, last))
    (hending : ending ≠ .passed) : ¬ gate.AllPass snapshot now watch state := by
  rintro ⟨s, findings', last', hs, hpass⟩
  rw [run_of_allPass hs hpass] at h
  injection h with hrun _
  injection hrun with _ hpassed
  exact hending hpassed.symm

theorem not_breaksAt_of_run {findings : List Finding} {ending : Ending} {last : σ}
    (h : gate.run snapshot now watch state = (⟨findings, ending⟩, last))
    (hending : ∀ message, ending ≠ .broken message) (k : Nat) (message : Option String) :
    ¬ gate.BreaksAt snapshot now watch state k message := by
  intro hbreaks
  obtain ⟨findings', hrun⟩ := run_of_breaksAt hbreaks
  rw [h] at hrun
  injection hrun with hrun _
  injection hrun with _ hbroken
  exact hending message hbroken

/-- A run that a violation ended blocks, and the decision rests on the violation. -/
theorem failClosed_of_violation {passed : List Finding} {violation : Violation} {name : String}
    {taken : Binary64} {ending : Ending} {last : σ}
    (hrun : gate.run snapshot now watch state = (⟨passed, ending⟩, last))
    (hending : ending = .stopped (violation.toFinding name taken) ∨
      ending = .failed (violation.toFinding name taken))
    (hvalid : ∀ finding ∈ passed, finding.isValid = true)
    (hnames : passed.map Finding.validatorName =
      (gate.validators.take passed.length).map (·.info.name))
    (hdecides : gate.Decides snapshot now watch state passed (violation.toFinding name taken) last) :
    gate.FailClosed snapshot now watch state
      (Decision.block (TradeGate.evaluationId now snapshot.requestId?) snapshot.tradeIntent
        (violation.toFinding name taken) (passed ++ [violation.toFinding name taken]) watch.total now)
      last where
  execute_iff := by
    refine iff_of_false (fun h => nomatch h) (not_allPass_of_run hrun ?_)
    rcases hending with rfl | rfl <;> exact fun h => nomatch h
  of_execute := fun h => nomatch h
  of_not_execute := fun _ => Decision.isExplainedBlock_block _ _ _ _ violation name taken _
  of_not_broken := fun _ _ => ⟨passed, _, Decision.restsOn_block _ _ _ _ violation name taken hvalid,
    hnames, hdecides⟩
  of_broken := by
    intro k message hbreaks
    refine absurd hbreaks (not_breaksAt_of_run hrun ?_ k message)
    rcases hending with rfl | rfl <;> exact fun _ h => nomatch h

theorem failClosed_of_allPass {s : Sections} {findings : List Finding} {last : σ}
    (hs : snapshot.sections? = some s)
    (hpass : Passes gate.policy.timing watch s now 0 gate.validators state findings last) :
    gate.FailClosed snapshot now watch state
      (Decision.execute (evaluationId now snapshot.requestId?) snapshot.tradeIntent findings
        watch.total now) last where
  execute_iff := iff_of_true rfl ⟨s, findings, last, hs, hpass⟩
  of_execute := by
    intro _
    refine ⟨hpass.names_eq, hpass.valid, rfl, rfl, rfl, ?_⟩
    rw [stateAfter_of_append hs (List.append_nil _).symm]
    exact hpass.state_eq
  of_not_execute := fun h => absurd rfl h
  of_not_broken := fun h => absurd rfl h
  of_broken := fun k message hbreaks =>
    absurd hbreaks (not_breaksAt_of_run (run_of_allPass hs hpass) (fun _ h => nomatch h) k message)

theorem failClosed_of_breaksAt {k : Nat} {message : Option String}
    (hbreaks : gate.BreaksAt snapshot now watch state k message) :
    gate.FailClosed snapshot now watch state
      (Decision.internalError (evaluationId now snapshot.requestId?) snapshot.tradeIntent "panic"
        (Run.breakdownText message) watch.total now) (gate.stateAfter snapshot now state (k + 1)) := by
  obtain ⟨findings, hrun⟩ := run_of_breaksAt hbreaks
  refine ⟨iff_of_false (fun h => nomatch h) (not_allPass_of_run hrun (fun h => nomatch h)),
    (fun h => nomatch h), fun _ => Decision.isExplainedBlock_internalError _ _ _ _ _ _,
    fun _ h => absurd hbreaks (h k message), ?_⟩
  -- a second breakdown is the same one, since both end the one run
  intro k' message' hbreaks'
  obtain ⟨findings', hrun'⟩ := run_of_breaksAt hbreaks'
  rw [hrun] at hrun'
  injection hrun' with hrun' hlast
  injection hrun' with _ hending
  injection hending with hmessage
  rw [hmessage]
  exact ⟨rfl, hlast⟩

theorem failClosed_of_incomplete (hs : snapshot.sections? = none) :
    gate.FailClosed snapshot now watch state
      (gate.evaluate snapshot now watch state).1.decision
      (gate.evaluate snapshot now watch state).2 := by
  have hrun : gate.run snapshot now watch state = _ := run_of_incomplete hs
  rw [evaluate_of_run hrun]
  exact failClosed_of_violation hrun (Or.inl rfl) (fun _ h => absurd h List.not_mem_nil) rfl
    (.incomplete hs rfl rfl rfl)

section Stops

variable {s : Sections} {before after : List (Validator σ)} {validator : Validator σ}
  {findings : List Finding} {mid : σ}

/-- The validator behind those that pass has their number. -/
theorem getElem?_of_split (hsplit : gate.validators = before ++ validator :: after)
    (hpass : Passes gate.policy.timing watch s now 0 before state findings mid) :
    gate.validators[findings.length]? = some validator := by
  rw [hpass.length_eq, hsplit, List.getElem?_append_right (Nat.le_refl _), Nat.sub_self]
  rfl

/-- The state behind the validators that pass is the one that they leave. -/
theorem eq_stateAfter_of_split (hs : snapshot.sections? = some s)
    (hsplit : gate.validators = before ++ validator :: after)
    (hpass : Passes gate.policy.timing watch s now 0 before state findings mid) :
    mid = gate.stateAfter snapshot now state findings.length := by
  rw [hpass.length_eq, stateAfter_of_append hs hsplit]
  exact hpass.state_eq

/-- A validator that fails behind those that pass decides. -/
theorem decides_of_failed {outcome : Outcome} {next : σ} {decider : Finding}
    (hs : snapshot.sections? = some s) (hsplit : gate.validators = before ++ validator :: after)
    (hpass : Passes gate.policy.timing watch s now 0 before state findings mid)
    (inTotal : gate.policy.timing.isOver (watch.before findings.length) = false)
    (ran : validator.run s now mid = (outcome, next))
    (reported : Validator.report validator.info gate.policy.timing (watch.taken findings.length)
      outcome = .ok decider) :
    gate.Decides snapshot now watch state findings decider next := by
  rw [eq_stateAfter_of_split hs hsplit hpass] at ran
  exact .failed s validator _ hs (getElem?_of_split hsplit hpass) inTotal ran reported

/-- A validator that breaks down behind those that pass. -/
theorem breaksAt_of_broken {message : Option String} {next : σ}
    (hs : snapshot.sections? = some s) (hsplit : gate.validators = before ++ validator :: after)
    (hpass : Passes gate.policy.timing watch s now 0 before state findings mid)
    (inTotal : gate.policy.timing.isOver (watch.before findings.length) = false)
    (ran : validator.run s now mid = (.broken message, next)) :
    gate.BreaksAt snapshot now watch state findings.length message :=
  ⟨s, before, validator, after, findings, mid, next, hs, hsplit, hpass.length_eq.symm, hpass,
    inTotal, ran⟩

/-- Behind validators that pass, one that stops the run decides. -/
theorem failClosed_of_stops {last : σ} {ending : Ending} (hs : snapshot.sections? = some s)
    (hsplit : gate.validators = before ++ validator :: after)
    (hpass : Passes gate.policy.timing watch s now 0 before state findings mid)
    (hstop : Stops gate.policy.timing watch s now before.length validator mid ending last) :
    gate.FailClosed snapshot now watch state
      (gate.evaluate snapshot now watch state).1.decision
      (gate.evaluate snapshot now watch state).2 := by
  have hrun := run_of_stops hs hsplit hpass hstop
  rw [evaluate_of_run hrun]
  have hnames : findings.map Finding.validatorName =
      (gate.validators.take findings.length).map (·.info.name) := by
    rw [hpass.length_eq, hsplit, List.take_left, hpass.names_eq]
  rw [← hpass.length_eq] at hstop
  cases hstop with
  | outOfTime timeUp =>
    exact failClosed_of_violation hrun (Or.inl rfl) hpass.valid hnames
      (.outOfTime validator (getElem?_of_split hsplit hpass) timeUp rfl
        (eq_stateAfter_of_split hs hsplit hpass))
  | failed inTotal ran reported invalid =>
    obtain ⟨violation, rfl⟩ := Validator.eq_toFinding_of_report _ _ _ reported invalid
    exact failClosed_of_violation hrun (Or.inr rfl) hpass.valid hnames
      (decides_of_failed hs hsplit hpass inTotal ran reported)
  | broken inTotal ran =>
    have hbreaks := breaksAt_of_broken hs hsplit hpass inTotal ran
    obtain ⟨findings', hrun'⟩ := run_of_breaksAt hbreaks
    rw [hrun] at hrun'
    injection hrun' with _ hlast
    rw [hlast]
    exact failClosed_of_breaksAt hbreaks

end Stops

/-- An evaluation executes exactly if the snapshot is complete and every validator passes in time;
all else blocks with a reason, and what decided comes last. -/
theorem evaluate_failClosed (gate : Gate σ) (snapshot : Snapshot) (now : Instant)
    (watch : Stopwatch) (state : σ) :
    gate.FailClosed snapshot now watch state
      (gate.evaluate snapshot now watch state).1.decision
      (gate.evaluate snapshot now watch state).2 := by
  cases hs : snapshot.sections? with
  | none => exact failClosed_of_incomplete hs
  | some s =>
    rcases runFrom_cases gate.policy.timing watch s now 0 gate.validators state with
      ⟨findings, last, hpass⟩ |
      ⟨before, validator, after, findings, mid, ending, last, hsplit, hpass, hstop⟩
    · rw [evaluate_of_run (run_of_allPass hs hpass)]
      exact failClosed_of_allPass hs hpass
    · rw [Nat.zero_add] at hstop
      exact failClosed_of_stops hs hsplit hpass hstop

end Gate

end TradeGate
