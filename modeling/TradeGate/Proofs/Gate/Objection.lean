import TradeGate.Proofs.Check.Table
import TradeGate.Proofs.Gate.Passing

/-!
# What the validators of a policy object to

Within its time a run of validators is settled by what their checks object to: it goes on over lists
without an objection and ends at the first one that has any (`Judged`, `runFrom_of_judged`). For the
validators of a policy all these objections are one list, and the replay window behind the run is
known from it (`Policy.judged`); so is what the gate answers (`Gate.evaluate_of_complete`).
-/

namespace TradeGate

/-- No reading of the first `count` validators is over the limits. -/
def Stopwatch.InBudget (watch : Stopwatch) (timing : TimingPolicy) (count : Nat) : Prop :=
  ∀ k < count, timing.isOver (watch.before k) = false ∧ timing.isLate (watch.taken k) = false

/-- The run ended at what was found, or well if nothing was. -/
def Run.EndsBy (run : Run) : Option Violation → Prop
  | none => run.ending = .passed
  | some violation => ∃ name taken, run.ending = .failed (violation.toFinding name taken)

/-- The decision is to execute if nothing was found, and to block for what was. -/
def Decision.Reports (decision : Decision) : Option Violation → Prop
  | none => decision.verdict = .execute
  | some violation => decision.verdict = .block ∧ decision.reason = some violation.reason ∧
      decision.severity = some violation.severity

theorem Decision.Reports.verdict_eq_execute_iff {decision : Decision} {found : Option Violation}
    (h : decision.Reports found) : decision.verdict = .execute ↔ found = none := by
  cases found with
  | none => exact iff_of_true h rfl
  | some violation =>
    refine iff_of_false (fun hexecute => ?_) (fun h => nomatch h)
    rw [h.1] at hexecute
    exact nomatch hexecute

theorem Run.EndsBy.reports {run : Run} {found : Option Violation} (h : run.EndsBy found)
    (evaluationId : String) (intent : Option TradeIntent) (total : Binary64) (now : Instant) :
    (run.decision evaluationId intent total now).Reports found := by
  unfold Run.decision
  cases found with
  | none =>
    have hpassed : run.ending = .passed := h
    rw [hpassed]
    rfl
  | some violation =>
    obtain ⟨name, taken, hfailed⟩ := h
    rw [hfailed]
    exact ⟨rfl, rfl, rfl⟩

theorem firstViolation?_cons_none (objections : List (Option Violation)) :
    firstViolation? (none :: objections) = firstViolation? objections := by
  unfold firstViolation?
  exact List.findSome?_cons_of_isNone rfl

theorem firstViolation?_cons_some (violation : Violation) (objections : List (Option Violation)) :
    firstViolation? (some violation :: objections) = some violation := by
  unfold firstViolation?
  exact List.findSome?_cons_of_isSome rfl

theorem firstViolation?_append (objections others : List (Option Violation)) :
    firstViolation? (objections ++ others) =
      (firstViolation? objections).or (firstViolation? others) := by
  unfold firstViolation?
  exact List.findSome?_append

theorem judge_of_none {objections : List (Option Violation)} {details : Details}
    (h : firstViolation? objections = none) : judge objections details = .ok details := by
  unfold judge
  rw [h]

theorem judge_of_some {objections : List (Option Violation)} {details : Details}
    {violation : Violation} (h : firstViolation? objections = some violation) :
    judge objections details = .error violation := by
  unfold judge
  rw [h]

theorem judge_cons_none (objections : List (Option Violation)) (details : Details) :
    judge (none :: objections) details = judge objections details := rfl

theorem judge_cons_some (violation : Violation) (objections : List (Option Violation))
    (details : Details) : judge (some violation :: objections) details = .error violation := rfl

section Loop

variable {σ : Type} {s : Sections} {now : Instant}

/-- Validators judge one after the other by lists of objections, which are put together, until one
finds something; with it goes the state behind that one, or behind all. -/
inductive Judged (s : Sections) (now : Instant) :
    List (Validator σ) → σ → List (Option Violation) → σ → Prop
  | nil (state : σ) : Judged s now [] state [] state
  | silent {validator : Validator σ} {rest : List (Validator σ)} {state next last : σ}
      {objections others : List (Option Violation)} {details : Details}
      (ran : validator.run s now state = (.ofCheck (judge objections details), next))
      (found : firstViolation? objections = none) (behind : Judged s now rest next others last) :
      Judged s now (validator :: rest) state (objections ++ others) last
  | objecting {validator : Validator σ} {rest : List (Validator σ)} {state next : σ}
      {objections others : List (Option Violation)} {details : Details} {violation : Violation}
      (ran : validator.run s now state = (.ofCheck (judge objections details), next))
      (found : firstViolation? objections = some violation) :
      Judged s now (validator :: rest) state (objections ++ others) next

/-- Before validators that keep the state it does not matter whether something is found. -/
theorem Judged.step {validator : Validator σ} {rest : List (Validator σ)} {state next : σ}
    {objections others : List (Option Violation)} {details : Details}
    (ran : validator.run s now state = (.ofCheck (judge objections details), next))
    (behind : Judged s now rest next others next) :
    Judged s now (validator :: rest) state (objections ++ others) next := by
  cases hfound : firstViolation? objections with
  | none => exact .silent ran hfound behind
  | some violation => exact .objecting ran hfound

/-- Within its time a run ends by the first objection. -/
theorem runFrom_of_judged {timing : TimingPolicy} {watch : Stopwatch} {count : Nat}
    (hbudget : watch.InBudget timing count) {validators : List (Validator σ)} {state last : σ}
    {objections : List (Option Violation)} (h : Judged s now validators state objections last)
    (k : Nat) (hcount : k + validators.length ≤ count) :
    (runFrom timing watch s now k validators state).1.EndsBy (firstViolation? objections) ∧
      (runFrom timing watch s now k validators state).2 = last := by
  induction h generalizing k with
  | nil => exact ⟨rfl, rfl⟩
  | @silent validator rest state next last objections others details ran found _ ih =>
    rw [List.length_cons] at hcount
    obtain ⟨htotal, htime⟩ := hbudget k (by omega)
    rw [judge_of_none found] at ran
    have hpass : Passes timing watch s now k [validator] state _ next :=
      .cons htotal ran htime (.nil _ _)
    rw [← List.singleton_append, runFrom_append hpass, firstViolation?_append, found, Option.none_or]
    obtain ⟨hend, hlast⟩ := ih (k + 1) (by omega)
    refine ⟨?_, hlast⟩
    cases hothers : firstViolation? others with
    | none => rw [hothers] at hend; exact hend
    | some violation => rw [hothers] at hend; exact hend
  | @objecting validator rest state next objections others details violation ran found =>
    rw [List.length_cons] at hcount
    obtain ⟨htotal, htime⟩ := hbudget k (by omega)
    rw [judge_of_some found] at ran
    have hstop : Stops timing watch s now k validator state _ next :=
      .failed htotal ran (Validator.report_failed _ _ _ htime violation) rfl
    rw [runFrom_of_stops hstop, firstViolation?_append, found]
    exact ⟨⟨_, _, rfl⟩, rfl⟩

end Loop

/-! ## The validators of a policy -/

namespace Policy

variable (policy : Policy) (window : ReplayWindow) (s : Sections) (now : Instant)

/-- What the check for replays objects to. -/
def replayObjection : Option Violation :=
  (window.register s.intent.requestId now).1.map (policy.systemIntegrity.replayed s.intent)

/-- What the checks of all families object to, in order. -/
def objections : List (Option Violation) :=
  [policy.rules.violations s now,
    policy.replayObjection window s now :: policy.systemIntegrity.violations s now,
    policy.executionSafety.violations s, policy.stateConsistency.violations s now,
    policy.environmental.violations s].flatten

/-- What the checks object to apart from that for replays, in order. -/
def standingObjections : List (Option Violation) :=
  [policy.rules.violations s now, policy.systemIntegrity.violations s now,
    policy.executionSafety.violations s, policy.stateConsistency.violations s now,
    policy.environmental.violations s].flatten

/-- The window behind an evaluation: the request is registered unless a rule objects. -/
def windowAfter : ReplayWindow :=
  match firstViolation? (policy.rules.violations s now) with
  | none => (window.register s.intent.requestId now).2
  | some _ => window

variable {window s now}

theorem replayObjection_of_none (h : (window.register s.intent.requestId now).1 = none) :
    policy.replayObjection window s now = none := by
  unfold replayObjection
  rw [h, Option.map_none]

theorem replayObjection_of_some {seen : Instant}
    (h : (window.register s.intent.requestId now).1 = some seen) :
    policy.replayObjection window s now =
      some (policy.systemIntegrity.replayed s.intent seen) := by
  unfold replayObjection
  rw [h, Option.map_some]

/-- A request that is not a replay is judged by the other checks. -/
theorem firstViolation?_objections_of_none
    (h : (window.register s.intent.requestId now).1 = none) :
    firstViolation? (policy.objections window s now) =
      firstViolation? (policy.standingObjections s now) := by
  unfold objections standingObjections
  rw [policy.replayObjection_of_none h]
  simp only [List.flatten_cons, List.cons_append, firstViolation?_append, firstViolation?_cons_none]

/-- A replay is found unless a rule objects. -/
theorem firstViolation?_objections_of_some {seen : Instant}
    (h : (window.register s.intent.requestId now).1 = some seen) :
    firstViolation? (policy.objections window s now) =
      (firstViolation? (policy.rules.violations s now)).or
        (some (policy.systemIntegrity.replayed s.intent seen)) := by
  unfold objections
  rw [policy.replayObjection_of_some h, List.flatten_cons, firstViolation?_append,
    List.flatten_cons, List.cons_append, firstViolation?_cons_some]

theorem firstViolation?_objections_eq_none_iff :
    firstViolation? (policy.objections window s now) = none ↔
      (window.register s.intent.requestId now).1 = none ∧
        firstViolation? (policy.standingObjections s now) = none := by
  cases h : (window.register s.intent.requestId now).1 with
  | none =>
    rw [policy.firstViolation?_objections_of_none h]
    exact (and_iff_right rfl).symm
  | some seen =>
    rw [policy.firstViolation?_objections_of_some h, Option.or_eq_none_iff]
    exact iff_of_false (fun h => nomatch h.2) (fun h => nomatch h.1)

variable (window s now)

/-- The check of system integrity judges by one list, that for replays at its head. -/
theorem integrity_check :
    policy.systemIntegrity.check s now window =
      (judge (policy.replayObjection window s now :: policy.systemIntegrity.violations s now)
        (IntegrityPolicy.passDetails s now), (window.register s.intent.requestId now).2) := by
  unfold IntegrityPolicy.check replayObjection
  obtain ⟨seen, next⟩ := window.register s.intent.requestId now
  cases seen with
  | none => rw [Option.map_none, judge_cons_none]
  | some firstSeen => rw [Option.map_some, judge_cons_some]

theorem judged :
    Judged s now policy.validators window (policy.objections window s now)
      (policy.windowAfter window s now) := by
  have hintegrity : policy.systemIntegrity.validator.run s now window =
      (.ofCheck (judge (policy.replayObjection window s now ::
        policy.systemIntegrity.violations s now) (IntegrityPolicy.passDetails s now)),
        (window.register s.intent.requestId now).2) := by
    have hrun : policy.systemIntegrity.validator.run s now window =
        (.ofCheck (policy.systemIntegrity.check s now window).1,
          (policy.systemIntegrity.check s now window).2) := rfl
    rw [hrun, integrity_check]
  unfold windowAfter
  cases hfound : firstViolation? (policy.rules.violations s now) with
  | none =>
    exact .silent rfl hfound (.step hintegrity (.step rfl (.step rfl (.step rfl (.nil _)))))
  | some violation => exact .objecting rfl hfound

end Policy

/-! ## The gate of a policy -/

namespace Gate

/-- No validator of the gate overruns its time, nor do they together. -/
def InBudget {σ : Type} (gate : Gate σ) (watch : Stopwatch) : Prop :=
  watch.InBudget gate.policy.timing gate.validators.length

theorem inBudget_still {σ : Type} (gate : Gate σ) : gate.InBudget .still := by
  intro k _
  unfold Stopwatch.still TimingPolicy.isOver TimingPolicy.isLate
  dsimp only
  rw [Binary64.lt_ofNat_zero, Binary64.lt_ofNat_zero, Bool.and_false]
  exact ⟨rfl, rfl⟩

variable {policy : Policy} {gate : Gate ReplayWindow} {snapshot : Snapshot} {watch : Stopwatch}
  (now : Instant) (window : ReplayWindow)

theorem ofPolicy_eq_ok (h : policy.Accepted) :
    ofPolicy policy = .ok ⟨policy, h, policy.validators⟩ :=
  dif_pos h

theorem eq_of_ofPolicy (h : ofPolicy policy = .ok gate) :
    gate.policy = policy ∧ gate.validators = policy.validators := by
  unfold ofPolicy withValidators at h
  split at h
  · rw [← Except.ok.inj h]
    exact ⟨rfl, rfl⟩
  · exact nomatch h

/-- Within its time the gate answers a complete snapshot by the first objection. -/
theorem evaluate_of_complete (hgate : ofPolicy policy = .ok gate) (hbudget : gate.InBudget watch)
    {s : Sections} (hs : snapshot.sections? = some s) :
    (gate.evaluate snapshot now watch window).1.decision.Reports
        (firstViolation? (policy.objections window s now)) ∧
      (gate.evaluate snapshot now watch window).2 = policy.windowAfter window s now := by
  obtain ⟨hpolicy, hvalidators⟩ := eq_of_ofPolicy hgate
  unfold InBudget at hbudget
  have hcount : 0 + policy.validators.length ≤ gate.validators.length := by
    rw [hvalidators]
    omega
  obtain ⟨hend, hlast⟩ := runFrom_of_judged hbudget (policy.judged window s now) 0 hcount
  rw [← hvalidators, ← run_of_complete hs] at hend hlast
  rw [evaluate_of_run rfl]
  exact ⟨hend.reports _ _ _ _, hlast⟩

/-- A snapshot that lacks sections is blocked for that and leaves the window as it was. -/
theorem evaluate_of_incomplete (hs : snapshot.sections? = none) :
    gate.evaluate snapshot now watch window =
      (⟨.block (evaluationId now snapshot.requestId?) snapshot.tradeIntent
        (inputIncomplete snapshot.missingSections) [inputIncomplete snapshot.missingSections]
        watch.total now, []⟩, window) := by
  rw [evaluate_of_run (run_of_incomplete hs)]
  rfl

end Gate

end TradeGate
