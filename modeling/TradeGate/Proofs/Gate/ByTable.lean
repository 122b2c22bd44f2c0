import TradeGate.Proofs.Gate.Replay

/-!
# The gate decides by the table

Within its time the gate executes nothing that a condition of the table holds of, with every window
that it can have. It follows the table in full unless the request finds an admission of its id that
the window holds although it is older than the span (`Policy.FindsOld`,
`Gate.evaluate_followsTable`). Calls on an orderly clock leave no such admission; on a clock that is
set back there can be one, and then the gate blocks where the table asks for nothing
(`Gate.not_followsTable_setBackCalls`).
-/

namespace TradeGate

open Instant (Orderly noon hourPastNoon longPastNoon)

/-- The snapshot is complete, no rule objects to it, and the window holds an admission of its id that
is older than the span. -/
def Policy.FindsOld (policy : Policy) (snapshot : Snapshot) (now : Instant) (window : ReplayWindow) :
    Prop :=
  ∃ s, snapshot.sections? = some s ∧
    (∀ condition ∈ policy.rules.conditions s now, ¬ condition.holds) ∧
    window.HoldsOld s.intent.requestId now

namespace Gate

variable {policy : Policy} {gate : Gate ReplayWindow} {snapshot : Snapshot} {now : Instant}
  {watch : Stopwatch} {window : ReplayWindow}

/-- What the gate executes, no condition of the table holds of. -/
theorem not_holds_of_execute (hgate : ofPolicy policy = .ok gate) (hbudget : gate.InBudget watch)
    (hwindow : window.Suits policy)
    (h : (gate.evaluate snapshot now watch window).1.decision.verdict = .execute) :
    ∃ s, snapshot.sections? = some s ∧
      ∀ condition ∈ policy.conditions s now window, ¬ condition.holds := by
  obtain ⟨s, hs, hnew, hstanding⟩ := (verdict_eq_execute_iff hgate hbudget).1 h
  refine ⟨s, hs, fun condition hmem => ?_⟩
  rcases (Policy.mem_conditions_iff _ _ _ _ _).1 hmem with rfl | hmem
  · -- an admission within the span would be held, and the id would be refused
    rintro ⟨seen, hadmitted, hin⟩
    rw [← hwindow.span_eq] at hin
    have hheld := ReplayWindow.mem_held hadmitted hin
    exact nomatch hnew.symm.trans
      ((ReplayWindow.register_fst_eq_some_iff hwindow.consistent).2 hheld)
  · exact hstanding condition hmem

theorem followsTable_of_not_findsOld (hgate : ofPolicy policy = .ok gate)
    (hbudget : gate.InBudget watch) (hwindow : window.Suits policy)
    (hold : ¬ policy.FindsOld snapshot now window) :
    (gate.evaluate snapshot now watch window).1.decision.FollowsTable snapshot
      fun s => policy.conditions s now window := by
  cases hs : snapshot.sections? with
  | none => exact followsTable_of_incomplete _ hs
  | some s =>
    have hreplay : (∃ condition ∈ policy.rules.conditions s now, condition.holds) ∨
        ¬ window.HoldsOld s.intent.requestId now := by
      by_contra hneither
      push Not at hneither
      exact hold ⟨s, hs, hneither⟩
    obtain ⟨objections, hanswers, hfirst⟩ :=
      policy.exists_answers_conditions s now hwindow hreplay
    obtain ⟨hreports, -⟩ := evaluate_of_complete now window hgate hbudget hs
    rw [← hfirst] at hreports
    exact followsTable_of_complete hs hreports hanswers

/-- Calls on an orderly clock leave no admission behind that is older than the span. -/
theorem not_findsOld_of_orderly (hgate : ofPolicy policy = .ok gate) {calls : List Call}
    (hcalls : ∀ call ∈ calls, gate.InBudget call.watch)
    (horder : Orderly policy.systemIntegrity.duplicateSpan (calls.map Call.now ++ [now])) :
    ¬ policy.FindsOld snapshot now (gate.windowAfter calls) := by
  rintro ⟨s, -, -, hold⟩
  obtain ⟨recorded, htracks, -⟩ := exists_records hgate hcalls
  have hspan := (suits_windowAfter hgate calls).span_eq
  rw [(eq_of_ofPolicy hgate).1] at hspan
  rw [← hspan] at horder
  exact htracks.not_holdsOld horder _ hold

/-- Within its time the gate of a policy executes only what the table leaves to be executed, with
every window that it can have. It decides by the table unless the request finds an admission of its
id that is older than the span, and so it always does behind calls on an orderly clock, such as one
that does not go back and does not read inside a leap second. -/
theorem evaluate_followsTable (hgate : ofPolicy policy = .ok gate) (hbudget : gate.InBudget watch)
    (hwindow : window.Suits policy) (snapshot : Snapshot) (now : Instant) :
    ((gate.evaluate snapshot now watch window).1.decision.verdict = .execute →
      ∃ s, snapshot.sections? = some s ∧
        ∀ condition ∈ policy.conditions s now window, ¬ condition.holds) ∧
    (¬ policy.FindsOld snapshot now window →
      (gate.evaluate snapshot now watch window).1.decision.FollowsTable snapshot
        fun s => policy.conditions s now window) ∧
    (∀ calls, window = gate.windowAfter calls → (∀ call ∈ calls, gate.InBudget call.watch) →
      Orderly policy.systemIntegrity.duplicateSpan (calls.map Call.now ++ [now]) →
      (gate.evaluate snapshot now watch window).1.decision.FollowsTable snapshot
        fun s => policy.conditions s now window) := by
  refine ⟨not_holds_of_execute hgate hbudget hwindow,
    followsTable_of_not_findsOld hgate hbudget hwindow, ?_⟩
  rintro calls rfl hcalls horder
  exact followsTable_of_not_findsOld hgate hbudget hwindow
    (not_findsOld_of_orderly hgate hcalls horder)

/-- The strict gate executes a calm snapshot at its start. -/
theorem evaluate_calm_execute :
    ∃ gate, ofPolicy .strict = .ok gate ∧ gate.InBudget .still ∧
      (Gate.window .strict).Suits .strict ∧
      ¬ Policy.strict.FindsOld (.calm "r-1" .epoch) .epoch (Gate.window .strict) ∧
      (gate.evaluate (.calm "r-1" .epoch) .epoch .still
        (Gate.window .strict)).1.decision.verdict = .execute := by
  have haccepted : Policy.strict.Accepted := by decide +kernel
  have hgate := ofPolicy_eq_ok haccepted
  have hwindow := ReplayWindow.suits_window haccepted
  have hold : ¬ Policy.strict.FindsOld (.calm "r-1" .epoch) .epoch (Gate.window .strict) :=
    fun ⟨_, _, _, _, hheld, _⟩ => absurd hheld List.not_mem_nil
  have hfollows := (evaluate_followsTable hgate (inBudget_still _) hwindow (.calm "r-1" .epoch)
    .epoch).2.1 hold
  refine ⟨_, hgate, inBudget_still _, hwindow, hold, hfollows.execute_iff.2 ?_⟩
  refine ⟨.calm "r-1" .epoch, Snapshot.sections?_calm _ _, fun condition hmem => ?_⟩
  rcases (Policy.mem_conditions_iff _ _ _ _ _).1 hmem with rfl | hstanding
  · exact fun ⟨_, h, _⟩ => absurd h List.not_mem_nil
  · exact Policy.strict_calm _ _ condition hstanding

/-! ## A clock that is set back -/

/-- A call ahead of the time, and one for another id when the clock has been set back. -/
def setBackCalls : List Call := [calmCall "r-2" hourPastNoon, calmCall "r-1" noon]

section SetBack

variable {gate : Gate ReplayWindow} (hgate : ofPolicy .standard = .ok gate)

include hgate

theorem queue_setBackCalls :
    (gate.windowAfter setBackCalls).queue = [("r-2", hourPastNoon), ("r-1", noon)] := by
  have hfirst : (gate.windowAfter [calmCall "r-2" hourPastNoon]).queue = [("r-2", hourPastNoon)] :=
    (executes_calmCall hgate [] "r-2" hourPastNoon List.not_mem_nil).2
  obtain ⟨-, hqueue⟩ := executes_calmCall hgate [calmCall "r-2" hourPastNoon] "r-1" noon
    (by rw [hfirst]; decide)
  refine hqueue.trans ?_
  unfold ReplayWindow.held
  rw [hfirst, span_windowAfter_standard hgate]
  decide

/-- The entry at the front is a second old, and nothing behind it is forgotten. -/
theorem refuses_setBackCalls : gate.Refuses setBackCalls (calmCall "r-1" longPastNoon) := by
  have hconsistent := (suits_windowAfter hgate setBackCalls).consistent
  have hheld : (gate.windowAfter setBackCalls).held longPastNoon =
      [("r-2", hourPastNoon), ("r-1", noon)] := by
    unfold ReplayWindow.held
    rw [queue_setBackCalls hgate, span_windowAfter_standard hgate]
    decide
  have hseen : ((gate.windowAfter setBackCalls).register "r-1" longPastNoon).1 = some noon := by
    rw [ReplayWindow.register_fst_eq_some_iff hconsistent, hheld]
    decide
  refine (refuses_iff_of_letsIn hgate (inBudget_calmCall _ _ _) (letsIn_calmCall hgate _ _)).2 ?_
  exact Option.isSome_iff_exists.2 ⟨noon, hseen⟩

/-- The admission of the id is older than the span. -/
theorem not_holds_setBackCalls : ∀ condition ∈ Policy.standard.conditions
    (.calm "r-1" longPastNoon) longPastNoon (gate.windowAfter setBackCalls),
    ¬ condition.holds := by
  intro condition hmem
  rcases (Policy.mem_conditions_iff _ _ _ _ _).1 hmem with rfl | hstanding
  · rintro ⟨seen, hadmitted, hin⟩
    have hadmitted : ("r-1", seen) ∈ (gate.windowAfter setBackCalls).queue := hadmitted
    rw [queue_setBackCalls hgate] at hadmitted
    obtain rfl : seen = noon := by simpa using hadmitted
    exact absurd hin (by decide)
  · exact Policy.standard_calm _ _ condition hstanding

end SetBack

/-- The call ahead of the time keeps the other one in the window. More than an hour later a third call
for that id is blocked as a replay, although no condition of the table holds. -/
theorem not_followsTable_setBackCalls :
    ∃ gate, ofPolicy .standard = .ok gate ∧ gate.InBudget .still ∧
      (gate.windowAfter setBackCalls).Suits .standard ∧
      gate.Refuses setBackCalls (calmCall "r-1" longPastNoon) ∧
      ¬ (gate.evaluate (.calm "r-1" longPastNoon) longPastNoon .still
          (gate.windowAfter setBackCalls)).1.decision.FollowsTable (.calm "r-1" longPastNoon)
        fun s => Policy.standard.conditions s longPastNoon (gate.windowAfter setBackCalls) := by
  obtain ⟨gate, hgate⟩ := exists_ofPolicy_standard
  have hsuits := suits_windowAfter hgate setBackCalls
  rw [(eq_of_ofPolicy hgate).1] at hsuits
  have hrefuses := refuses_setBackCalls hgate
  refine ⟨gate, hgate, inBudget_still _, hsuits, hrefuses, fun hfollows => ?_⟩
  have hexecute := hfollows.execute_iff.2
    ⟨_, Snapshot.sections?_calm "r-1" longPastNoon, not_holds_setBackCalls hgate⟩
  have hexecutes : gate.Executes setBackCalls (calmCall "r-1" longPastNoon) :=
    (executes_iff gate setBackCalls (calmCall "r-1" longPastNoon)).2 hexecute
  exact hexecutes.not_refuses hrefuses

end Gate

end TradeGate
