import TradeGate.Proofs.Check.Retold
import TradeGate.Proofs.Gate.Ceiling
import TradeGate.Proofs.Gate.Specification
import TradeGate.Proofs.Gate.Unmeasured

/-!
# The gate on what is told of a snapshot

A gate executes only within its time (`Gate.inBudget_of_execute`), so what it executes is known whatever
its time (`Gate.execute_iff`). A snapshot that it blocks it may execute as it is told: that is so
exactly if nothing but lost metrics stands against the trade (`Gate.OnlyLost`,
`Gate.execute_retold_iff`).
-/

namespace TradeGate

theorem Verdict.ne_execute_iff {verdict : Verdict} : verdict ≠ .execute ↔ verdict = .block := by
  cases verdict <;> decide

theorem Stopwatch.SameSides.symm {timing : TimingPolicy} {watch other : Stopwatch}
    (h : watch.SameSides timing other) : other.SameSides timing watch :=
  ⟨fun k => (h.isOver_eq k).symm, fun k => (h.isLate_eq k).symm⟩

/-- Times on the same sides of the limits are within them together. -/
theorem Stopwatch.SameSides.inBudget_iff {timing : TimingPolicy} {watch other : Stopwatch}
    (h : watch.SameSides timing other) (count : Nat) :
    watch.InBudget timing count ↔ other.InBudget timing count := by
  unfold Stopwatch.InBudget
  refine forall₂_congr fun k _ => ?_
  rw [h.isOver_eq, h.isLate_eq]

namespace Gate

variable {policy : Policy} {gate : Gate ReplayWindow} {snapshot : Snapshot} {now : Instant}
  {watch other : Stopwatch} {window : ReplayWindow}

/-- The gate of a policy executes exactly if it is within its time, the snapshot is complete, its
request is not a replay, and no other condition holds. -/
theorem execute_iff (hgate : ofPolicy policy = .ok gate) :
    (gate.evaluate snapshot now watch window).1.decision.verdict = .execute ↔
      gate.InBudget watch ∧ ∃ s, snapshot.sections? = some s ∧
        (window.register s.intent.requestId now).1 = none ∧
        ∀ condition ∈ policy.standing s now, ¬ condition.holds := by
  constructor
  · intro h
    have hbudget := inBudget_of_execute h
    exact ⟨hbudget, (verdict_eq_execute_iff hgate hbudget).1 h⟩
  · rintro ⟨hbudget, h⟩
    exact (verdict_eq_execute_iff hgate hbudget).2 h

/-- Within the time of the gate nothing stands against the trade but metrics that are lost: the
snapshot is complete, its request is not a replay, and no other condition holds of what is told. -/
def OnlyLost (gate : Gate ReplayWindow) (tell : Binary64 → Option Binary64) (snapshot : Snapshot)
    (now : Instant) (watch : Stopwatch) (window : ReplayWindow) : Prop :=
  gate.InBudget watch ∧ ∃ s, snapshot.sections? = some s ∧
    (window.register s.intent.requestId now).1 = none ∧ gate.policy.Loses tell s ∧
    ∀ condition ∈ gate.policy.standing (s.retold tell) now, ¬ condition.holds

/-- A gate blocks a snapshot and executes it as it is told exactly if nothing but lost metrics stands
against the trade. -/
theorem execute_retold_iff (hgate : ofPolicy gate.policy = .ok gate)
    (hsides : watch.SameSides gate.policy.timing other) {tell : Binary64 → Option Binary64} :
    (gate.evaluate snapshot now watch window).1.decision.verdict = .block ∧
        (gate.evaluate (snapshot.retold tell) now other window).1.decision.verdict = .execute ↔
      gate.OnlyLost tell snapshot now watch window := by
  have hbudget : gate.InBudget watch ↔ gate.InBudget other := hsides.inBudget_iff _
  unfold OnlyLost
  rw [← Verdict.ne_execute_iff, Ne, execute_iff hgate, execute_iff hgate, hbudget,
    Snapshot.sections?_retold]
  constructor
  · rintro ⟨hblock, hin, told, htold, hnew, hnone⟩
    obtain ⟨s, hs, rfl⟩ := Option.map_eq_some_iff.1 htold
    refine ⟨hin, s, hs, hnew, Classical.not_not.1 fun hkept => hblock ?_, hnone⟩
    exact ⟨hin, s, hs, hnew, (Policy.forall_not_holds_iff hnone).2 hkept⟩
  · rintro ⟨hin, s, hs, hnew, hlost, hnone⟩
    refine ⟨?_, hin, s.retold tell, by rw [hs, Option.map_some], hnew, hnone⟩
    rintro ⟨-, other, hother, -, hall⟩
    obtain rfl := Option.some.inj (hs.symm.trans hother)
    exact (Policy.forall_not_holds_iff hnone).1 hall hlost

end Gate

end TradeGate
