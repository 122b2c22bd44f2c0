import TradeGate.Proofs.Check.Preset
import TradeGate.Proofs.Gate.Specification

/-!
# Looser policies execute more

What a gate executes, the gate of a looser policy executes as well, at the same instant and with the
same replay window. The presets are such policies.
-/

namespace TradeGate

/-- Whatever the gate of the tighter policy executes within its time, that of the looser one does
within its own. -/
def Policy.ExecutesAll (looser tighter : Policy) : Prop :=
  ∀ looserGate tighterGate, Gate.ofPolicy looser = .ok looserGate →
    Gate.ofPolicy tighter = .ok tighterGate →
    ∀ (snapshot : Snapshot) (now : Instant) (looserWatch tighterWatch : Stopwatch)
      (window : ReplayWindow),
      looserGate.InBudget looserWatch → tighterGate.InBudget tighterWatch →
      (tighterGate.evaluate snapshot now tighterWatch window).1.decision.verdict = .execute →
      (looserGate.evaluate snapshot now looserWatch window).1.decision.verdict = .execute

theorem Policy.Relaxes.executesAll {looser tighter : Policy} (h : looser.Relaxes tighter) :
    looser.ExecutesAll tighter := by
  intro looserGate tighterGate hlooser htighter snapshot now looserWatch tighterWatch window
    hlooserBudget htighterBudget hexecute
  rw [Gate.verdict_eq_execute_iff htighter htighterBudget] at hexecute
  obtain ⟨s, hs, hnew, hnone⟩ := hexecute
  rw [Gate.verdict_eq_execute_iff hlooser hlooserBudget]
  exact ⟨s, hs, hnew, not_holds_of_implies (Policy.implies_of_relaxes s now h) hnone⟩

/-- A looser policy executes all that a tighter one does, and the presets are ordered so. -/
theorem executesAll_of_relaxes :
    (∀ looser tighter : Policy, looser.Relaxes tighter → looser.ExecutesAll tighter) ∧
      Policy.standard.ExecutesAll .strict ∧ Policy.testing.ExecutesAll .standard :=
  ⟨fun _ _ h => h.executesAll, Policy.standard_relaxes_strict.executesAll,
    Policy.testing_relaxes_standard.executesAll⟩

/-- The standard gate executes a calm snapshot, since the strict one does. -/
theorem standard_execute_of_strict :
    ∃ strictGate standardGate : Gate ReplayWindow,
      Gate.ofPolicy .strict = .ok strictGate ∧ Gate.ofPolicy .standard = .ok standardGate ∧
      (strictGate.evaluate (.calm "r-1" .epoch) .epoch .still
        (Gate.window .strict)).1.decision.verdict = .execute ∧
      (standardGate.evaluate (.calm "r-1" .epoch) .epoch .still
        (Gate.window .strict)).1.decision.verdict = .execute := by
  have hstrict : Gate.ofPolicy .strict = _ := Gate.ofPolicy_eq_ok (by decide +kernel)
  have hstandard : Gate.ofPolicy .standard = _ := Gate.ofPolicy_eq_ok (by decide +kernel)
  have hnew : ((Gate.window .strict).register "r-1" .epoch).1 = none :=
    ReplayWindow.register_fst_eq_none (ReplayWindow.consistent_ofSeconds _) List.not_mem_nil
  have hexecute := (Gate.verdict_eq_execute_iff hstrict (Gate.inBudget_still _)).2
    ⟨.calm "r-1" .epoch, Snapshot.sections?_calm _ _, hnew, Policy.strict_calm _ _⟩
  refine ⟨_, _, hstrict, hstandard, hexecute, ?_⟩
  exact executesAll_of_relaxes.1 _ _ Policy.standard_relaxes_strict _ _ hstandard hstrict _ _ _ _ _
    (Gate.inBudget_still _) (Gate.inBudget_still _) hexecute

end TradeGate
