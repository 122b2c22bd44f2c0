import TradeGate.Proofs.Gate.Objection
import TradeGate.Proofs.Policy.Accepted
import TradeGate.Proofs.ReplayWindow.Basic

/-!
# The replay window of a gate

What every validator keeps is kept by a run, however it ends (`runFrom_invariant`). So the window of
a gate always suits the policy: it starts out so and every evaluation leaves it so.
-/

namespace TradeGate

/-- What every validator keeps is kept by a run. -/
theorem runFrom_invariant {σ : Type} {timing : TimingPolicy} {watch : Stopwatch} {s : Sections}
    {now : Instant} (holds : σ → Prop) {validators : List (Validator σ)}
    (hstep : ∀ validator ∈ validators, ∀ state, holds state → holds (validator.run s now state).2)
    (k : Nat) {state : σ} (h : holds state) :
    holds (runFrom timing watch s now k validators state).2 := by
  induction validators generalizing k state with
  | nil => exact h
  | cons validator rest ih =>
    obtain ⟨hfirst, hrest⟩ := List.forall_mem_cons.1 hstep
    have hnext := hfirst state h
    rw [runFrom]
    split
    · exact h
    · generalize validator.run s now state = result at hnext ⊢
      obtain ⟨outcome, next⟩ := result
      dsimp only
      split
      · exact hnext
      · split
        · exact ih hrest (k + 1) hnext
        · exact hnext

theorem Gate.evaluate_invariant {σ : Type} (gate : Gate σ) (holds : σ → Prop)
    (hstep : ∀ validator ∈ gate.validators, ∀ s now state,
      holds state → holds (validator.run s now state).2)
    (snapshot : Snapshot) (now : Instant) (watch : Stopwatch) {state : σ} (h : holds state) :
    holds (gate.evaluate snapshot now watch state).2 := by
  rw [evaluate_snd]
  cases hs : snapshot.sections? with
  | none =>
    rw [run_of_incomplete hs]
    exact h
  | some s =>
    rw [run_of_complete hs]
    exact runFrom_invariant holds (fun validator hmem => hstep validator hmem s now) 0 h

namespace ReplayWindow

/-- The window is one that the gate of a policy can have. -/
structure Suits (window : ReplayWindow) (policy : Policy) : Prop where
  consistent : window.Consistent
  span_eq : window.span = policy.systemIntegrity.duplicateSpan

variable {policy : Policy} {window : ReplayWindow}

theorem suits_window (h : policy.Accepted) : (Gate.window policy).Suits policy where
  consistent := consistent_ofSeconds _
  span_eq := by
    have hle := Policy.duplicateWindowSeconds_le h
    unfold Gate.window ofSeconds IntegrityPolicy.duplicateSpan
    dsimp only
    rw [Nat.min_eq_left (Nat.le_trans hle (by decide))]

theorem Suits.clear (h : window.Suits policy) : window.clear.Suits policy where
  consistent := consistent_clear window
  span_eq := h.span_eq

theorem Suits.register (h : window.Suits policy) (id : String) (now : Instant) :
    (window.register id now).2.Suits policy where
  consistent := h.consistent.register id now
  span_eq := by rw [register_span, h.span_eq]

/-- However an evaluation ends, the window behind it suits the policy. -/
theorem Suits.evaluate {gate : Gate ReplayWindow} (hgate : gate.validators = policy.validators)
    (snapshot : Snapshot) (now : Instant) (watch : Stopwatch) (h : window.Suits policy) :
    (gate.evaluate snapshot now watch window).2.Suits policy := by
  refine gate.evaluate_invariant (·.Suits policy) ?_ snapshot now watch h
  intro validator hmem s now window hwindow
  rw [hgate] at hmem
  simp only [Policy.validators, List.mem_cons, List.not_mem_nil, or_false] at hmem
  rcases hmem with rfl | rfl | rfl | rfl | rfl
  · exact hwindow
  · show (policy.systemIntegrity.check s now window).2.Suits policy
    rw [policy.integrity_check]
    exact hwindow.register _ _
  · exact hwindow
  · exact hwindow
  · exact hwindow

end ReplayWindow

end TradeGate
