import Mathlib.Data.List.Forall2
import Mathlib.Data.List.Induction
import TradeGate.Series

/-!
# Histories of a stateful step

A step takes an input and a state, answers, and leaves a state behind. `History.answered` is what
it answers to inputs one after the other, and `History.stateBehind` is the state behind them. What
is proved of a history is proved for one more input at its end. A run that a fault ends is the history
of the inputs up to there (`History.untilFault_eq_ok_iff`, `History.exists_untilFault_eq_ok_iff`).
-/

namespace TradeGate

namespace History

variable {ι ο σ : Type} (step : ι → σ → ο × σ)

/-- The state behind inputs. -/
def stateBehind (state : σ) (inputs : List ι) : σ :=
  inputs.foldl (fun state input => (step input state).2) state

/-- The inputs that are given from a state on, each with the answer to it. -/
def answered : σ → List ι → List (ι × ο)
  | _, [] => []
  | state, input :: rest => (input, (step input state).1) :: answered (step input state).2 rest

theorem stateBehind_append_singleton (state : σ) (inputs : List ι) (input : ι) :
    stateBehind step state (inputs ++ [input]) =
      (step input (stateBehind step state inputs)).2 := by
  unfold stateBehind
  rw [List.foldl_append, List.foldl_cons, List.foldl_nil]

theorem answered_append (state : σ) (inputs others : List ι) :
    answered step state (inputs ++ others) =
      answered step state inputs ++ answered step (stateBehind step state inputs) others := by
  induction inputs generalizing state with
  | nil => rfl
  | cons first rest ih => exact congrArg (List.cons _) (ih _)

theorem answered_append_singleton (state : σ) (inputs : List ι) (input : ι) :
    answered step state (inputs ++ [input]) =
      answered step state inputs ++ [(input, (step input (stateBehind step state inputs)).1)] :=
  answered_append step state inputs [input]

/-- What every step keeps holds behind all inputs. -/
theorem stateBehind_invariant {P : σ → Prop} {state : σ} (h : P state)
    (hstep : ∀ input state, P state → P (step input state).2) (inputs : List ι) :
    P (stateBehind step state inputs) := by
  induction inputs using List.reverseRecOn with
  | nil => exact h
  | append_singleton inputs input ih =>
    rw [stateBehind_append_singleton]
    exact hstep input _ ih

/-- What every step answers from a state that every step keeps holds of all answers. -/
theorem forall_mem_answered {P : σ → Prop} {Q : ι × ο → Prop} {state : σ} (h : P state)
    (hstep : ∀ input state, P state → Q (input, (step input state).1) ∧ P (step input state).2)
    (inputs : List ι) : ∀ entry ∈ answered step state inputs, Q entry := by
  induction inputs generalizing state with
  | nil => exact fun _ hentry => nomatch hentry
  | cons first rest ih =>
    obtain ⟨hfirst, hrest⟩ := hstep first state h
    exact List.forall_mem_cons.2 ⟨hfirst, ih hrest⟩

theorem map_fst_answered (state : σ) (inputs : List ι) :
    (answered step state inputs).map Prod.fst = inputs := by
  induction inputs generalizing state with
  | nil => rfl
  | cons first rest ih => exact congrArg (List.cons first) (ih _)

theorem map_snd_answered_map {κ : Type} (f : κ → ι) (state : σ) (inputs : List κ) :
    (answered step state (inputs.map f)).map Prod.snd =
      (answered (fun input => step (f input)) state inputs).map Prod.snd := by
  induction inputs generalizing state with
  | nil => rfl
  | cons first rest ih => exact congrArg (List.cons _) (ih _)

/-- What every step answers holds of the inputs with the answers to them. -/
theorem forall₂_answered {Q : ι → ο → Prop} (h : ∀ input state, Q input (step input state).1)
    (state : σ) (inputs : List ι) :
    List.Forall₂ Q inputs ((answered step state inputs).map Prod.snd) := by
  induction inputs generalizing state with
  | nil => exact .nil
  | cons first rest ih => exact .cons (h first state) (ih _)

/-- Inputs that leave the state as it is can be left out: the others are answered as before. -/
theorem answered_filter {keep : ι → Bool}
    (h : ∀ input, keep input = false → ∀ state, (step input state).2 = state) (state : σ)
    (inputs : List ι) :
    answered step state (inputs.filter keep) =
      (answered step state inputs).filter fun entry => keep entry.1 := by
  induction inputs generalizing state with
  | nil => rfl
  | cons first rest ih =>
    have hcons : answered step state (first :: rest) =
      (first, (step first state).1) :: answered step (step first state).2 rest := rfl
    rw [hcons, List.filter_cons, List.filter_cons]
    cases hkeep : keep first with
    | true => exact congrArg (List.cons _) (ih _)
    | false =>
      rw [h first hkeep]
      exact ih state

/-- Inputs that no step tells apart, up to a part of its answer, are answered alike up to it. -/
theorem map_answered_of_forall₂ {τ : Type} {part : ο → τ} {R : ι → ι → Prop}
    (h : ∀ input other, R input other → ∀ state,
      part (step input state).1 = part (step other state).1 ∧
        (step input state).2 = (step other state).2)
    {inputs others : List ι} (hinputs : List.Forall₂ R inputs others) (state : σ) :
    (answered step state inputs).map (fun entry => part entry.2) =
      (answered step state others).map fun entry => part entry.2 := by
  induction hinputs generalizing state with
  | nil => rfl
  | cons hfirst _ ih =>
    obtain ⟨hpart, hnext⟩ := h _ _ hfirst state
    rw [answered, answered, List.map_cons, List.map_cons, hpart, hnext, ih]

/-! ## Runs that a fault ends -/

section UntilFault

variable {ε : Type} (step : ι → σ → Except ε ο × σ)

theorem untilFault_cons_of_ok {input : ι} {state : σ} {answer : ο}
    (h : (step input state).1 = .ok answer) (rest : List ι) :
    untilFault step (input :: rest) state =
      ((untilFault step rest (step input state).2).1.map (answer :: ·),
        (untilFault step rest (step input state).2).2) := by
  rw [untilFault]
  generalize step input state = result at h
  obtain ⟨_, next⟩ := result
  obtain rfl : _ = Except.ok answer := h
  rfl

/-- Behind a fault no input is taken. -/
theorem untilFault_cons_of_error {input : ι} {state : σ} {fault : ε}
    (h : (step input state).1 = .error fault) (rest : List ι) :
    untilFault step (input :: rest) state = (.error fault, (step input state).2) := by
  rw [untilFault]
  generalize step input state = result at h
  obtain ⟨_, next⟩ := result
  obtain rfl : _ = Except.error fault := h
  rfl

/-- A run is answered exactly if no input is answered by a fault, and then by the answers to all. -/
theorem untilFault_eq_ok_iff {state last : σ} {inputs : List ι} {answers : List ο} :
    untilFault step inputs state = (.ok answers, last) ↔
      (answered step state inputs).map Prod.snd = answers.map .ok ∧
        stateBehind step state inputs = last := by
  induction inputs generalizing state answers with
  | nil => cases answers <;> simp [untilFault, answered, stateBehind]
  | cons input rest ih =>
    have hbehind : stateBehind step state (input :: rest) =
      stateBehind step (step input state).2 rest := rfl
    rw [answered, List.map_cons, hbehind]
    cases hanswer : (step input state).1 with
    | error fault =>
      rw [untilFault_cons_of_error step hanswer]
      cases answers <;> simp
    | ok answer =>
      rw [untilFault_cons_of_ok step hanswer]
      generalize (step input state).2 = next at ih ⊢
      cases answers with
      | nil => cases (untilFault step rest next).1 <;> simp [Except.map]
      | cons first others =>
        have hrest := @ih next others
        generalize untilFault step rest next = result at hrest ⊢
        obtain ⟨got, left⟩ := result
        rw [List.map_cons, List.cons.injEq, and_assoc, ← hrest]
        cases got with
        | error fault => simp [Except.map]
        | ok got => simp [Except.map, and_assoc]

/-- What holds of every item of a list behind those before it holds of the first one, and of the
others behind it too. -/
theorem forall_split_cons_iff {α : Type} {P : List α → α → Prop} {first : α} {rest : List α} :
    (∀ before item after, first :: rest = before ++ item :: after → P before item) ↔
      P [] first ∧
        ∀ before item after, rest = before ++ item :: after → P (first :: before) item := by
  constructor
  · intro h
    refine ⟨h [] first rest rfl, fun before item after hsplit => ?_⟩
    exact h (first :: before) item after (congrArg (List.cons first) hsplit)
  · rintro ⟨hfirst, hrest⟩ before item after hsplit
    cases before with
    | nil =>
      obtain ⟨rfl, -⟩ := List.cons.inj hsplit
      exact hfirst
    | cons head before =>
      obtain ⟨rfl, htail⟩ := List.cons.inj hsplit
      exact hrest before item after htail

/-- A run is answered exactly if every input is, behind those before it. -/
theorem exists_untilFault_eq_ok_iff {state : σ} {inputs : List ι} :
    (∃ answers, (untilFault step inputs state).1 = .ok answers) ↔
      ∀ before input after, inputs = before ++ input :: after →
        ∃ answer, (step input (stateBehind step state before)).1 = .ok answer := by
  induction inputs generalizing state with
  | nil => exact iff_of_true ⟨[], rfl⟩ (by simp)
  | cons first rest ih =>
    rw [forall_split_cons_iff]
    cases hanswer : (step first state).1 with
    | error fault =>
      rw [untilFault_cons_of_error step hanswer]
      refine iff_of_false (fun ⟨_, h⟩ => nomatch h) fun ⟨⟨answer, h⟩, _⟩ => ?_
      exact nomatch hanswer.symm.trans h
    | ok answer =>
      rw [untilFault_cons_of_ok step hanswer]
      refine Iff.trans ?_ (ih.trans (and_iff_right ⟨answer, hanswer⟩).symm)
      cases (untilFault step rest (step first state).2).1 <;> simp [Except.map]

end UntilFault

theorem filterMap_singleton {α β : Type} (f : α → Option β) (a : α) :
    [a].filterMap f = (f a).toList := by
  rw [List.filterMap_cons]
  cases f a <;> rfl

/-- Where a list ends with an item, a split of it is at that item or within those before. -/
theorem append_singleton_eq_append_cons_iff {α : Type} {items before after : List α} {last item : α} :
    items ++ [last] = before ++ item :: after ↔
      (items = before ∧ last = item ∧ after = []) ∨
        ∃ rest, after = rest ++ [last] ∧ items = before ++ item :: rest := by
  constructor
  · intro hsplit
    rcases List.eq_nil_or_concat after with rfl | ⟨rest, other, rfl⟩
    · obtain ⟨hitems, hlast⟩ := List.append_inj' hsplit rfl
      exact .inl ⟨hitems, List.singleton_inj.1 hlast, rfl⟩
    · rw [List.concat_eq_append, ← List.cons_append, ← List.append_assoc] at hsplit
      obtain ⟨hitems, hlast⟩ := List.append_inj' hsplit rfl
      rw [List.singleton_inj.1 hlast]
      exact .inr ⟨rest, List.concat_eq_append, hitems⟩
  · rintro (⟨rfl, rfl, rfl⟩ | ⟨rest, rfl, rfl⟩)
    · rfl
    · rw [List.append_assoc, List.cons_append]

/-- What holds of an item behind those before it, for every item, holds with one more item at the
end if it holds of that one. -/
theorem forall_split_append_singleton {α : Type} {P : List α → α → Prop} {items : List α} {last : α}
    (h : ∀ before item after, items = before ++ item :: after → P before item)
    (hlast : P items last) (before : List α) (item : α) (after : List α)
    (hsplit : items ++ [last] = before ++ item :: after) : P before item := by
  rcases append_singleton_eq_append_cons_iff.1 hsplit with ⟨rfl, rfl, -⟩ | ⟨rest, -, hitems⟩
  · exact hlast
  · exact h before item rest hitems

end History

end TradeGate
