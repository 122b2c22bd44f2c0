import TradeGate.Proofs.Gate.Replay
import TradeGate.Proofs.Gate.Untimed
import TradeGate.Proofs.History

/-!
# Requests do not influence each other

All requests share one replay window, and a call evicts what has expired, whosever it is. Still the
decisions on one request are, times aside, those that the gate comes to if it is never called for
anything else (`Gate.Separates`). What ties the two runs together are the admissions of that
request, which are the same in both (`Gate.alone_invariant`). As with replays this takes a clock
that is orderly for the window: a call inside a leap second can make the gate forget another request
too early.
-/

namespace TradeGate

open Instant (Orderly beforeLeap withinLeap afterLeap)
open History (answered stateBehind)

namespace Call

/-- The call is for the request of this id. -/
def IsOn (id : String) (call : Call) : Prop := call.snapshot.requestId? = some id

instance (id : String) : DecidablePred (IsOn id) :=
  fun call => inferInstanceAs (Decidable (call.snapshot.requestId? = some id))

/-- What a call asks and when, but not what time the answer takes. -/
def question (call : Call) : Snapshot × Instant := (call.snapshot, call.now)

theorem filter_append_singleton (id : String) (calls : List Call) (call : Call) :
    (calls ++ [call]).filter (·.IsOn id) =
      calls.filter (·.IsOn id) ++ if call.IsOn id then [call] else [] := by
  rw [List.filter_append]
  by_cases hon : call.IsOn id <;> simp [hon]

end Call

namespace Gate

/-! ## The decisions of a run -/

/-- A call comes to a decision. -/
def onCall {σ : Type} (gate : Gate σ) (call : Call) (state : σ) : Decision × σ :=
  let (evaluation, next) := gate.evaluate call.snapshot call.now call.watch state
  (evaluation.decision, next)

variable (gate : Gate ReplayWindow)

/-- The decisions on the calls for one request, in order. -/
def decisionsOn (id : String) (calls : List Call) : List Decision :=
  ((answered gate.onCall (Gate.window gate.policy) calls).filter fun answer => answer.1.IsOn id).map
    Prod.snd

/-- The second run makes the calls for a request again, at the same instants, and no others. The
gate then comes to the same decisions on the request, times aside. -/
def Separates (id : String) (calls alone : List Call) : Prop :=
  alone.map Call.question = (calls.filter (·.IsOn id)).map Call.question →
    (gate.decisionsOn id alone).map Decision.untimed =
      (gate.decisionsOn id calls).map Decision.untimed

theorem windowAfter_eq_stateBehind (calls : List Call) :
    gate.windowAfter calls = stateBehind gate.onCall (Gate.window gate.policy) calls := by
  unfold windowAfter stateBehind
  congr
  funext window call
  exact gate.windowBehind_eq window call

theorem decisionsOn_append_singleton (id : String) (calls : List Call) (call : Call) :
    gate.decisionsOn id (calls ++ [call]) =
      gate.decisionsOn id calls ++
        if call.IsOn id then [gate.decisionAfter calls call] else [] := by
  unfold decisionsOn decisionAfter
  rw [History.answered_append_singleton, List.filter_append, List.map_append,
    windowAfter_eq_stateBehind]
  by_cases hon : call.IsOn id <;> simp [hon, onCall]

/-! ## One request -/

variable {gate} {policy : Policy} {calls alone : List Call} {call other : Call} {id : String}

theorem LetsIn.isOn {s : Sections} (h : gate.LetsIn call s) : call.IsOn s.intent.requestId :=
  Snapshot.requestId?_of_sections? h.1

/-- Only calls for a request admit it. -/
theorem not_admits_of_not_isOn (h : ¬ call.IsOn id) : ¬ gate.Admits calls call id := by
  rintro ⟨s, hlets, rfl, _⟩
  exact h hlets.isOn

/-- An id is held at the end of the calls exactly if it was admitted within the span. -/
theorem register_eq_some_iff_admitted (hgate : ofPolicy policy = .ok gate) {now : Instant}
    (hbudget : ∀ call ∈ calls, gate.InBudget call.watch)
    (horder : Orderly gate.policy.systemIntegrity.duplicateSpan (calls.map Call.now ++ [now]))
    (id : String) (seen : Instant) :
    ((gate.windowAfter calls).register id now).1 = some seen ↔
      gate.Admitted calls id seen ∧
        now.nanosSince seen ≤ gate.policy.systemIntegrity.duplicateSpan := by
  obtain ⟨recorded, htracks, hrecorded⟩ := exists_records hgate hbudget
  have hspan := (suits_windowAfter hgate calls).span_eq
  rw [← hspan] at horder ⊢
  rw [ReplayWindow.register_fst_eq_some_iff htracks.consistent, htracks.mem_held_iff horder,
    hrecorded]

/-- Behind the same admissions of a request the decision on it is the same. -/
theorem untimed_decisionAfter_of_admitted (hgate : ofPolicy policy = .ok gate)
    (hcalls : ∀ c ∈ calls ++ [call], gate.InBudget c.watch)
    (halone : ∀ c ∈ alone ++ [other], gate.InBudget c.watch)
    (horder : Orderly gate.policy.systemIntegrity.duplicateSpan ((calls ++ [call]).map Call.now))
    (horder' : Orderly gate.policy.systemIntegrity.duplicateSpan ((alone ++ [other]).map Call.now))
    (hsnapshot : other.snapshot = call.snapshot) (hnow : other.now = call.now) (hon : call.IsOn id)
    (hadmitted : ∀ seen, gate.Admitted alone id seen ↔ gate.Admitted calls id seen) :
    (gate.decisionAfter alone other).untimed = (gate.decisionAfter calls call).untimed := by
  rw [List.forall_mem_append, List.forall_mem_singleton] at hcalls halone
  rw [List.map_append, List.map_singleton] at horder horder'
  rw [hnow] at horder'
  obtain ⟨-, hvalidators⟩ := eq_of_ofPolicy hgate
  unfold decisionAfter
  rw [hsnapshot, hnow]
  refine gate.untimed_evaluate halone.2 hcalls.2 fun s hs => ?_
  rw [hvalidators]
  refine policy.alike_of_register (Option.ext fun seen => ?_)
  obtain rfl : s.intent.requestId = id :=
    Option.some.inj ((Snapshot.requestId?_of_sections? hs).symm.trans hon)
  rw [register_eq_some_iff_admitted hgate hcalls.1 horder,
    register_eq_some_iff_admitted hgate halone.1 horder', hadmitted]

theorem refuses_congr (h : (gate.decisionAfter alone other).untimed =
    (gate.decisionAfter calls call).untimed) :
    gate.Refuses alone other ↔ gate.Refuses calls call := by
  unfold Refuses
  rw [← Decision.verdict_untimed, ← Decision.reason_untimed, h]
  exact Iff.rfl

theorem admits_congr (h : (gate.decisionAfter alone other).untimed =
    (gate.decisionAfter calls call).untimed)
    (hsnapshot : other.snapshot = call.snapshot) (hnow : other.now = call.now) (id : String) :
    gate.Admits alone other id ↔ gate.Admits calls call id := by
  unfold Admits LetsIn
  rw [hsnapshot, hnow, refuses_congr h]

/-! ## Two runs -/

/-- The run for one request alone reads part of the clock. -/
theorem sublist_of_question (h : alone.map Call.question =
    (calls.filter (·.IsOn id)).map Call.question) :
    (alone.map Call.now).Sublist (calls.map Call.now) := by
  have hnow := congrArg (List.map Prod.snd) h
  rw [List.map_map, List.map_map] at hnow
  exact hnow ▸ List.filter_sublist.map Call.now

/-- Behind the two runs lie the same admissions of the request, and the same decisions on it, times
aside. -/
theorem alone_invariant (hgate : ofPolicy policy = .ok gate)
    (hcalls : ∀ call ∈ calls, gate.InBudget call.watch)
    (halone : ∀ call ∈ alone, gate.InBudget call.watch)
    (horder : Orderly gate.policy.systemIntegrity.duplicateSpan (calls.map Call.now))
    (h : alone.map Call.question = (calls.filter (·.IsOn id)).map Call.question) :
    (∀ seen, gate.Admitted alone id seen ↔ gate.Admitted calls id seen) ∧
      (gate.decisionsOn id alone).map Decision.untimed =
        (gate.decisionsOn id calls).map Decision.untimed := by
  induction calls using List.reverseRecOn generalizing alone with
  | nil =>
    obtain rfl : alone = [] := List.map_eq_nil_iff.1 h
    exact ⟨fun _ => Iff.rfl, rfl⟩
  | append_singleton calls call ih =>
    have hbefore := List.sublist_append_left calls [call]
    have hreadings := horder.sublist (hbefore.map Call.now)
    have hbudget := fun c hc => hcalls c (hbefore.subset hc)
    by_cases hon : call.IsOn id
    · -- the call is made in both runs
      have hclock := horder.sublist (sublist_of_question h)
      rw [Call.filter_append_singleton, if_pos hon, List.map_append] at h
      obtain ⟨alone, last, rfl, hquestions, hlast⟩ := List.map_eq_append_iff.1 h
      obtain ⟨other, rfl, hquestion⟩ := List.map_eq_singleton_iff.1 hlast
      obtain ⟨hsnapshot, hnow⟩ := Prod.mk.injEq .. ▸ hquestion
      have hin := fun c hc => halone c ((List.sublist_append_left alone [other]).subset hc)
      obtain ⟨hadmitted, hdecisions⟩ := ih hbudget hin hreadings hquestions
      have hother : other.IsOn id := (congrArg Snapshot.requestId? hsnapshot).trans hon
      have hdecision := untimed_decisionAfter_of_admitted hgate hcalls halone horder hclock
        hsnapshot hnow hon hadmitted
      refine ⟨fun seen => ?_, ?_⟩
      · rw [admitted_append_singleton, admitted_append_singleton, hadmitted,
          admits_congr hdecision hsnapshot hnow, hnow]
      · rw [decisionsOn_append_singleton, decisionsOn_append_singleton, if_pos hon, if_pos hother,
          List.map_append, List.map_append, hdecisions, List.map_singleton, List.map_singleton,
          hdecision]
    · -- the call is for another request, or for none
      rw [Call.filter_append_singleton, if_neg hon, List.append_nil] at h
      obtain ⟨hadmitted, hdecisions⟩ := ih hbudget halone hreadings h
      refine ⟨fun seen => ?_, ?_⟩
      · rw [admitted_append_singleton, hadmitted]
        exact (or_iff_left fun hadmits => not_admits_of_not_isOn hon hadmits.1).symm
      · rw [decisionsOn_append_singleton, if_neg hon, List.append_nil, hdecisions]

/-- Under every clock that is orderly for the window, and so under every clock that does not go
back and does not read inside a leap second, a gate decides on each request as if there were no
others. -/
theorem separates_of_clock (hgate : ofPolicy policy = .ok gate) (id : String)
    (calls alone : List Call) (hcalls : ∀ call ∈ calls, gate.InBudget call.watch)
    (halone : ∀ call ∈ alone, gate.InBudget call.watch) :
    (Orderly gate.policy.systemIntegrity.duplicateSpan (calls.map Call.now) →
      gate.Separates id calls alone) ∧
    ((calls.map Call.now).Pairwise (· ≤ ·) → (∀ call ∈ calls, call.now.isLeap = false) →
      gate.Separates id calls alone) := by
  have hseparates : Orderly gate.policy.systemIntegrity.duplicateSpan (calls.map Call.now) →
      gate.Separates id calls alone :=
    fun horder h => (alone_invariant hgate hcalls halone horder h).2
  refine ⟨hseparates, fun hsorted hleap => hseparates ?_⟩
  exact Instant.orderly_of_pairwise _ hsorted (List.forall_mem_map.2 hleap)

/-- Two calls for one request, and between them one for another. -/
def mixedCalls : List Call :=
  [calmCall "r-1" .epoch, calmCall "r-2" .epoch, calmCall "r-1" .epoch]

/-- The decisions on the first request do not depend on the second one. -/
theorem separates_mixedCalls :
    ∃ gate, ofPolicy .standard = .ok gate ∧
      (gate.decisionsOn "r-1" [calmCall "r-1" .epoch, calmCall "r-1" .epoch]).map
          Decision.untimed =
        (gate.decisionsOn "r-1" mixedCalls).map Decision.untimed := by
  obtain ⟨gate, hgate⟩ := exists_ofPolicy_standard
  have hcalls : ∀ call ∈ mixedCalls, gate.InBudget call.watch := by
    unfold mixedCalls
    rw [List.forall_mem_cons, List.forall_mem_cons, List.forall_mem_singleton]
    exact ⟨inBudget_calmCall _ _ _, inBudget_calmCall _ _ _, inBudget_calmCall _ _ _⟩
  have halone : ∀ call ∈ [calmCall "r-1" .epoch, calmCall "r-1" .epoch],
      gate.InBudget call.watch := by
    rw [List.forall_mem_cons, List.forall_mem_singleton]
    exact ⟨inBudget_calmCall _ _ _, inBudget_calmCall _ _ _⟩
  have hclock : (mixedCalls.map Call.now).Pairwise (· ≤ ·) := by decide
  have hleap : ∀ call ∈ mixedCalls, call.now.isLeap = false := by
    unfold mixedCalls
    rw [List.forall_mem_cons, List.forall_mem_cons, List.forall_mem_singleton]
    exact ⟨rfl, rfl, rfl⟩
  refine ⟨gate, hgate, ?_⟩
  exact (separates_of_clock hgate "r-1" mixedCalls _ hcalls halone).2 hclock hleap rfl

/-! ## Leap seconds -/

/-- Without the call inside the leap second the third one is a replay of the first one. -/
theorem refuses_leapCalls (hgate : ofPolicy .standard = .ok gate) :
    gate.Refuses [calmCall "r-1" beforeLeap] (calmCall "r-1" afterLeap) := by
  have hfirst := (executes_leapCalls hgate).1
  refine (refuses_iff_exists_admits hgate ?_ (inBudget_calmCall _ _ _) ?_
    (letsIn_calmCall hgate "r-1" afterLeap)).2 ⟨[], _, [], rfl, ?_, ?_⟩
  · exact List.forall_mem_singleton.2 (inBudget_calmCall _ _ _)
  · exact Instant.orderly_of_pairwise _ (by decide) (by decide)
  · exact ⟨_, letsIn_calmCall hgate "r-1" beforeLeap, rfl, hfirst.not_refuses⟩
  · rw [(eq_of_ofPolicy hgate).1]
    decide

/-- With a call inside a leap second the clock does not go back, and yet leaving that call out,
which is for another request, turns the last decision. -/
theorem not_separates_leapCalls :
    ∃ gate, ofPolicy .standard = .ok gate ∧ (∀ call ∈ leapCalls, gate.InBudget call.watch) ∧
      (leapCalls.map Call.now).Pairwise (· ≤ ·) ∧
      ¬ gate.Separates "r-1" leapCalls (leapCalls.filter (·.IsOn "r-1")) := by
  obtain ⟨gate, hgate⟩ := exists_ofPolicy_standard
  refine ⟨gate, hgate, inBudget_leapCalls gate, by decide, fun hseparates => ?_⟩
  have hlast := congrArg List.getLast? (hseparates rfl)
  have hon : (calmCall "r-1" afterLeap).IsOn "r-1" := rfl
  change ((gate.decisionsOn "r-1" ([calmCall "r-1" beforeLeap] ++ [_])).map _).getLast? =
    ((gate.decisionsOn "r-1" ([calmCall "r-1" beforeLeap, calmCall "r-2" withinLeap] ++
      [_])).map _).getLast? at hlast
  rw [decisionsOn_append_singleton, decisionsOn_append_singleton, if_pos hon, if_pos hon,
    List.map_append, List.map_append, List.map_singleton, List.map_singleton,
    List.getLast?_concat, List.getLast?_concat] at hlast
  have hrefuses := (refuses_congr (Option.some.inj hlast)).1 (refuses_leapCalls hgate)
  exact (executes_leapCalls hgate).2.not_refuses hrefuses

end Gate

end TradeGate
