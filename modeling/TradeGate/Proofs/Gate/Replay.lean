import TradeGate.Proofs.Check.Preset
import TradeGate.Proofs.Gate.Specification
import TradeGate.Proofs.History
import TradeGate.Proofs.ReplayWindow.History

/-!
# Replays over the life of a gate

A gate is called again and again, and the replay window is all that it remembers. `Gate.ReplayLaw`
says when a call is refused as a replay by what was called before, with no mention of the window: an
invariant of the runs ties the window to the calls that were admitted (`Gate.Records`).
The law needs a clock that is orderly for the window; a clock that reads inside leap seconds need
not be, and then the law can fail.
-/

namespace TradeGate

open Instant (Orderly beforeLeap withinLeap afterLeap)
open ReplayWindow (Tracks)

/-- What a caller asks for: the whole decision, or only whether the trade is allowed. -/
inductive Call.Kind where
  | evaluate
  | allows

/-- A call of a gate. -/
structure Call where
  kind : Call.Kind
  snapshot : Snapshot
  now : Instant
  watch : Stopwatch

theorem Snapshot.requestId?_of_sections? {snapshot : Snapshot} {s : Sections}
    (h : snapshot.sections? = some s) : snapshot.requestId? = some s.intent.requestId := by
  unfold sections? at h
  split at h
  · rw [← Option.some.inj h]
    rfl
  · exact nomatch h

namespace Gate

variable (gate : Gate ReplayWindow)

/-! ## Calls one after the other -/

/-- The window behind a call. -/
def windowBehind (window : ReplayWindow) (call : Call) : ReplayWindow :=
  match call.kind with
  | .evaluate => (gate.evaluate call.snapshot call.now call.watch window).2
  | .allows => (gate.allows call.snapshot call.now call.watch window).2

/-- The window behind the first calls of a gate. -/
def windowAfter (calls : List Call) : ReplayWindow :=
  calls.foldl gate.windowBehind (Gate.window gate.policy)

/-- The decision that a call comes to after others. -/
def decisionAfter (calls : List Call) (call : Call) : Decision :=
  (gate.evaluate call.snapshot call.now call.watch (gate.windowAfter calls)).1.decision

/-- After the calls, this one is given leave. -/
def Executes (calls : List Call) (call : Call) : Prop :=
  match call.kind with
  | .evaluate => (gate.decisionAfter calls call).verdict = .execute
  | .allows => (gate.allows call.snapshot call.now call.watch (gate.windowAfter calls)).1 = true

/-- After the calls, this one is refused as a replay. -/
def Refuses (calls : List Call) (call : Call) : Prop :=
  (gate.decisionAfter calls call).verdict = .block ∧
    (gate.decisionAfter calls call).reason = some .duplicateRequest

/-- The call has all its sections, and the rules do not object to it. -/
def LetsIn (call : Call) (s : Sections) : Prop :=
  call.snapshot.sections? = some s ∧
    ∃ details, gate.policy.rules.check s call.now = .ok details

/-- After the calls, this one with this request id is let in and not refused as a replay. -/
def Admits (calls : List Call) (call : Call) (id : String) : Prop :=
  ∃ s, gate.LetsIn call s ∧ s.intent.requestId = id ∧ ¬ gate.Refuses calls call

/-- Among the calls there is one that was admitted with this id at this instant. -/
def Admitted (calls : List Call) (id : String) (seen : Instant) : Prop :=
  ∃ earlier first between, calls = earlier ++ first :: between ∧
    gate.Admits earlier first id ∧ first.now = seen

/-- How a gate treats replays. -/
structure ReplayLaw (calls : List Call) : Prop where
  /-- A call that is let in is refused as a replay exactly if one with its id was admitted before it
  and no longer ago than the policy says. -/
  refuses_iff : ∀ before call after s, calls = before ++ call :: after → gate.LetsIn call s →
    (gate.Refuses before call ↔ ∃ earlier first between, before = earlier ++ first :: between ∧
      gate.Admits earlier first s.intent.requestId ∧
      call.now.nanosSince first.now ≤ gate.policy.systemIntegrity.duplicateSpan)
  /-- A call that is not let in leaves no trace. -/
  unrecorded : ∀ before call after, calls = before ++ call :: after →
    (∀ s, ¬ gate.LetsIn call s) → gate.windowAfter (before ++ [call]) = gate.windowAfter before
  /-- Two calls with one id that are given leave are farther apart than the policy says. -/
  apart : ∀ before first between second after id,
    calls = before ++ first :: between ++ second :: after →
    first.snapshot.requestId? = some id → second.snapshot.requestId? = some id →
    gate.Executes before first → gate.Executes (before ++ first :: between) second →
    gate.policy.systemIntegrity.duplicateSpan < second.now.nanosSince first.now

/-! ## One call -/

variable {gate} {policy : Policy} {calls : List Call} {call : Call}

theorem windowBehind_eq (gate : Gate ReplayWindow) (window : ReplayWindow) (call : Call) :
    gate.windowBehind window call =
      (gate.evaluate call.snapshot call.now call.watch window).2 := by
  unfold windowBehind
  cases call.kind <;> rfl

theorem windowAfter_append_singleton (gate : Gate ReplayWindow) (calls : List Call) (call : Call) :
    gate.windowAfter (calls ++ [call]) =
      (gate.evaluate call.snapshot call.now call.watch (gate.windowAfter calls)).2 := by
  unfold windowAfter
  rw [List.foldl_append, List.foldl_cons, List.foldl_nil, windowBehind_eq]

theorem executes_iff (gate : Gate ReplayWindow) (calls : List Call) (call : Call) :
    gate.Executes calls call ↔ (gate.decisionAfter calls call).verdict = .execute := by
  unfold Executes
  cases call.kind with
  | evaluate => exact Iff.rfl
  | allows => exact decide_eq_true_iff

theorem Executes.not_refuses (h : gate.Executes calls call) : ¬ gate.Refuses calls call := by
  rintro ⟨hblock, _⟩
  rw [executes_iff, hblock] at h
  exact nomatch h

theorem LetsIn.unique {s s' : Sections} (h : gate.LetsIn call s) (h' : gate.LetsIn call s') :
    s = s' :=
  Option.some.inj (h.1.symm.trans h'.1)

/-- The rules have passed a call exactly if they object to nothing. -/
theorem exists_check_eq_ok_iff (policy : RulePolicy) (s : Sections) (now : Instant) :
    (∃ details, policy.check s now = .ok details) ↔
      firstViolation? (policy.violations s now) = none := by
  unfold RulePolicy.check
  cases hfound : firstViolation? (policy.violations s now) with
  | none =>
    rw [judge_of_none hfound]
    exact iff_of_true ⟨_, rfl⟩ rfl
  | some violation =>
    rw [judge_of_some hfound]
    exact iff_of_false (fun ⟨_, h⟩ => nomatch h) (fun h => nomatch h)

section Step

variable (hgate : ofPolicy policy = .ok gate) (hbudget : gate.InBudget call.watch)

include hgate hbudget

theorem windowAfter_of_letsIn {s : Sections} (h : gate.LetsIn call s) :
    gate.windowAfter (calls ++ [call]) =
      ((gate.windowAfter calls).register s.intent.requestId call.now).2 := by
  obtain ⟨hs, hrules⟩ := h
  obtain ⟨rfl, _⟩ := eq_of_ofPolicy hgate
  rw [exists_check_eq_ok_iff] at hrules
  rw [windowAfter_append_singleton,
    (evaluate_of_complete call.now (gate.windowAfter calls) hgate hbudget hs).2]
  unfold Policy.windowAfter
  rw [hrules]

theorem windowAfter_of_not_letsIn (h : ∀ s, ¬ gate.LetsIn call s) :
    gate.windowAfter (calls ++ [call]) = gate.windowAfter calls := by
  obtain ⟨rfl, _⟩ := eq_of_ofPolicy hgate
  rw [windowAfter_append_singleton]
  cases hs : call.snapshot.sections? with
  | none => rw [evaluate_of_incomplete _ _ hs]
  | some s =>
    have hrules := fun hnone => h s ⟨hs, (exists_check_eq_ok_iff _ _ _).2 hnone⟩
    rw [(evaluate_of_complete call.now (gate.windowAfter calls) hgate hbudget hs).2]
    unfold Policy.windowAfter
    cases hfound : firstViolation? (gate.policy.rules.violations s call.now) with
    | none => exact absurd hfound hrules
    | some violation => rfl

/-- A call that is let in is refused as a replay exactly if its id is held. -/
theorem refuses_iff_of_letsIn {s : Sections} (h : gate.LetsIn call s) :
    gate.Refuses calls call ↔
      ((gate.windowAfter calls).register s.intent.requestId call.now).1.isSome = true := by
  obtain ⟨hs, hrules⟩ := h
  obtain ⟨rfl, _⟩ := eq_of_ofPolicy hgate
  rw [exists_check_eq_ok_iff] at hrules
  have hreports := (evaluate_of_complete call.now (gate.windowAfter calls) hgate hbudget hs).1
  unfold Refuses decisionAfter
  cases hseen : ((gate.windowAfter calls).register s.intent.requestId call.now).1 with
  | some seen =>
    rw [gate.policy.firstViolation?_objections_of_some hseen, hrules, Option.none_or] at hreports
    exact iff_of_true ⟨hreports.1, hreports.2.1⟩ rfl
  | none =>
    rw [gate.policy.firstViolation?_objections_of_none hseen] at hreports
    refine iff_of_false ?_ Bool.false_ne_true
    rintro ⟨hblock, hreason⟩
    cases hfound : firstViolation? (gate.policy.standingObjections s call.now) with
    | none =>
      rw [hreports.verdict_eq_execute_iff.2 hfound] at hblock
      exact nomatch hblock
    | some violation =>
      obtain ⟨condition, hfirst, hnamed, _⟩ := exists_condition_of_firstViolation?
        (gate.policy.standing_answers s call.now) hfound
      rw [hfound] at hreports
      rw [hreports.2.1, hnamed] at hreason
      exact gate.policy.reason_ne_of_mem_standing s call.now hfirst.mem (Option.some.inj hreason)

theorem Executes.exists_letsIn (h : gate.Executes calls call) : ∃ s, gate.LetsIn call s := by
  obtain ⟨rfl, _⟩ := eq_of_ofPolicy hgate
  rw [executes_iff] at h
  obtain ⟨s, hs, _, hstanding⟩ := (verdict_eq_execute_iff hgate hbudget).1 h
  refine ⟨s, hs, (exists_check_eq_ok_iff _ _ _).2 ?_⟩
  rw [firstViolation?_eq_none_iff_of_answers (gate.policy.rules.answers s call.now)]
  exact fun condition hmem => hstanding condition (List.mem_flatten.2 ⟨_, List.mem_cons_self, hmem⟩)

end Step

/-! ## All calls -/

theorem admitted_append_singleton (gate : Gate ReplayWindow) (calls : List Call) (call : Call)
    (id : String) (seen : Instant) :
    gate.Admitted (calls ++ [call]) id seen ↔
      gate.Admitted calls id seen ∨ (gate.Admits calls call id ∧ call.now = seen) := by
  constructor
  · rintro ⟨earlier, first, between, hsplit, hadmits, hseen⟩
    rcases History.append_singleton_eq_append_cons_iff.1 hsplit with
      ⟨rfl, rfl, -⟩ | ⟨rest, -, rfl⟩
    · exact Or.inr ⟨hadmits, hseen⟩
    · exact Or.inl ⟨earlier, first, rest, rfl, hadmits, hseen⟩
  · rintro (⟨earlier, first, between, rfl, hadmits, hseen⟩ | ⟨hadmits, hseen⟩)
    · exact ⟨earlier, first, between ++ [call], by simp, hadmits, hseen⟩
    · exact ⟨calls, call, [], rfl, hadmits, hseen⟩

/-- The window behind the calls has recorded what was admitted among them. -/
structure Records (gate : Gate ReplayWindow) (calls : List Call)
    (recorded : List (String × Instant)) : Prop where
  tracks : Tracks (calls.map Call.now) recorded (gate.windowAfter calls)
  mem_iff : ∀ id seen, (id, seen) ∈ recorded ↔ gate.Admitted calls id seen

theorem records_nil (gate : Gate ReplayWindow) : gate.Records [] [] where
  tracks := ReplayWindow.tracks_ofSeconds _
  mem_iff := by
    intro id seen
    refine iff_of_false List.not_mem_nil ?_
    rintro ⟨earlier, first, between, hsplit, _⟩
    exact nomatch List.append_eq_nil_iff.1 hsplit.symm

/-- One more call adds to the records what it admits. -/
theorem Records.append_singleton {recorded : List (String × Instant)}
    (h : gate.Records calls recorded) (hgate : ofPolicy policy = .ok gate)
    (hbudget : gate.InBudget call.watch) :
    ∃ recorded', gate.Records (calls ++ [call]) recorded' := by
  have hreadings : (calls ++ [call]).map Call.now = calls.map Call.now ++ [call.now] := by
    rw [List.map_append, List.map_singleton]
  by_cases hlets : ∃ s, gate.LetsIn call s
  · obtain ⟨s, hlets⟩ := hlets
    have hwindow : gate.windowAfter (calls ++ [call]) = _ := windowAfter_of_letsIn hgate hbudget hlets
    have hrefuses : gate.Refuses calls call ↔ _ := refuses_iff_of_letsIn hgate hbudget hlets
    -- a new id is recorded with its instant; one that is held is refused and keeps the old instant
    cases hseen : ((gate.windowAfter calls).register s.intent.requestId call.now).1 with
    | none =>
      have hnot : ¬ gate.Refuses calls call := by
        rw [hrefuses, hseen]
        exact Bool.false_ne_true
      refine ⟨recorded ++ [(s.intent.requestId, call.now)], ?_, fun id seen => ?_⟩
      · rw [hreadings, hwindow]
        exact h.tracks.register_of_eq_none hseen
      · rw [List.mem_append, h.mem_iff, admitted_append_singleton, List.mem_singleton, Prod.mk.injEq]
        refine or_congr_right ⟨?_, ?_⟩
        · rintro ⟨rfl, rfl⟩
          exact ⟨⟨s, hlets, rfl, hnot⟩, rfl⟩
        · rintro ⟨⟨s', hlets', rfl, _⟩, rfl⟩
          rw [hlets.unique hlets']
          exact ⟨rfl, rfl⟩
    | some first =>
      have hrefused : gate.Refuses calls call := by
        rw [hrefuses, hseen]
        rfl
      refine ⟨recorded, ?_, fun id seen => ?_⟩
      · rw [hreadings, hwindow]
        exact h.tracks.register_of_eq_some hseen
      · rw [h.mem_iff, admitted_append_singleton]
        exact (or_iff_left fun ⟨⟨_, _, _, hnot⟩, _⟩ => hnot hrefused).symm
  · rw [not_exists] at hlets
    refine ⟨recorded, ?_, fun id seen => ?_⟩
    · rw [hreadings, windowAfter_of_not_letsIn hgate hbudget hlets]
      exact h.tracks.skip call.now
    · rw [h.mem_iff, admitted_append_singleton]
      exact (or_iff_left fun ⟨⟨s, hin, _⟩, _⟩ => hlets s hin).symm

theorem exists_records (hgate : ofPolicy policy = .ok gate)
    (hbudget : ∀ call ∈ calls, gate.InBudget call.watch) :
    ∃ recorded, gate.Records calls recorded := by
  induction calls using List.reverseRecOn with
  | nil => exact ⟨[], records_nil gate⟩
  | append_singleton calls call ih =>
    rw [List.forall_mem_append, List.forall_mem_singleton] at hbudget
    obtain ⟨recorded, hrecords⟩ := ih hbudget.1
    exact hrecords.append_singleton hgate hbudget.2

theorem suits_windowAfter (hgate : ofPolicy policy = .ok gate) (calls : List Call) :
    (gate.windowAfter calls).Suits gate.policy := by
  obtain ⟨rfl, hvalidators⟩ := eq_of_ofPolicy hgate
  induction calls using List.reverseRecOn with
  | nil => exact ReplayWindow.suits_window gate.accepted
  | append_singleton calls call ih =>
    rw [windowAfter_append_singleton]
    exact ih.evaluate hvalidators _ _ _

/-! ## Calm calls -/

/-- An evaluation of a calm snapshot that takes no time. -/
def calmCall (requestId : String) (now : Instant) : Call :=
  ⟨.evaluate, .calm requestId now, now, .still⟩

theorem inBudget_calmCall (gate : Gate ReplayWindow) (requestId : String) (now : Instant) :
    gate.InBudget (calmCall requestId now).watch := by
  unfold calmCall
  dsimp only
  exact inBudget_still gate

theorem letsIn_calmCall (hgate : ofPolicy .standard = .ok gate) (requestId : String)
    (now : Instant) : gate.LetsIn (calmCall requestId now) (.calm requestId now) := by
  obtain ⟨hpolicy, _⟩ := eq_of_ofPolicy hgate
  refine ⟨Snapshot.sections?_calm _ _, (exists_check_eq_ok_iff _ _ _).2 ?_⟩
  rw [hpolicy, firstViolation?_eq_none_iff_of_answers (RulePolicy.answers _ _ _)]
  exact fun condition hmem => Policy.standard_calm requestId now condition
    (List.mem_flatten.2 ⟨_, List.mem_cons_self, hmem⟩)

/-- A calm call is given leave if its id is not in the queue, and is then put at its end. -/
theorem executes_calmCall (hgate : ofPolicy .standard = .ok gate) (calls : List Call)
    (requestId : String) (now : Instant)
    (hnew : requestId ∉ (gate.windowAfter calls).queue.map Prod.fst) :
    gate.Executes calls (calmCall requestId now) ∧
      (gate.windowAfter (calls ++ [calmCall requestId now])).queue =
        (gate.windowAfter calls).held now ++ [(requestId, now)] := by
  have hnone : ((gate.windowAfter calls).register requestId now).1 = none :=
    ReplayWindow.register_fst_eq_none (suits_windowAfter hgate calls).consistent hnew
  refine ⟨?_, ?_⟩
  · rw [executes_iff]
    exact (verdict_eq_execute_iff hgate (inBudget_still gate)).2
      ⟨_, Snapshot.sections?_calm requestId now, hnone, Policy.standard_calm requestId now⟩
  · rw [windowAfter_of_letsIn hgate (inBudget_calmCall gate _ _) (letsIn_calmCall hgate _ _)]
    exact ReplayWindow.register_queue hnone

theorem exists_ofPolicy_standard : ∃ gate, ofPolicy .standard = .ok gate :=
  ⟨_, ofPolicy_eq_ok (by decide +kernel)⟩

theorem span_windowAfter_standard (hgate : ofPolicy .standard = .ok gate) (calls : List Call) :
    (gate.windowAfter calls).span = 3600 * nanosPerSecond := by
  rw [(suits_windowAfter hgate calls).span_eq, (eq_of_ofPolicy hgate).1]
  rfl

/-! ## The law -/

/-- Under an orderly clock a call that is let in is refused as a replay exactly if its id was
admitted within the span. -/
theorem refuses_iff_exists_admits (hgate : ofPolicy policy = .ok gate)
    (hcalls : ∀ call ∈ calls, gate.InBudget call.watch) (hcall : gate.InBudget call.watch)
    (horder : Orderly gate.policy.systemIntegrity.duplicateSpan
      (calls.map Call.now ++ [call.now]))
    {s : Sections} (hlets : gate.LetsIn call s) :
    gate.Refuses calls call ↔ ∃ earlier first between, calls = earlier ++ first :: between ∧
      gate.Admits earlier first s.intent.requestId ∧
      call.now.nanosSince first.now ≤ gate.policy.systemIntegrity.duplicateSpan := by
  obtain ⟨recorded, htracks, hrecorded⟩ := exists_records hgate hcalls
  have hspan := (suits_windowAfter hgate calls).span_eq
  rw [← hspan] at horder ⊢
  rw [refuses_iff_of_letsIn hgate hcall hlets, htracks.register_isSome_iff horder]
  constructor
  · rintro ⟨seen, hmem, hin⟩
    obtain ⟨earlier, first, between, hsplit, hadmits, rfl⟩ := (hrecorded _ _).1 hmem
    exact ⟨earlier, first, between, hsplit, hadmits, hin⟩
  · rintro ⟨earlier, first, between, hsplit, hadmits, hin⟩
    exact ⟨first.now, (hrecorded _ _).2 ⟨earlier, first, between, hsplit, hadmits, rfl⟩, hin⟩

theorem replayLaw_of_orderly (hgate : ofPolicy policy = .ok gate)
    (hbudget : ∀ call ∈ calls, gate.InBudget call.watch)
    (horder : Orderly gate.policy.systemIntegrity.duplicateSpan (calls.map Call.now)) :
    gate.ReplayLaw calls := by
  have hrefuses : ∀ before call after s, calls = before ++ call :: after → gate.LetsIn call s →
      (gate.Refuses before call ↔ ∃ earlier first between, before = earlier ++ first :: between ∧
        gate.Admits earlier first s.intent.requestId ∧
        call.now.nanosSince first.now ≤ gate.policy.systemIntegrity.duplicateSpan) := by
    intro before call after s hsplit hlets
    have hbefore : (before ++ [call]).Sublist calls := by
      rw [hsplit, List.append_cons before call after]
      exact List.sublist_append_left _ _
    have hreadings := horder.sublist (hbefore.map Call.now)
    rw [List.map_append, List.map_singleton] at hreadings
    have hin := fun c hc => hbudget c (hbefore.subset hc)
    rw [List.forall_mem_append, List.forall_mem_singleton] at hin
    exact refuses_iff_exists_admits hgate hin.1 hin.2 hreadings hlets
  refine ⟨hrefuses, ?_, ?_⟩
  · intro before call after hsplit hlets
    refine windowAfter_of_not_letsIn hgate (hbudget call ?_) hlets
    rw [hsplit]
    exact List.mem_append_right _ List.mem_cons_self
  · intro before first between second after id hsplit hfirst hsecond hexecutes hexecutes'
    have hmem : first ∈ calls ∧ second ∈ calls := by
      rw [hsplit]
      simp
    obtain ⟨s, hlets⟩ := hexecutes.exists_letsIn hgate (hbudget first hmem.1)
    obtain ⟨s', hlets'⟩ := hexecutes'.exists_letsIn hgate (hbudget second hmem.2)
    rw [Snapshot.requestId?_of_sections? hlets.1] at hfirst
    rw [Snapshot.requestId?_of_sections? hlets'.1] at hsecond
    have hid : s.intent.requestId = s'.intent.requestId :=
      Option.some.inj (hfirst.trans hsecond.symm)
    -- the second call is no replay, so the first one, which was admitted, is out of the window
    have hnot := hexecutes'.not_refuses
    rw [hrefuses _ _ _ s' hsplit hlets'] at hnot
    refine Int.not_le.1 fun hle => hnot ⟨before, first, between, rfl, ?_, hle⟩
    exact ⟨s, hlets, hid, hexecutes.not_refuses⟩

/-- Under every clock that is orderly for the window, and so under every clock that does not go back
and does not read inside a leap second, the gate treats replays by the law. -/
theorem replayLaw_of_clock (hgate : ofPolicy policy = .ok gate) (calls : List Call)
    (hbudget : ∀ call ∈ calls, gate.InBudget call.watch) :
    (Orderly gate.policy.systemIntegrity.duplicateSpan (calls.map Call.now) →
      gate.ReplayLaw calls) ∧
    ((calls.map Call.now).Pairwise (· ≤ ·) → (∀ call ∈ calls, call.now.isLeap = false) →
      gate.ReplayLaw calls) := by
  refine ⟨replayLaw_of_orderly hgate hbudget, fun hsorted hleap => ?_⟩
  refine replayLaw_of_orderly hgate hbudget (Instant.orderly_of_pairwise _ hsorted ?_)
  exact List.forall_mem_map.2 hleap

/-- The same call a second time is refused as a replay. -/
theorem refuses_calmCall_twice :
    ∃ gate, ofPolicy .standard = .ok gate ∧
      gate.Refuses [calmCall "r-1" .epoch] (calmCall "r-1" .epoch) := by
  obtain ⟨gate, hgate⟩ := exists_ofPolicy_standard
  have hbudget : ∀ call ∈ [calmCall "r-1" .epoch, calmCall "r-1" .epoch],
      gate.InBudget call.watch := by
    rw [List.forall_mem_cons, List.forall_mem_singleton]
    exact ⟨inBudget_calmCall _ _ _, inBudget_calmCall _ _ _⟩
  have hclock : [Instant.epoch, Instant.epoch].Pairwise (· ≤ ·) := by decide
  have hleap : ∀ call ∈ [calmCall "r-1" .epoch, calmCall "r-1" .epoch],
      call.now.isLeap = false := by
    rw [List.forall_mem_cons, List.forall_mem_singleton]
    exact ⟨rfl, rfl⟩
  have hlaw := (replayLaw_of_clock hgate _ hbudget).2 hclock hleap
  have hlets := letsIn_calmCall hgate "r-1" .epoch
  have hfirst := (executes_calmCall hgate [] "r-1" .epoch List.not_mem_nil).1
  refine ⟨gate, hgate, (hlaw.refuses_iff [_] _ [] _ rfl hlets).2 ⟨[], _, [], rfl, ?_, ?_⟩⟩
  · exact ⟨_, hlets, rfl, hfirst.not_refuses⟩
  · rw [(eq_of_ofPolicy hgate).1]
    decide

/-! ## Leap seconds -/

/-- Two calls with one id, as far apart as the standard window is wide, and between them a call
inside a leap second. -/
def leapCalls : List Call :=
  [calmCall "r-1" beforeLeap, calmCall "r-2" withinLeap, calmCall "r-1" afterLeap]

/-- The call inside the leap second makes the gate forget the first one, and so the third one is let
through. -/
theorem executes_leapCalls (hgate : ofPolicy .standard = .ok gate) :
    gate.Executes [] (calmCall "r-1" beforeLeap) ∧
      gate.Executes [calmCall "r-1" beforeLeap, calmCall "r-2" withinLeap]
        (calmCall "r-1" afterLeap) := by
  obtain ⟨hfirst, hqueue⟩ := executes_calmCall hgate [] "r-1" beforeLeap List.not_mem_nil
  have hqueue : (gate.windowAfter [calmCall "r-1" beforeLeap]).queue = [("r-1", beforeLeap)] := hqueue
  obtain ⟨_, hqueue'⟩ := executes_calmCall hgate [calmCall "r-1" beforeLeap] "r-2" withinLeap
    (by rw [hqueue]; decide)
  -- at the leap second the first call is 3600.5 seconds back, and so it is forgotten
  have hgone : (gate.windowAfter [calmCall "r-1" beforeLeap]).held withinLeap = [] := by
    unfold ReplayWindow.held
    rw [hqueue, span_windowAfter_standard hgate]
    decide
  rw [hgone, List.nil_append, List.singleton_append] at hqueue'
  exact ⟨hfirst, (executes_calmCall hgate _ "r-1" afterLeap (by rw [hqueue']; decide)).1⟩

theorem inBudget_leapCalls (gate : Gate ReplayWindow) :
    ∀ call ∈ leapCalls, gate.InBudget call.watch := by
  unfold leapCalls
  rw [List.forall_mem_cons, List.forall_mem_cons, List.forall_mem_singleton]
  exact ⟨inBudget_calmCall _ _ _, inBudget_calmCall _ _ _, inBudget_calmCall _ _ _⟩

/-- The first call is forgotten too early, although the clock never goes back. -/
theorem not_replayLaw_leapCalls :
    ∃ gate, ofPolicy .standard = .ok gate ∧ (∀ call ∈ leapCalls, gate.InBudget call.watch) ∧
      (leapCalls.map Call.now).Pairwise (· ≤ ·) ∧ ¬ gate.ReplayLaw leapCalls := by
  obtain ⟨gate, hgate⟩ := exists_ofPolicy_standard
  obtain ⟨hfirst, hsecond⟩ := executes_leapCalls hgate
  refine ⟨gate, hgate, inBudget_leapCalls gate, by decide, fun hlaw => ?_⟩
  have hapart := hlaw.apart [] _ [_] _ [] "r-1" rfl rfl rfl hfirst hsecond
  rw [(eq_of_ofPolicy hgate).1] at hapart
  exact absurd hapart (by decide)

end Gate

end TradeGate
