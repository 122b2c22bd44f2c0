import TradeGate.Proofs.AuditedGate
import TradeGate.Proofs.AuditedGate.Frame
import TradeGate.Proofs.Decision.EvaluationId
import TradeGate.Proofs.Gate.Passing

/-!
# Decisions are found by their ids

Every decision of an audited gate is kept, answered or not, and a query by an evaluation id comes to
the latest decision under that id. Decisions share an id if the clock read the same microsecond and
the fronts of the request ids are the same, and only then. So an answer is found by its id until such
a visit comes (`AuditedGate.findDecision?_onVisit`).
-/

namespace TradeGate

open History (answered stateBehind)

namespace Store

/-- The latest decision under an id, if the decisions came in this order. -/
theorem findDecision?_of_reverse {store : Store} {decisions : List Decision}
    (h : store.decisions = decisions.reverse) (evaluationId : String) :
    store.findDecision? evaluationId =
      (decisions.filter fun decision => decision.evaluationId = evaluationId).getLast? := by
  unfold findDecision?
  rw [h, ← List.head?_filter, List.filter_reverse, List.head?_reverse]

end Store

namespace AuditedGate

variable {σ : Type}

/-- The latest decision that the repository has under an evaluation id. -/
def findDecision? (audited : AuditedGate σ) (evaluationId : String) : Option Decision :=
  audited.repository.bind fun repository => repository.view.findDecision? evaluationId

theorem findDecision?_of_kept {audited : AuditedGate σ} {decisions : List Decision}
    (h : audited.kept = some decisions.reverse) (evaluationId : String) :
    audited.findDecision? evaluationId =
      (decisions.filter fun decision => decision.evaluationId = evaluationId).getLast? := by
  obtain ⟨repository, hrepository, hdecisions⟩ := Option.map_eq_some_iff.1 h
  unfold findDecision?
  rw [hrepository]
  exact Store.findDecision?_of_reverse hdecisions evaluationId

/-! ## Ids of visits -/

/-- What is decided on these visits goes under one id: the clock read the same microsecond, and the
fronts of the request ids are the same. -/
def Visit.SharesId (a b : Visit) : Prop :=
  a.now.SameMicro b.now ∧ requestFront a.snapshot.requestId? = requestFront b.snapshot.requestId?

instance (a b : Visit) : Decidable (a.SharesId b) := inferInstanceAs (Decidable (_ ∧ _))

theorem Visit.SharesId.refl (visit : Visit) : visit.SharesId visit := ⟨.refl _, rfl⟩

theorem evaluationId_decideAlone (gate : Gate σ) (visit : Visit) (state : σ) :
    (decideAlone gate visit state).1.evaluationId =
      evaluationId visit.now visit.snapshot.requestId? :=
  (gate.heading_evaluate visit.snapshot visit.now visit.watch state).1

/-- The decisions of the gate alone on those of the visits that share the id of a visit, in
order. -/
def sharing (gate : Gate σ) (state : σ) (visits : List Visit) (visit : Visit) : List Decision :=
  ((answered (decideAlone gate) state visits).filter fun entry => entry.1.SharesId visit).map
    Prod.snd

/-- These are the decisions under that id. -/
theorem filter_answered_decideAlone (gate : Gate σ) (state : σ) (visits : List Visit)
    (visit : Visit) :
    ((answered (decideAlone gate) state visits).map Prod.snd).filter
        (fun decision => decision.evaluationId =
          evaluationId visit.now visit.snapshot.requestId?) =
      sharing gate state visits visit := by
  unfold sharing
  rw [List.filter_map]
  refine congrArg (List.map Prod.snd) (List.filter_congr fun entry hentry => ?_)
  have hid := History.forall_mem_answered (decideAlone gate) (P := fun _ => True)
    (Q := fun entry => entry.2.evaluationId =
      evaluationId entry.1.now entry.1.snapshot.requestId?) trivial
    (fun visit state _ => ⟨evaluationId_decideAlone gate visit state, trivial⟩) visits entry hentry
  rw [Function.comp_apply, hid, decide_eq_decide]
  exact evaluationId_eq_iff

/-- The decision on a visit is the latest that shares its id until another visit shares it. -/
theorem getLast?_sharing (gate : Gate σ) (state : σ) (before : List Visit) {visit : Visit}
    {after : List Visit} (h : ∀ later ∈ after, ¬ later.SharesId visit) :
    (sharing gate state (before ++ visit :: after) visit).getLast? =
      some (decideAlone gate visit (stateBehind (decideAlone gate) state before)).1 := by
  have hnone : sharing gate
      (decideAlone gate visit (stateBehind (decideAlone gate) state before)).2 after visit = [] := by
    refine List.map_eq_nil_iff.2 (List.filter_eq_nil_iff.2 fun entry hentry => ?_)
    have hmem : entry.1 ∈ after := by
      rw [← History.map_fst_answered (decideAlone gate) _ after]
      exact List.mem_map_of_mem hentry
    simpa using h entry.1 hmem
  unfold sharing at hnone ⊢
  rw [History.answered_append, answered, List.filter_append, List.map_append, List.filter_cons,
    if_pos (decide_eq_true (Visit.SharesId.refl visit)), List.map_cons, hnone]
  exact List.getLast?_concat

/-! ## Runs -/

/-- Behind visits an audited gate is where the gate alone is, and has its decisions. -/
theorem frames_stateBehind (size : σ → Nat) (audited : AuditedGate σ) (visits : List Visit) :
    (stateBehind (onVisit size) audited visits).gate = audited.gate ∧
      (stateBehind (onVisit size) audited visits).state =
        stateBehind (decideAlone audited.gate) audited.state visits ∧
      (stateBehind (onVisit size) audited visits).kept = audited.kept.map
        (((answered (decideAlone audited.gate) audited.state visits).map Prod.snd).reverse ++ ·) := by
  induction visits using List.reverseRecOn with
  | nil => exact ⟨rfl, rfl, (Option.map_id' (x := audited.kept)).symm⟩
  | append_singleton visits visit ih =>
    obtain ⟨hgate, hstate, hkept⟩ := ih
    rw [History.stateBehind_append_singleton, History.stateBehind_append_singleton,
      History.answered_append_singleton]
    generalize stateBehind (onVisit size) audited visits = behind at hgate hstate hkept
    obtain ⟨hgate', hstate', hkept', -⟩ := behind.frames_evaluateAt visit.id visit.now size
      visit.snapshot visit.later visit.watch
    rw [hgate, hstate] at hstate' hkept'
    refine ⟨hgate'.trans hgate, hstate', hkept'.trans ?_⟩
    rw [hkept, Option.map_map, List.map_append, List.reverse_append]
    rfl

/-- What is answered behind visits is the decision of the gate alone behind them. -/
theorem decision_eq_of_onVisit {size : σ → Nat} {audited : AuditedGate σ} {before : List Visit}
    {visit : Visit} {answer : Answer}
    (h : (onVisit size visit (stateBehind (onVisit size) audited before)).1 = .ok answer) :
    answer.decision = (decideAlone audited.gate visit
      (stateBehind (decideAlone audited.gate) audited.state before)).1 := by
  obtain ⟨hgate, hstate, -⟩ := frames_stateBehind size audited before
  generalize stateBehind (onVisit size) audited before = behind at h hgate hstate
  have hdecision := (behind.frames_evaluateAt visit.id visit.now size visit.snapshot visit.later
    visit.watch).decision_eq answer h
  rw [hdecision, hgate, hstate]
  rfl

/-- Behind visits a query by the id of a visit comes to the latest decision that shares it. -/
theorem findDecision?_stateBehind (gate : Gate σ) (state : σ) (alerting : Option Alerting)
    (metrics : Metrics) (size : σ → Nat) (visits : List Visit) (visit : Visit) :
    (stateBehind (onVisit size) (opening gate state alerting metrics) visits).findDecision?
        (evaluationId visit.now visit.snapshot.requestId?) =
      (sharing gate state visits visit).getLast? := by
  obtain ⟨-, -, hkept⟩ := frames_stateBehind size (opening gate state alerting metrics) visits
  rw [← filter_answered_decideAlone]
  refine findDecision?_of_kept (hkept.trans ?_) _
  exact congrArg some (List.append_nil _)

/-- An answer of a run is found by its id: the query comes to the latest decision of the run on a
visit that shares the id, which is the answer itself if no later visit shares it. -/
theorem findDecision?_onVisit (gate : Gate σ) (state : σ) (alerting : Option Alerting)
    (metrics : Metrics) (size : σ → Nat) {before : List Visit} {visit : Visit} {answer : Answer}
    (hanswer : (onVisit size visit
      (stateBehind (onVisit size) (opening gate state alerting metrics) before)).1 = .ok answer)
    (after : List Visit) :
    let visits := before ++ visit :: after
    let behind := stateBehind (onVisit size) (opening gate state alerting metrics) visits
    behind.findDecision? answer.decision.evaluationId =
        (sharing gate state visits visit).getLast? ∧
      ((∀ later ∈ after, ¬ later.SharesId visit) →
        behind.findDecision? answer.decision.evaluationId = some answer.decision) := by
  intro visits behind
  have hdecision := decision_eq_of_onVisit hanswer
  have hfound : behind.findDecision? answer.decision.evaluationId =
      (sharing gate state visits visit).getLast? := by
    rw [hdecision, evaluationId_decideAlone]
    exact findDecision?_stateBehind gate state alerting metrics size visits visit
  refine ⟨hfound, fun hlater => ?_⟩
  rw [hfound, hdecision]
  exact getLast?_sharing gate state before hlater

/-! ## Sample visits -/

/-- A visit at the start of 1970 with nothing but an intent under this request id. -/
def requestVisit (requestId : String) : Visit :=
  { emptyVisit .epoch with
    snapshot := ⟨some ⟨requestId, "BTC", .long, .hundred, .epoch, none⟩, none, none, none, none,
      none⟩ }

/-- Visits in one microsecond, on request ids with different fronts. -/
theorem findDecision?_onVisit_requestVisits :
    let visits := [requestVisit "first", requestVisit "second"]
    let behind := stateBehind (onVisit fun _ => 0) (opening bareGate () none .zero) visits
    ∃ answer : Answer,
      (onVisit (fun _ => 0) (requestVisit "first") (opening bareGate () none .zero)).1 =
        .ok answer ∧
      (∀ later ∈ [requestVisit "second"], ¬ later.SharesId (requestVisit "first")) ∧
      behind.findDecision? answer.decision.evaluationId = some answer.decision := by
  intro visits behind
  have hfronts : ∀ later ∈ [requestVisit "second"],
      ¬ later.SharesId (requestVisit "first") := by
    decide +kernel
  have hanswer : (onVisit (fun _ => 0) (requestVisit "first")
      (stateBehind (onVisit fun _ => 0) (opening bareGate () none .zero) [])).1 = .ok _ := rfl
  exact ⟨_, hanswer, hfronts,
    (findDecision?_onVisit bareGate () none .zero (fun _ => 0) hanswer _).2 hfronts⟩

/-- Visits in one microsecond, on request ids that differ behind the eighth character: under the id
of the first answer there is another decision. -/
theorem findDecision?_ne_requestVisits :
    let visits := [requestVisit "request-0001", requestVisit "request-0002"]
    let behind := stateBehind (onVisit fun _ => 0) (opening bareGate () none .zero) visits
    ∃ answer : Answer,
      (onVisit (fun _ => 0) (requestVisit "request-0001") (opening bareGate () none .zero)).1 =
        .ok answer ∧
      behind.findDecision? answer.decision.evaluationId ≠ some answer.decision := by
  intro visits behind
  refine ⟨_, rfl, fun hsame => ?_⟩
  have hfound : (behind.findDecision? (evaluationId .epoch (some "request-0001"))).bind
      Decision.requestId? = some "request-0002" := by
    decide +kernel
  have hsame : behind.findDecision? (evaluationId .epoch (some "request-0001")) = some _ := hsame
  rw [hsame] at hfound
  exact absurd hfound (by decide +kernel)

end AuditedGate

end TradeGate
