import Mathlib.Data.List.Forall2
import TradeGate.AuditedGate
import TradeGate.Proofs.Alert.Notifier
import TradeGate.Proofs.Gate.Untimed

/-!
# What the audited gate keeps

An audited gate is visited again and again, and keeps three histories: the decisions and the alerts
of its store, and what its notifier has handed to the sender. `AuditedGate.Audit` says how they go
with the answers that were given, and that the answers are those of the gate alone. Every run comes to
its end with it (`AuditedGate.exists_audit`), whatever the gate, the sender and the clock do, as long
as the interval of the alerts is one that a policy may have. With a longer one a clock that goes back
can end a run by a fault (`AuditedGate.unanswered_of_steppedBack`).
-/

namespace TradeGate

open History (answered stateBehind)

/-- Every block of a gate has a severity. -/
theorem Gate.exists_severity {σ : Type} (gate : Gate σ) {snapshot : Snapshot} {now : Instant}
    {watch : Stopwatch} {state : σ}
    (h : (gate.evaluate snapshot now watch state).1.decision.verdict = .block) :
    ∃ severity, (gate.evaluate snapshot now watch state).1.decision.severity = some severity := by
  rw [decision_evaluate] at h ⊢
  generalize (gate.run snapshot now watch state).1 = run at h ⊢
  obtain ⟨findings, ending⟩ := run
  cases ending with
  | passed =>
    have h : Verdict.execute = .block := h
    exact nomatch h
  | failed finding => exact ⟨_, rfl⟩
  | stopped finding => exact ⟨_, rfl⟩
  | broken message => exact ⟨_, rfl⟩

namespace AuditedGate

/-- A snapshot to evaluate, the two readings of the clock, the times, and the id for a record. -/
structure Visit where
  snapshot : Snapshot
  now : Instant
  later : Instant
  watch : Stopwatch
  id : RecordId

/-- How the notifier of a gate is set up. -/
structure Alerting where
  policy : AlertPolicy
  sender : Option Sender

section

variable {σ : Type}

/-- The gate alone on a visit. -/
def decideAlone (gate : Gate σ) (visit : Visit) (state : σ) : Decision × σ :=
  let (evaluation, next) := gate.evaluate visit.snapshot visit.now visit.watch state
  (evaluation.decision, next)

/-- The audited gate on a visit. -/
def onVisit (size : σ → Nat) (visit : Visit) (audited : AuditedGate σ) :
    Except SpanFault Answer × AuditedGate σ :=
  audited.evaluateAt size visit.snapshot visit.now visit.later visit.watch visit.id

/-- A gate over an empty store. -/
def opening (gate : Gate σ) (state : σ) (alerting : Option Alerting) (metrics : Metrics) :
    AuditedGate σ where
  gate
  state
  repository := some (.store .empty)
  notifier := alerting.map fun a => .ofPolicy a.policy a.sender
  metrics

end

/-! ## Answers and records -/

/-- An alert was tried. -/
def Answer.told (answer : Answer) : Bool :=
  match answer.outcome with
  | none => false
  | some (.skipped _) => false
  | some _ => true

/-- The handover of the alert, if it was handed to the sender. -/
def Answer.handover? (answer : Answer) : Option Handover :=
  (answer.outcome.bind AlertOutcome.handedOver?).map fun alert => ⟨alert, alert.text⟩

/-- What the record of an alert says of the answer that it is about. -/
structure Tells (answer : Answer) (record : AlertRecord) : Prop where
  block : answer.decision.verdict = .block
  evaluationId : record.evaluationId = answer.decision.evaluationId
  severity : answer.decision.severity = some record.severity
  /-- The text is that of the alert about the decision; it was handed over if anything was. -/
  message : ∃ alert, Alert.ofDecision? answer.decision = some alert ∧ record.message = alert.text ∧
    ∀ handover, answer.handover? = some handover → handover = ⟨alert, record.message⟩
  /-- Just one of the three marks is set. -/
  mark : (record.sent = true ∧ record.rateLimited = false ∧ record.sendError = none) ∨
    (record.sent = false ∧ record.rateLimited = true ∧ record.sendError = none) ∨
    (record.sent = false ∧ record.rateLimited = false ∧
      ∃ text, record.sendError = some text ∧ text ≠ "")
  sent_iff : record.sent = true ↔ ∃ alert, answer.outcome = some (.sent alert)

/-- The sender, which has been handed something before, has said what the outcome says. -/
def Replied (sender : Option Sender) (handed : List Handover) (answer : Answer) : Prop :=
  ∀ alert,
    (answer.outcome = some (.sent alert) →
      ∃ send, sender = some send ∧ send handed ⟨alert, alert.text⟩ = .ok ()) ∧
    ∀ failure, answer.outcome = some (.failed alert failure) →
      ∃ send, sender = some send ∧ send handed ⟨alert, alert.text⟩ = .error failure

/-- What the notifier is told of: the blocks among the decisions, at the second readings. -/
def notices (decisions : List (Visit × Decision)) : List Notice :=
  decisions.filterMap fun (visit, decision) =>
    if decision.isBlock then some ⟨decision, visit.later⟩ else none

/-- How the histories of an audited gate go with its answers, if the gate alone comes to these
decisions. -/
structure Audit (alerting : Option Alerting) (decisions : List (Visit × Decision))
    (answers : List Answer) (store : Store) (handed : List Handover) : Prop where
  /-- The answers are the decisions. -/
  outputs : answers.map Answer.decision = decisions.map Prod.snd
  /-- Each decision is kept once, in order. -/
  kept : store.decisions.reverse = decisions.map Prod.snd
  /-- Just the blocks are told of, if there is a notifier. -/
  tried : ∀ answer ∈ answers,
    answer.outcome.isSome = (alerting.isSome && answer.decision.isBlock)
  /-- The outcomes are those that the notifier comes to. -/
  outcomes : ∀ a, alerting = some a →
    (answered Notifier.onNotice (.ofPolicy a.policy a.sender) (notices decisions)).map Prod.snd =
      (answers.filterMap Answer.outcome).map .ok
  /-- Each alert that was tried is kept once, in order. -/
  alerts : List.Forall₂ Tells (answers.filter Answer.told) store.alerts.reverse
  /-- What the sender has been handed, in order. -/
  handed_eq : handed = answers.filterMap Answer.handover?
  /-- The outcomes are as the sender replied. -/
  replied : ∀ before answer after, answers = before ++ answer :: after →
    Replied (alerting.bind Alerting.sender) (before.filterMap Answer.handover?) answer

/-! ## One visit -/

section Step

variable {σ : Type} {audited : AuditedGate σ} {visit : Visit} {store : Store}

/-- What a visit leaves behind, if this becomes of the alert and of the notifier. -/
structure Leaves (audited : AuditedGate σ) (visit : Visit) (store : Store)
    (outcome : Option AlertOutcome) (notifier : Option Notifier)
    (result : Except SpanFault Answer × AuditedGate σ) : Prop where
  answer : result.1 = .ok ⟨(decideAlone audited.gate visit audited.state).1, outcome⟩
  gate_eq : result.2.gate = audited.gate
  state_eq : result.2.state = (decideAlone audited.gate visit audited.state).2
  notifier_eq : result.2.notifier = notifier
  exists_store : ∃ store', result.2.repository = some (.store store') ∧
    store'.decisions = (decideAlone audited.gate visit audited.state).1 :: store.decisions ∧
    store'.alerts =
      (outcome.bind (AlertRecord.ofOutcome? visit.id · visit.later)).toList ++ store.alerts

/-- A decision that is not told of is kept, and no more. -/
theorem leaves_of_untold (size : σ → Nat) (hstore : audited.repository = some (.store store))
    (h : (decideAlone audited.gate visit audited.state).1.isBlock = false ∨
      audited.notifier = none) :
    Leaves audited visit store none audited.notifier (onVisit size visit audited) := by
  obtain ⟨gate, state, repository, notifier, metrics⟩ := audited
  obtain rfl : repository = some (.store store) := hstore
  unfold onVisit evaluateAt decide persist
  unfold decideAlone at *
  dsimp only [Repository.logDecision] at *
  rcases h with h | rfl
  · rw [h, if_neg Bool.false_ne_true]
    exact ⟨rfl, rfl, rfl, rfl, _, rfl, rfl, rfl⟩
  · split <;> exact ⟨rfl, rfl, rfl, rfl, _, rfl, rfl, rfl⟩

/-- A decision that is told of is kept, and so is the record of what became of the alert. -/
theorem leaves_of_told (size : σ → Nat) (hstore : audited.repository = some (.store store))
    {notifier : Notifier} (hnotifier : audited.notifier = some notifier)
    (hblock : (decideAlone audited.gate visit audited.state).1.isBlock = true)
    {outcome : AlertOutcome}
    (houtcome : (notifier.notify (decideAlone audited.gate visit audited.state).1
      visit.later).1 = .ok outcome) :
    Leaves audited visit store (some outcome)
      (some (notifier.notify (decideAlone audited.gate visit audited.state).1 visit.later).2)
      (onVisit size visit audited) := by
  obtain ⟨gate, state, repository, _, metrics⟩ := audited
  obtain rfl : repository = some (.store store) := hstore
  subst hnotifier
  unfold onVisit evaluateAt decide persist alert
  unfold decideAlone at *
  dsimp only [Repository.logDecision] at *
  rw [if_pos hblock, houtcome]
  unfold keepAlert
  dsimp only [Option.bind_some]
  cases hrecord : AlertRecord.ofOutcome? visit.id outcome visit.later with
  | none => exact ⟨rfl, rfl, rfl, rfl, _, rfl, rfl, by rw [Option.bind_some, hrecord]; rfl⟩
  | some record => exact ⟨rfl, rfl, rfl, rfl, _, rfl, rfl, by rw [Option.bind_some, hrecord]; rfl⟩

end Step

/-! ## One call of the notifier -/

section Told

variable {notifier next : Notifier} {decision : Decision} {now : Instant} {outcome : AlertOutcome}

/-- An alert that was tried is one that the policy wants. -/
theorem wants_of_step (h : notifier.Step decision now (.ok outcome, next)) {alert : Alert}
    (halert : outcome.alert? = some alert) : Notifier.Wants notifier.policy decision alert := by
  cases h with
  | skipped => exact nomatch halert
  | limited hadmitted | unsent hadmitted | failed hadmitted | sent hadmitted =>
    obtain rfl := Option.some.inj halert
    exact Notifier.wants_of_admitted hadmitted

theorem handed_of_step (h : notifier.Step decision now (.ok outcome, next)) :
    next.handed = notifier.handed ++ (Answer.handover? ⟨decision, some outcome⟩).toList := by
  cases h with
  | skipped | limited | unsent => exact (List.append_nil _).symm
  | failed | sent => rfl

theorem replied_of_step (h : notifier.Step decision now (.ok outcome, next)) :
    Replied notifier.sender notifier.handed ⟨decision, some outcome⟩ := by
  intro alert
  cases h with
  | skipped | limited | unsent => exact ⟨nofun, nofun⟩
  | failed _ _ hsender hreply =>
    refine ⟨nofun, fun failure houtcome => ⟨_, hsender, ?_⟩⟩
    obtain ⟨rfl, rfl⟩ : _ = alert ∧ _ = failure := by simpa using houtcome
    exact hreply
  | sent _ _ hsender hreply =>
    refine ⟨fun houtcome => ⟨_, hsender, ?_⟩, nofun⟩
    obtain rfl : _ = alert := by simpa using houtcome
    exact hreply

/-- The record of an outcome tells of the answer. -/
theorem tells_of_step (h : notifier.Step decision now (.ok outcome, next)) {severity : Severity}
    (hseverity : decision.severity = some severity) {id : RecordId} {record : AlertRecord}
    (hrecord : AlertRecord.ofOutcome? id outcome now = some record) :
    Tells ⟨decision, some outcome⟩ record := by
  have hwants : ∀ alert, outcome.alert? = some alert → decision.verdict = .block ∧
      alert.evaluationId = decision.evaluationId ∧ decision.severity = some alert.severity ∧
      Alert.ofDecision? decision = some alert := by
    intro alert halert
    have hwants := (wants_of_step h halert).alert_eq
    obtain ⟨hblock, hid, reason, -, halertSeverity⟩ := Notifier.exists_reason_of_ofDecision? hwants
    rw [hseverity, Option.getD_some] at halertSeverity
    exact ⟨hblock, hid, by rw [hseverity, halertSeverity], hwants⟩
  cases outcome with
  | skipped why => exact nomatch hrecord
  | sent alert =>
    obtain ⟨hblock, hid, hsame, halert⟩ := hwants alert rfl
    obtain rfl := Option.some.inj hrecord
    exact ⟨hblock, hid, hsame, ⟨alert, halert, rfl, fun _ h => (Option.some.inj h).symm⟩,
      Or.inl ⟨rfl, rfl, rfl⟩, iff_of_true rfl ⟨alert, rfl⟩⟩
  | rateLimited alert limit =>
    obtain ⟨hblock, hid, hsame, halert⟩ := hwants alert rfl
    obtain rfl := Option.some.inj hrecord
    exact ⟨hblock, hid, hsame, ⟨alert, halert, rfl, fun _ (h : none = some _) => nomatch h⟩,
      Or.inr (Or.inl ⟨rfl, rfl, rfl⟩), iff_of_false Bool.false_ne_true (fun ⟨_, h⟩ => nomatch h)⟩
  | failed alert failure =>
    obtain ⟨hblock, hid, hsame, halert⟩ := hwants alert rfl
    obtain rfl := Option.some.inj hrecord
    refine ⟨hblock, hid, hsame, ⟨alert, halert, rfl, fun _ h => (Option.some.inj h).symm⟩,
      Or.inr (Or.inr ⟨rfl, rfl, _, rfl, ?_⟩),
      iff_of_false Bool.false_ne_true (fun ⟨_, h⟩ => nomatch h)⟩
    unfold DeliveryFailure.message
    simp
  | noSender alert =>
    obtain ⟨hblock, hid, hsame, halert⟩ := hwants alert rfl
    obtain rfl := Option.some.inj hrecord
    exact ⟨hblock, hid, hsame, ⟨alert, halert, rfl, fun _ (h : none = some _) => nomatch h⟩,
      Or.inr (Or.inr ⟨rfl, rfl, _, rfl, by decide⟩),
      iff_of_false Bool.false_ne_true (fun ⟨_, h⟩ => nomatch h)⟩

/-- An outcome has a record exactly if an alert was tried. -/
theorem told_eq_isSome (decision : Decision) (outcome : AlertOutcome) (id : RecordId)
    (now : Instant) : Answer.told ⟨decision, some outcome⟩ =
      (AlertRecord.ofOutcome? id outcome now).isSome := by
  cases outcome <;> rfl

end Told

/-! ## Visits one after the other -/

section Run

variable {alerting : Option Alerting} {decisions : List (Visit × Decision)}
  {answers : List Answer} {store store' : Store} {handed : List Handover} {visit : Visit}
  {decision : Decision}

theorem audit_nil (alerting : Option Alerting) : Audit alerting [] [] .empty [] where
  outputs := rfl
  kept := rfl
  tried _ h := nomatch h
  outcomes _ _ := rfl
  alerts := .nil
  handed_eq := rfl
  replied before answer after hsplit := by simp at hsplit

theorem notices_append_singleton (decisions : List (Visit × Decision)) (visit : Visit)
    (decision : Decision) : notices (decisions ++ [(visit, decision)]) =
      notices decisions ++ if decision.isBlock then [⟨decision, visit.later⟩] else [] := by
  unfold notices
  rw [List.filterMap_append, History.filterMap_singleton]
  show _ ++ (if decision.isBlock then some (⟨decision, visit.later⟩ : Notice) else none).toList = _
  cases decision.isBlock <;> rfl

/-- A decision that is not told of goes into the audit. -/
theorem Audit.append_untold (h : Audit alerting decisions answers store handed)
    (huntold : alerting = none ∨ decision.isBlock = false)
    (hdecisions : store'.decisions = decision :: store.decisions)
    (halerts : store'.alerts = store.alerts) :
    Audit alerting (decisions ++ [(visit, decision)]) (answers ++ [⟨decision, none⟩]) store'
      handed where
  outputs := by rw [List.map_append, List.map_append, h.outputs]; rfl
  kept := by rw [hdecisions, List.reverse_cons, h.kept, List.map_append]; rfl
  tried := by
    rw [List.forall_mem_append, List.forall_mem_singleton]
    refine ⟨h.tried, ?_⟩
    rcases huntold with rfl | hblock
    · rfl
    · rw [hblock, Bool.and_false]
      rfl
  outcomes := by
    rintro a rfl
    obtain hblock := huntold.resolve_left (Option.some_ne_none a)
    rw [notices_append_singleton, hblock, List.filterMap_append]
    simpa using h.outcomes a rfl
  alerts := by
    rw [List.filter_append, halerts]
    show List.Forall₂ Tells (answers.filter Answer.told ++ []) _
    rw [List.append_nil]
    exact h.alerts
  handed_eq := by
    rw [List.filterMap_append]
    show handed = answers.filterMap Answer.handover? ++ []
    rw [List.append_nil]
    exact h.handed_eq
  replied := History.forall_split_append_singleton h.replied fun alert => ⟨nofun, nofun⟩

/-- A decision that is told of goes into the audit with what became of its alert. -/
theorem Audit.append_told {policy : AlertPolicy} {sender : Option Sender}
    {notifier next : Notifier} {outcome : AlertOutcome} {severity : Severity}
    (h : Audit (some ⟨policy, sender⟩) decisions answers store notifier.handed)
    (hnotifier : notifier = Notifier.behind policy sender (notices decisions))
    (hblock : decision.isBlock = true) (hseverity : decision.severity = some severity)
    (hnotify : notifier.notify decision visit.later = (.ok outcome, next))
    (hdecisions : store'.decisions = decision :: store.decisions)
    (halerts : store'.alerts =
      (AlertRecord.ofOutcome? visit.id outcome visit.later).toList ++ store.alerts) :
    Audit (some ⟨policy, sender⟩) (decisions ++ [(visit, decision)])
      (answers ++ [⟨decision, some outcome⟩]) store' next.handed := by
  have hstep := notifier.step_notify decision visit.later
  rw [hnotify] at hstep
  have hsender : notifier.sender = sender := by
    rw [hnotifier]
    exact (Notifier.suits_behind policy sender _).sender_eq
  constructor
  case outputs =>
    rw [List.map_append, List.map_append, h.outputs]
    rfl
  case kept =>
    rw [hdecisions, List.reverse_cons, h.kept, List.map_append]
    rfl
  case tried =>
    rw [List.forall_mem_append, List.forall_mem_singleton]
    refine ⟨h.tried, ?_⟩
    rw [hblock]
    rfl
  case outcomes =>
    intro a ha
    have houtcomes := h.outcomes a ha
    obtain rfl := Option.some.inj ha
    rw [notices_append_singleton, hblock, if_pos rfl, History.answered_append_singleton,
      List.map_append, houtcomes, List.filterMap_append, List.map_append]
    have hanswer : (Notifier.onNotice ⟨decision, visit.later⟩
        (stateBehind Notifier.onNotice (.ofPolicy policy sender) (notices decisions))).1 =
          .ok outcome := by
      show ((Notifier.behind policy sender (notices decisions)).notify decision visit.later).1 = _
      rw [← hnotifier, hnotify]
    rw [List.map_singleton, hanswer]
    rfl
  case alerts =>
    rw [List.filter_append, halerts, List.reverse_append]
    refine List.rel_append h.alerts ?_
    -- the new answer has a record exactly if its alert was tried
    have htold := told_eq_isSome decision outcome visit.id visit.later
    cases hrecord : AlertRecord.ofOutcome? visit.id outcome visit.later with
    | none =>
      rw [hrecord] at htold
      rw [List.filter_cons_of_neg (by rw [htold]; exact Bool.false_ne_true)]
      exact .nil
    | some record =>
      rw [hrecord] at htold
      rw [List.filter_cons_of_pos htold]
      exact .cons (tells_of_step hstep hseverity hrecord) .nil
  case handed_eq =>
    rw [handed_of_step hstep, h.handed_eq, List.filterMap_append, History.filterMap_singleton]
  case replied =>
    refine History.forall_split_append_singleton h.replied ?_
    rw [← h.handed_eq, Option.bind_some, ← hsender]
    exact replied_of_step hstep

variable {σ : Type}

/-- An audited gate behind visits, if the gate alone comes to these decisions and this state. -/
structure Accords (gate : Gate σ) (alerting : Option Alerting) (decisions : List (Visit × Decision))
    (state : σ) (answers : List Answer) (audited : AuditedGate σ) : Prop where
  gate_eq : audited.gate = gate
  state_eq : audited.state = state
  notifier_eq : audited.notifier =
    alerting.map fun a => .behind a.policy a.sender (notices decisions)
  exists_audit : ∃ store, audited.repository = some (.store store) ∧
    Audit alerting decisions answers store ((audited.notifier.map Notifier.handed).getD [])

theorem accords_opening (gate : Gate σ) (state : σ) (alerting : Option Alerting)
    (metrics : Metrics) :
    Accords gate alerting [] state [] (opening gate state alerting metrics) where
  gate_eq := rfl
  state_eq := rfl
  notifier_eq := rfl
  exists_audit := by
    refine ⟨.empty, rfl, ?_⟩
    cases alerting <;> exact audit_nil _

/-- One more visit is answered, and goes into the audit. -/
theorem Accords.onVisit {gate : Gate σ} {state : σ} {audited : AuditedGate σ}
    (h : Accords gate alerting decisions state answers audited)
    (hinterval : ∀ a, alerting = some a → a.policy.minAlertIntervalSeconds.toNat ≤ maxWindowSeconds)
    (size : σ → Nat) (visit : Visit) :
    ∃ answer, (onVisit size visit audited).1 = .ok answer ∧
      Accords gate alerting (decisions ++ [(visit, (decideAlone gate visit state).1)])
        (decideAlone gate visit state).2 (answers ++ [answer]) (onVisit size visit audited).2 := by
  obtain ⟨rfl, rfl, hnotifier, store, hstore, haudit⟩ := h
  by_cases huntold : alerting = none ∨
      (decideAlone audited.gate visit audited.state).1.isBlock = false
  · -- nobody is told, or there is nothing to tell
    have hquiet : (decideAlone audited.gate visit audited.state).1.isBlock = false ∨
        audited.notifier = none := by
      refine huntold.symm.imp_right fun hnone => ?_
      rw [hnotifier, hnone]
      rfl
    obtain ⟨hanswer, hgate, hstate, hsame, store', hstore', hdecisions, halerts⟩ :=
      leaves_of_untold size hstore hquiet
    refine ⟨_, hanswer, hgate, hstate, ?_, store', hstore', ?_⟩
    · rw [hsame, hnotifier]
      rcases huntold with rfl | hblock
      · rfl
      · rw [notices_append_singleton, hblock, if_neg Bool.false_ne_true, List.append_nil]
    · rw [hsame]
      exact haudit.append_untold huntold hdecisions halerts
  · -- a block, and a notifier that is told of it and answers
    rw [not_or, Bool.not_eq_false] at huntold
    obtain ⟨⟨policy, sender⟩, rfl⟩ := Option.ne_none_iff_exists'.1 huntold.1
    generalize hbehind : Notifier.behind policy sender (notices decisions) = notifier
    have hnotifier : audited.notifier = some notifier := by rw [hnotifier, ← hbehind]; rfl
    have hsuits : Notifier.Suits policy sender notifier := hbehind ▸ Notifier.suits_behind _ _ _
    obtain ⟨outcome, houtcome⟩ := hsuits.exists_notify_eq_ok (hinterval _ rfl)
      (decideAlone audited.gate visit audited.state).1 visit.later
    obtain ⟨hanswer, hgate, hstate, hnext, store', hstore', hdecisions, halerts⟩ :=
      leaves_of_told size hstore hnotifier huntold.2 houtcome
    obtain ⟨severity, hseverity⟩ := audited.gate.exists_severity (of_decide_eq_true huntold.2)
    refine ⟨_, hanswer, hgate, hstate, ?_, store', hstore', ?_⟩
    · rw [hnext, notices_append_singleton, if_pos huntold.2]
      show some _ = some (Notifier.behind policy sender _)
      rw [Notifier.behind_append_singleton, hbehind]
    · rw [hnotifier] at haudit
      rw [hnext]
      exact haudit.append_told hbehind.symm huntold.2 hseverity
        (Prod.ext houtcome rfl) hdecisions halerts

/-- Visits of an audited gate over an empty store are carried out to the last. The answers are those
of the gate alone, and decisions, alerts and handovers are kept as the audit asks. -/
theorem exists_audit (gate : Gate σ) (state : σ) (alerting : Option Alerting) (metrics : Metrics)
    (size : σ → Nat) (visits : List Visit)
    (hinterval : ∀ a, alerting = some a →
      a.policy.minAlertIntervalSeconds.toNat ≤ maxWindowSeconds) :
    ∃ answers audited store,
      untilFault (onVisit size) visits (opening gate state alerting metrics) =
        (.ok answers, audited) ∧
      audited.repository = some (.store store) ∧
      Audit alerting (answered (decideAlone gate) state visits) answers store
        ((audited.notifier.map Notifier.handed).getD []) := by
  suffices haccords : ∃ answers,
      (answered (onVisit size) (opening gate state alerting metrics) visits).map Prod.snd =
        answers.map .ok ∧
      Accords gate alerting (answered (decideAlone gate) state visits)
        (stateBehind (decideAlone gate) state visits) answers
        (stateBehind (onVisit size) (opening gate state alerting metrics) visits) by
    obtain ⟨answers, hanswers, haccords⟩ := haccords
    obtain ⟨store, hstore, haudit⟩ := haccords.exists_audit
    exact ⟨answers, _, store, (History.untilFault_eq_ok_iff _).2 ⟨hanswers, rfl⟩, hstore, haudit⟩
  induction visits using List.reverseRecOn with
  | nil => exact ⟨[], rfl, accords_opening gate state alerting metrics⟩
  | append_singleton visits visit ih =>
    obtain ⟨answers, hanswers, haccords⟩ := ih
    obtain ⟨answer, hanswer, hnext⟩ := haccords.onVisit hinterval size visit
    refine ⟨answers ++ [answer], ?_, ?_⟩
    · rw [History.answered_append_singleton, List.map_append, List.map_append, hanswers,
        List.map_singleton, hanswer]
      rfl
    · rw [History.answered_append_singleton, History.stateBehind_append_singleton,
        History.stateBehind_append_singleton]
      exact hnext

end Run

/-! ## Sample visits -/

/-- A visit with nothing to evaluate, which is a block. -/
def emptyVisit (now : Instant) : Visit where
  snapshot := ⟨none, none, none, none, none, none⟩
  now
  later := now
  watch := .still
  id := .ofNat 0

/-- An accepted gate without validators. -/
def bareGate : Gate Unit := ⟨.standard, by decide +kernel, []⟩

/-- Alerts about all blocks, with this interval. -/
def alertingEvery (interval : UInt64) : Alerting where
  policy := { AlertPolicy.standard with minAlertIntervalSeconds := interval }
  sender := some .delivering

/-- Two blocks at one instant, with a minute between alerts. -/
theorem exists_audit_emptyVisits :
    ∃ answers audited store,
      untilFault (onVisit fun _ => 0) [emptyVisit .epoch, emptyVisit .epoch]
        (opening bareGate () (some (alertingEvery 60)) .zero) = (.ok answers, audited) ∧
      audited.repository = some (.store store) ∧
      Audit (some (alertingEvery 60))
        (answered (decideAlone bareGate) () [emptyVisit .epoch, emptyVisit .epoch]) answers store
        ((audited.notifier.map Notifier.handed).getD []) := by
  refine exists_audit bareGate () _ .zero (fun _ => 0) _ fun a ha => ?_
  rw [← Option.some.inj ha]
  decide

/-- With the longest interval and a clock that goes back a second, the second visit ends the run by a
fault. Its decision has been kept by then, and no alert about it. -/
theorem unanswered_of_steppedBack :
    let run := untilFault (onVisit fun _ => 0) [emptyVisit .secondAfterEpoch, emptyVisit .epoch]
      (opening bareGate () (some (alertingEvery 9223372036854775)) .zero)
    (∀ answers, run.1 ≠ .ok answers) ∧
      run.2.repository.map (fun repository =>
        (repository.view.decisions.length, repository.view.alerts.length)) = some (2, 1) := by
  intro run
  have hfault : run.1.isOk = false := by decide +kernel
  refine ⟨fun answers hanswers => ?_, by decide +kernel⟩
  rw [hanswers] at hfault
  exact nomatch hfault

end AuditedGate

end TradeGate
