import Mathlib.Data.List.Forall2
import TradeGate.AuditedGate
import TradeGate.Proofs.Gate.Unmeasured

/-!
# What is kept up to what was measured

The times of an evaluation go on into the alert about it, into the records that are kept, and into
the statistics of the day. Here are alerts, records, stores and audited gates that are alike up to
those times and up to the ids of records. Two audited gates that are alike answer alike, and stay
alike (`AuditedGate.Alike.evaluateAt`), if the sender does not look at the times.
-/

namespace TradeGate

/-! ## Alerts -/

/-- The alert with no number for the time of the evaluation. -/
def Alert.unmeasured (alert : Alert) : Alert := { alert with evaluationTimeMs := .nan }

theorem Alert.ofDecision?_unmeasured (decision : Decision) :
    ofDecision? decision.unmeasured = (ofDecision? decision).map unmeasured := by
  unfold ofDecision? Decision.message?
  rw [Decision.isBlock_unmeasured]
  cases decision.isBlock with
  | false => rfl
  | true =>
    cases hreason : decision.reason with
    | none => simp [Decision.unmeasured, hreason]
    | some reason =>
      simp [Decision.unmeasured, hreason, Details.message?_unmeasured, Alert.unmeasured]

/-- The outcome with no number for the time of the evaluation in its alert. -/
def AlertOutcome.unmeasured : AlertOutcome → AlertOutcome
  | sent alert => sent alert.unmeasured
  | skipped why => skipped why
  | rateLimited alert limit => rateLimited alert.unmeasured limit
  | failed alert failure => failed alert.unmeasured failure
  | noSender alert => noSender alert.unmeasured

/-- A sender replies the same whatever the times in the alerts are. -/
def Sender.IgnoresTimes (send : Sender) : Prop :=
  ∀ {earlier earlier' : List Handover} {handover handover' : Handover},
    earlier.map (·.alert.unmeasured) = earlier'.map (·.alert.unmeasured) →
    handover.alert.unmeasured = handover'.alert.unmeasured →
    send earlier handover = send earlier' handover'

theorem Sender.ignoresTimes_delivering : delivering.IgnoresTimes := fun _ _ => rfl

namespace Notifier

/-- The notifiers are the same, and have handed over the same alerts up to their times. -/
structure Alike (notifier other : Notifier) : Prop where
  policy_eq : notifier.policy = other.policy
  limiter_eq : notifier.limiter = other.limiter
  sender_eq : notifier.sender = other.sender
  handed_eq : notifier.handed.map (·.alert.unmeasured) = other.handed.map (·.alert.unmeasured)

theorem alike_refl (notifier : Notifier) : notifier.Alike notifier := ⟨rfl, rfl, rfl, rfl⟩

theorem admitted_unmeasured (policy : AlertPolicy) (decision : Decision) :
    admitted policy decision.unmeasured = (admitted policy decision).map Alert.unmeasured := by
  unfold admitted
  rw [Alert.ofDecision?_unmeasured]
  split
  · rfl
  · split
    · rfl
    · cases Alert.ofDecision? decision with
      | none => rfl
      | some alert =>
        simp only [Option.map_some]
        split <;> split <;> first | rfl | contradiction

variable {notifier other : Notifier} {alert alert' : Alert} {decision decision' : Decision}

theorem Alike.deliver (h : notifier.Alike other)
    (hsender : ∀ send ∈ other.sender, Sender.IgnoresTimes send)
    (halert : alert.unmeasured = alert'.unmeasured) (now : Instant) :
    (notifier.deliver alert now).1.unmeasured = (other.deliver alert' now).1.unmeasured ∧
      (notifier.deliver alert now).2.Alike (other.deliver alert' now).2 := by
  obtain ⟨policy, limiter, sender, handed⟩ := notifier
  obtain ⟨policy', limiter', sender', handed'⟩ := other
  obtain ⟨rfl, rfl, rfl, hhanded⟩ := h
  cases sender with
  | none => exact ⟨congrArg AlertOutcome.noSender halert, rfl, rfl, rfl, hhanded⟩
  | some send =>
    have hreply : send handed ⟨alert, alert.text⟩ = send handed' ⟨alert', alert'.text⟩ :=
      hsender send rfl hhanded halert
    have hnext : (handed ++ [Handover.mk alert alert.text]).map (·.alert.unmeasured) =
        (handed' ++ [Handover.mk alert' alert'.text]).map (·.alert.unmeasured) := by
      rw [List.map_append, List.map_append, hhanded, List.map_singleton, List.map_singleton, halert]
    have hreason : alert.reason = alert'.reason := (congrArg Alert.reason halert :)
    unfold Notifier.deliver
    dsimp only
    rw [hreply]
    cases send handed' ⟨alert', alert'.text⟩ with
    | ok _ => exact ⟨congrArg AlertOutcome.sent halert, rfl, by rw [hreason], rfl, hnext⟩
    | error failure => exact ⟨congrArg (AlertOutcome.failed · failure) halert, rfl, rfl, rfl, hnext⟩

/-- Told of decisions that are alike, notifiers that are alike answer alike and stay alike. -/
theorem Alike.notify (h : notifier.Alike other)
    (hsender : ∀ send ∈ other.sender, Sender.IgnoresTimes send)
    (hdecision : decision.unmeasured = decision'.unmeasured) (now : Instant) :
    (notifier.notify decision now).1.map AlertOutcome.unmeasured =
        (other.notify decision' now).1.map AlertOutcome.unmeasured ∧
      (notifier.notify decision now).2.Alike (other.notify decision' now).2 := by
  obtain ⟨policy, limiter, sender, handed⟩ := notifier
  obtain ⟨policy', limiter', sender', handed'⟩ := other
  obtain ⟨rfl, rfl, rfl, hhanded⟩ := h
  have hadmitted : (admitted policy decision).map Alert.unmeasured =
      (admitted policy decision').map Alert.unmeasured := by
    rw [← admitted_unmeasured, ← admitted_unmeasured, hdecision]
  unfold Notifier.notify
  dsimp only
  rcases error_or_ok_of_map_eq_map hadmitted with
    ⟨why, hwhy, hwhy'⟩ | ⟨alert, alert', hadmits, hadmits', halert⟩
  · rw [hwhy, hwhy']
    exact ⟨rfl, rfl, rfl, rfl, hhanded⟩
  · have hreason : alert.reason = alert'.reason := (congrArg Alert.reason halert :)
    rw [hadmits, hadmits']
    dsimp only
    rw [hreason]
    obtain ⟨answer, limiter⟩ := limiter.check alert'.reason now
    have hpruned : (Notifier.mk policy limiter sender handed).Alike ⟨policy, limiter, sender, handed'⟩ :=
      ⟨rfl, rfl, rfl, hhanded⟩
    rcases answer with fault | limit | _
    · exact ⟨rfl, hpruned⟩
    · exact ⟨congrArg (fun alert => Except.ok (AlertOutcome.rateLimited alert limit)) halert, hpruned⟩
    · obtain ⟨houtcome, hnext⟩ := hpruned.deliver hsender halert now
      exact ⟨congrArg Except.ok houtcome, hnext⟩

end Notifier

/-! ## Records -/

namespace AlertRecord

/-- The records differ at most in their ids, and in the times in their messages. -/
structure Alike (record other : AlertRecord) : Prop where
  eq_with : { record with id := other.id, message := other.message } = other
  messages : record.message = other.message ∨ ∃ alert alert' : Alert,
    alert.unmeasured = alert'.unmeasured ∧ record.message = alert.text ∧ other.message = alert'.text

theorem alike_refl (record : AlertRecord) : record.Alike record := ⟨rfl, .inl rfl⟩

/-- The record of an alert with these marks. -/
def marked (id : RecordId) (alert : Alert) (now : Instant) (sent rateLimited : Bool)
    (sendError : Option String) : AlertRecord :=
  { fresh id alert.evaluationId tradeBlocked alert.severity alert.title alert.text now with
    sent, rateLimited, sendError }

theorem alike_marked {alert alert' : Alert} (h : alert.unmeasured = alert'.unmeasured)
    (id id' : RecordId) (now : Instant) (sent rateLimited : Bool) (sendError : Option String) :
    (marked id alert now sent rateLimited sendError).Alike
      (marked id' alert' now sent rateLimited sendError) := by
  have hid : alert.evaluationId = alert'.evaluationId := (congrArg Alert.evaluationId h :)
  have hseverity : alert.severity = alert'.severity := (congrArg Alert.severity h :)
  have htitle : alert.title = alert'.title := (congrArg Alert.title h :)
  refine ⟨?_, .inr ⟨alert, alert', h, rfl, rfl⟩⟩
  simp only [marked, fresh, hid, hseverity, htitle]

theorem alike_ofOutcome? {outcome outcome' : AlertOutcome}
    (h : outcome.unmeasured = outcome'.unmeasured) (id id' : RecordId) (now : Instant) :
    Option.Rel Alike (ofOutcome? id outcome now) (ofOutcome? id' outcome' now) := by
  cases outcome <;> cases outcome' <;>
    simp only [AlertOutcome.unmeasured, AlertOutcome.sent.injEq, AlertOutcome.skipped.injEq,
      AlertOutcome.rateLimited.injEq, AlertOutcome.failed.injEq, AlertOutcome.noSender.injEq,
      reduceCtorEq] at h
  case skipped.skipped => exact .none
  case sent.sent => exact .some (alike_marked h id id' now true false none)
  case noSender.noSender => exact .some (alike_marked h id id' now false false (some _))
  case rateLimited.rateLimited => exact .some (alike_marked h.1 id id' now false true none)
  case failed.failed =>
    obtain ⟨halert, rfl⟩ := h
    exact .some (alike_marked halert id id' now false false (some _))

end AlertRecord

/-- The row with no number for the times. -/
def DailyStats.unmeasured (stats : DailyStats) : DailyStats :=
  { stats with avgEvaluationTimeMs := .nan, maxEvaluationTimeMs := .nan }

theorem DailyStats.unmeasured_addDecision {row row' : DailyStats} {decision decision' : Decision}
    (hrow : row.unmeasured = row'.unmeasured)
    (hdecision : decision.unmeasured = decision'.unmeasured) :
    (row.addDecision decision).unmeasured = (row'.addDecision decision').unmeasured := by
  have hadd : ∀ (row : DailyStats) (decision : Decision), (row.addDecision decision).unmeasured =
      (row.unmeasured.addDecision decision.unmeasured).unmeasured := by
    intro row decision
    have hverdict : decision.unmeasured.verdict = decision.verdict := rfl
    unfold DailyStats.addDecision countVerdict
    rw [hverdict]
    cases decision.verdict <;> rfl
  rw [hadd, hadd row', hrow, hdecision]

theorem DailyStats.unmeasured_addAlert {row row' : DailyStats} {alert alert' : AlertRecord}
    (hrow : row.unmeasured = row'.unmeasured) (halert : alert.Alike alert') :
    (row.addAlert alert).unmeasured = (row'.addAlert alert').unmeasured := by
  have hsent : alert.sent = alert'.sent := (congrArg AlertRecord.sent halert.eq_with :)
  have hlimited : alert.rateLimited = alert'.rateLimited :=
    (congrArg AlertRecord.rateLimited halert.eq_with :)
  have hadd : ∀ row : DailyStats, (row.addAlert alert).unmeasured = row.unmeasured.addAlert alert' := by
    intro row
    unfold DailyStats.addAlert DailyStats.unmeasured
    rw [hsent, hlimited]
  rw [hadd, hrow]
  rfl

namespace Store

/-- The stores hold the same decisions, alerts and rows up to what was measured and up to the ids of
alerts. -/
structure Alike (store other : Store) : Prop where
  decisions : store.decisions.map Decision.unmeasured = other.decisions.map Decision.unmeasured
  alerts : List.Forall₂ AlertRecord.Alike store.alerts other.alerts
  days : store.days.map DailyStats.unmeasured = other.days.map DailyStats.unmeasured

theorem alike_refl (store : Store) : store.Alike store :=
  ⟨rfl, List.forall₂_same.2 fun _ _ => AlertRecord.alike_refl _, rfl⟩

theorem unmeasured_changeDay {change change' : DailyStats → DailyStats}
    (hchange : ∀ {row row' : DailyStats}, row.unmeasured = row'.unmeasured →
      (change row).unmeasured = (change' row').unmeasured)
    (date : Date) {days days' : List DailyStats}
    (h : days.map DailyStats.unmeasured = days'.map DailyStats.unmeasured) :
    (changeDay date change days).map DailyStats.unmeasured =
      (changeDay date change' days').map DailyStats.unmeasured := by
  induction days generalizing days' with
  | nil =>
    obtain rfl : days' = [] := List.map_eq_nil_iff.1 h.symm
    exact congrArg ([·]) (hchange rfl)
  | cons row rest ih =>
    cases days' with
    | nil => exact nomatch h
    | cons row' rest' =>
      rw [List.map_cons, List.map_cons] at h
      obtain ⟨hrow, hrest⟩ := List.cons.inj h
      have hdate : row.date = row'.date := (congrArg DailyStats.date hrow :)
      unfold changeDay
      rw [hdate]
      split
      · rw [List.map_cons, List.map_cons, hchange hrow, hrest]
      · split
        · rw [List.map_cons, List.map_cons, List.map_cons, List.map_cons, hrow, hrest,
            hchange rfl]
        · rw [List.map_cons, List.map_cons, hrow, ih hrest]

variable {store other : Store} {decision decision' : Decision} {alert alert' : AlertRecord}

theorem Alike.logDecision (h : store.Alike other)
    (hdecision : decision.unmeasured = decision'.unmeasured) :
    (store.logDecision decision).Alike (other.logDecision decision') := by
  refine ⟨?_, h.alerts, h.days⟩
  show decision.unmeasured :: _ = decision'.unmeasured :: _
  rw [hdecision, h.decisions]

theorem Alike.countDecision (h : store.Alike other)
    (hdecision : decision.unmeasured = decision'.unmeasured) :
    (store.countDecision decision).Alike (other.countDecision decision') := by
  have hdate : decision.timestamp = decision'.timestamp := (congrArg Decision.timestamp hdecision :)
  refine ⟨h.decisions, h.alerts, ?_⟩
  unfold Store.countDecision
  rw [hdate]
  exact unmeasured_changeDay (DailyStats.unmeasured_addDecision · hdecision) _ h.days

theorem Alike.logAlert (h : store.Alike other) (halert : alert.Alike alert') :
    (store.logAlert alert).Alike (other.logAlert alert') := by
  have hdate : alert.createdAt = alert'.createdAt :=
    (congrArg AlertRecord.createdAt halert.eq_with :)
  refine ⟨h.decisions, .cons halert h.alerts, ?_⟩
  unfold Store.logAlert
  rw [hdate]
  exact unmeasured_changeDay (DailyStats.unmeasured_addAlert · halert) _ h.days

end Store

namespace Repository

/-- The stores that queries look at are alike, and both repositories write files or neither. -/
inductive Alike : Repository → Repository → Prop
  | store {store other : Store} (h : store.Alike other) : Alike (.store store) (.store other)
  | journal {journal other : Journal} (h : journal.store.Alike other.store) :
    Alike (.journal journal) (.journal other)

theorem alike_refl (repository : Repository) : repository.Alike repository := by
  cases repository with
  | store store => exact .store store.alike_refl
  | journal journal => exact .journal journal.store.alike_refl

variable {repository other : Repository} {decision decision' : Decision}
  {alert alert' : AlertRecord}

theorem Alike.logDecision (h : repository.Alike other)
    (hdecision : decision.unmeasured = decision'.unmeasured) (now : Instant) :
    (repository.logDecision decision now).2.Alike (other.logDecision decision' now).2 := by
  cases h with
  | store h => exact .store (h.logDecision hdecision)
  | journal h => exact .journal (h.logDecision hdecision)

theorem Alike.countDecision (h : repository.Alike other)
    (hdecision : decision.unmeasured = decision'.unmeasured) :
    (repository.countDecision decision).Alike (other.countDecision decision') := by
  cases h with
  | store h => exact .store (h.countDecision hdecision)
  | journal h => exact .journal (h.countDecision hdecision)

theorem Alike.logAlert (h : repository.Alike other) (halert : alert.Alike alert') (now : Instant) :
    (repository.logAlert alert now).2.Alike (other.logAlert alert' now).2 := by
  cases h with
  | store h => exact .store (h.logAlert halert)
  | journal h => exact .journal (h.logAlert halert)

end Repository

/-! ## Audited gates -/

namespace AuditedGate

variable {σ : Type}

/-- The audited gates are the same up to what was measured and up to the ids of alerts; what is
counted is left out. -/
structure Alike (audited other : AuditedGate σ) : Prop where
  gate_eq : audited.gate = other.gate
  state_eq : audited.state = other.state
  repository : Option.Rel Repository.Alike audited.repository other.repository
  notifier : Option.Rel Notifier.Alike audited.notifier other.notifier

theorem alike_refl (audited : AuditedGate σ) : audited.Alike audited where
  gate_eq := rfl
  state_eq := rfl
  repository := by
    cases audited.repository with
    | none => exact .none
    | some repository => exact .some repository.alike_refl
  notifier := by
    cases audited.notifier with
    | none => exact .none
    | some notifier => exact .some notifier.alike_refl

variable {audited other : AuditedGate σ} {decision decision' : Decision}

theorem Alike.decide (h : audited.Alike other) (size : σ → Nat) (snapshot : Snapshot) (now : Instant)
    {watch watch' : Stopwatch} (htimes : watch.SameSides other.gate.policy.timing watch') :
    (audited.decide size snapshot now watch).1.unmeasured =
        (other.decide size snapshot now watch').1.unmeasured ∧
      (audited.decide size snapshot now watch).2.Alike (other.decide size snapshot now watch').2 := by
  obtain ⟨gate, state, repository, notifier, metrics⟩ := audited
  obtain ⟨gate', state', repository', notifier', metrics'⟩ := other
  obtain ⟨rfl, rfl, hrepository, hnotifier⟩ := h
  obtain ⟨hdecision, hstate⟩ := gate.unmeasured_evaluate snapshot now htimes state
  unfold AuditedGate.decide
  dsimp only at hdecision hstate ⊢
  generalize gate.evaluate snapshot now watch state = result at hdecision hstate ⊢
  generalize gate.evaluate snapshot now watch' state = result' at hdecision hstate ⊢
  exact ⟨hdecision, rfl, hstate, hrepository, hnotifier⟩

theorem Alike.persist (h : audited.Alike other)
    (hdecision : decision.unmeasured = decision'.unmeasured) (now : Instant) :
    (audited.persist decision now).Alike (other.persist decision' now) := by
  obtain ⟨gate, state, repository, notifier, metrics⟩ := audited
  obtain ⟨gate', state', repository', notifier', metrics'⟩ := other
  obtain ⟨hgate, hstate, hrepository, hnotifier⟩ := h
  cases hrepository with
  | none => exact ⟨hgate, hstate, .none, hnotifier⟩
  | some hrepository =>
    exact ⟨hgate, hstate,
      .some ((hrepository.logDecision hdecision now).countDecision hdecision), hnotifier⟩

theorem Alike.keepAlert (h : audited.Alike other) {outcome outcome' : AlertOutcome}
    (houtcome : outcome.unmeasured = outcome'.unmeasured) (id id' : RecordId) (now : Instant) :
    (audited.keepAlert outcome id now).Alike (other.keepAlert outcome' id' now) := by
  have hrecord := AlertRecord.alike_ofOutcome? houtcome id id' now
  obtain ⟨gate, state, repository, notifier, metrics⟩ := audited
  obtain ⟨gate', state', repository', notifier', metrics'⟩ := other
  obtain ⟨hgate, hstate, hrepository, hnotifier⟩ := h
  unfold AuditedGate.keepAlert
  cases hrepository with
  | none => exact ⟨hgate, hstate, .none, hnotifier⟩
  | some hrepository =>
    generalize AlertRecord.ofOutcome? id outcome now = record at hrecord
    generalize AlertRecord.ofOutcome? id' outcome' now = record' at hrecord
    cases hrecord with
    | none => exact ⟨hgate, hstate, .some hrepository, hnotifier⟩
    | some hrecord => exact ⟨hgate, hstate, .some (hrepository.logAlert hrecord now), hnotifier⟩

/-- The sender, if there is one, does not look at times. -/
def IgnoresTimes (audited : AuditedGate σ) : Prop :=
  ∀ notifier ∈ audited.notifier, ∀ send ∈ notifier.sender, Sender.IgnoresTimes send

theorem Alike.alert (h : audited.Alike other) (hsender : other.IgnoresTimes)
    (hdecision : decision.unmeasured = decision'.unmeasured) (id id' : RecordId) (now : Instant) :
    (audited.alert decision id now).1.map (·.map AlertOutcome.unmeasured) =
        (other.alert decision' id' now).1.map (·.map AlertOutcome.unmeasured) ∧
      (audited.alert decision id now).2.Alike (other.alert decision' id' now).2 := by
  obtain ⟨gate, state, repository, notifier, metrics⟩ := audited
  obtain ⟨gate', state', repository', notifier', metrics'⟩ := other
  obtain ⟨hgate, hstate, hrepository, hnotifier⟩ := h
  unfold AuditedGate.alert
  cases hnotifier with
  | none => exact ⟨rfl, hgate, hstate, hrepository, .none⟩
  | @some notifier notifier' hnotifier =>
    obtain ⟨hanswer, hnext⟩ := hnotifier.notify (hsender notifier' rfl) hdecision now
    dsimp only
    generalize notifier.notify decision now = result at hanswer hnext
    generalize notifier'.notify decision' now = result' at hanswer hnext
    obtain ⟨answer, next⟩ := result
    obtain ⟨answer', next'⟩ := result'
    dsimp only at hanswer hnext ⊢
    rcases error_or_ok_of_map_eq_map hanswer with
      ⟨fault, rfl, rfl⟩ | ⟨outcome, outcome', rfl, rfl, houtcome⟩
    · exact ⟨rfl, hgate, hstate, hrepository, .some hnext⟩
    · have htold : Alike (AuditedGate.mk gate state repository (some next)
          (metrics.alert outcome.label)) ⟨gate', state', repository', some next',
            metrics'.alert outcome'.label⟩ := ⟨hgate, hstate, hrepository, .some hnext⟩
      exact ⟨congrArg (fun outcome => Except.ok (some outcome)) houtcome,
        htold.keepAlert houtcome id id' now⟩

/-- The answer with no number for the times that were measured. -/
def Answer.unmeasured (answer : Answer) : Answer :=
  ⟨answer.decision.unmeasured, answer.outcome.map AlertOutcome.unmeasured⟩

/-- Audited gates that are alike answer alike and stay alike, if their times are on the same sides
of the limits. -/
theorem Alike.evaluateAt (h : audited.Alike other) (hsender : other.IgnoresTimes) (size : σ → Nat)
    (snapshot : Snapshot) (now later : Instant) {watch watch' : Stopwatch}
    (htimes : watch.SameSides other.gate.policy.timing watch') (id id' : RecordId) :
    (audited.evaluateAt size snapshot now later watch id).1.map Answer.unmeasured =
        (other.evaluateAt size snapshot now later watch' id').1.map Answer.unmeasured ∧
      (audited.evaluateAt size snapshot now later watch id).2.Alike
        (other.evaluateAt size snapshot now later watch' id').2 := by
  obtain ⟨hdecision, hdecided⟩ := h.decide size snapshot now htimes
  have hpersisted := hdecided.persist hdecision later
  have hblock : (audited.decide size snapshot now watch).1.isBlock =
      (other.decide size snapshot now watch').1.isBlock := (congrArg Decision.isBlock hdecision :)
  have hignores : ((other.decide size snapshot now watch').2.persist
      (other.decide size snapshot now watch').1 later).IgnoresTimes := by
    unfold IgnoresTimes
    rw [notifier_persist]
    exact hsender
  unfold AuditedGate.evaluateAt
  generalize audited.decide size snapshot now watch = decided at *
  generalize other.decide size snapshot now watch' = decided' at *
  obtain ⟨decision, audited⟩ := decided
  obtain ⟨decision', other⟩ := decided'
  dsimp only at *
  rw [hblock]
  split
  · obtain ⟨hanswer, hnext⟩ := hpersisted.alert hignores hdecision id id' later
    refine ⟨?_, hnext⟩
    generalize (AuditedGate.alert _ decision id later).1 = answer at hanswer
    generalize (AuditedGate.alert _ decision' id' later).1 = answer' at hanswer
    rcases error_or_ok_of_map_eq_map hanswer with
      ⟨fault, rfl, rfl⟩ | ⟨outcome, outcome', rfl, rfl, houtcome⟩
    · rfl
    · exact congrArg Except.ok (congrArg₂ Answer.mk hdecision houtcome)
  · exact ⟨congrArg (fun decision => Except.ok (Answer.mk decision none)) hdecision, hpersisted⟩

end AuditedGate

end TradeGate
