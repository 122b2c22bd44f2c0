import TradeGate.Proofs.Alert.Notifier
import TradeGate.Proofs.Gate.Objection
import TradeGate.Service.Basic

/-!
# Every evaluation of a service is answered

The gate of a service is that of its policy, which is accepted, its notifier is set up by that policy,
and no evaluation changes this (`Service.Sound`, `Service.sound_of_start`). So the interval of its alerts is one for
which every time that remains can be told, and every evaluation is answered
(`Service.Sound.evaluate`).
-/

namespace TradeGate

namespace AuditedGate

variable {σ : Type} {audited : AuditedGate σ} {notifier : Notifier} {policy : AlertPolicy}
  {sender : Option Sender} (hnotifier : audited.notifier = some notifier)
  (hsuits : Notifier.Suits policy sender notifier)
  (hinterval : policy.minAlertIntervalSeconds.toNat ≤ maxWindowSeconds)

/-- Something is answered, the gate is kept, and so is the way in which the notifier is set up. -/
structure Answered {α : Type} (policy : AlertPolicy) (sender : Option Sender)
    (audited : AuditedGate σ) (result : Except SpanFault α × AuditedGate σ) : Prop where
  answer : ∃ answer, result.1 = .ok answer
  gate_eq : result.2.gate = audited.gate
  notifier : ∃ next, result.2.notifier = some next ∧ Notifier.Suits policy sender next

include hnotifier hsuits hinterval

theorem answered_alert (decision : Decision) (id : RecordId) (now : Instant) :
    Answered policy sender audited (audited.alert decision id now) := by
  obtain ⟨outcome, houtcome⟩ := hsuits.exists_notify_eq_ok hinterval decision now
  have hnext := hsuits.notify decision now
  unfold alert
  rw [hnotifier]
  dsimp only
  generalize notifier.notify decision now = result at houtcome hnext
  obtain ⟨answer, next⟩ := result
  obtain rfl : answer = .ok outcome := houtcome
  exact ⟨⟨_, rfl⟩, gate_keepAlert .., next, notifier_keepAlert .., hnext⟩

/-- An evaluation is answered, if the notifier is one that an accepted policy may have. -/
theorem answered_evaluateAt (size : σ → Nat) (snapshot : Snapshot) (now later : Instant)
    (watch : Stopwatch) (id : RecordId) :
    Answered policy sender audited (audited.evaluateAt size snapshot now later watch id) := by
  have hdecided : (audited.decide size snapshot now watch).2.gate = audited.gate ∧
      (audited.decide size snapshot now watch).2.notifier = some notifier := ⟨rfl, hnotifier⟩
  unfold evaluateAt
  generalize audited.decide size snapshot now watch = decided at hdecided
  obtain ⟨decision, decided⟩ := decided
  obtain ⟨hgate, hsame⟩ := hdecided
  have hpersisted : (decided.persist decision later).notifier = some notifier :=
    (notifier_persist ..).trans hsame
  dsimp only
  split
  · obtain ⟨⟨outcome, houtcome⟩, halert, hnext⟩ :=
      answered_alert hpersisted hsuits hinterval decision id later
    exact ⟨⟨_, congrArg (Except.map _) houtcome⟩,
      halert.trans ((gate_persist ..).trans hgate), hnext⟩
  · exact ⟨⟨_, rfl⟩, (gate_persist ..).trans hgate, notifier, hpersisted, hsuits⟩

end AuditedGate

namespace Service

/-- The gate of a service is the one of its policy, and its notifier is set up by that policy and by
the settings. -/
structure Sound (service : Service) : Prop where
  gate_eq : Gate.ofPolicy service.audited.gate.policy = .ok service.audited.gate
  exists_notifier : ∃ notifier, service.audited.notifier = some notifier ∧
    Notifier.Suits service.audited.gate.policy.alerting (sender service.settings.alerts) notifier

/-- A service that was set up has the gate of its policy, with the window and a notifier for that
policy. -/
theorem gate_of_start {settings : Settings} {preset : Option Preset} {directory : Directory}
    {service : Service} (h : start settings preset directory = .ok service) :
    Gate.ofPolicy service.audited.gate.policy = .ok service.audited.gate ∧
      service.audited.state = Gate.window service.audited.gate.policy ∧
      service.audited.notifier = some (.ofPolicy service.audited.gate.policy.alerting
        (sender service.settings.alerts)) := by
  unfold start at h
  simp only [bind, Except.bind] at h
  split at h
  · exact nomatch h
  · rename_i policy hpolicy
    split at h
    · exact nomatch h
    · rename_i gate hgate
      obtain rfl := Except.ok.inj h
      cases hof : Gate.ofPolicy policy with
      | error error =>
        rw [hof] at hgate
        exact nomatch hgate
      | ok made =>
        rw [hof] at hgate
        obtain rfl : made = gate := Except.ok.inj hgate
        dsimp only
        rw [(Gate.eq_of_ofPolicy hof).1]
        exact ⟨hof, rfl, rfl⟩

/-- A service that was set up is sound. -/
theorem sound_of_start {settings : Settings} {preset : Option Preset} {directory : Directory}
    {service : Service} (h : start settings preset directory = .ok service) : service.Sound :=
  ⟨(gate_of_start h).1, _, (gate_of_start h).2.2, Notifier.suits_ofPolicy _ _⟩

/-- Every evaluation of a sound service is answered, and leaves it sound under the same gate. -/
theorem Sound.evaluate {service : Service} (h : service.Sound) (snapshot : Snapshot)
    (moment : Moment) :
    (∃ decision, (service.evaluate snapshot moment).1 = .ok decision) ∧
      (service.evaluate snapshot moment).2.audited.gate = service.audited.gate ∧
      (service.evaluate snapshot moment).2.Sound := by
  obtain ⟨notifier, hnotifier, hsuits⟩ := h.exists_notifier
  have hinterval := Policy.minAlertIntervalSeconds_le service.audited.gate.accepted
  obtain ⟨⟨answer, hanswer⟩, hgate, hnext⟩ := AuditedGate.answered_evaluateAt hnotifier hsuits
    hinterval ReplayWindow.size snapshot moment.now moment.later moment.watch moment.id
  refine ⟨⟨_, congrArg (Except.map _) hanswer⟩, hgate, ?_⟩
  unfold Service.evaluate
  constructor
  · dsimp only
    rw [hgate]
    exact h.gate_eq
  · dsimp only
    rw [hgate]
    exact hnext

end Service

end TradeGate
