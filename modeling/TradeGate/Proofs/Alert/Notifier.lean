import TradeGate.Alert.Notifier
import TradeGate.Proofs.Alert.Limiter
import TradeGate.Proofs.History
import TradeGate.Proofs.Policy.Accepted

/-!
# Notifications over the life of a notifier

A notifier is told of decisions one after the other. `Notifier.Step` lists how one call can end, and
all that is proved of a call goes through it. Whatever the clock does, a call hands at most one
alert to the sender, and only one that the policy wants told (`Notifier.Turn`). Under a clock that
does not go back and does not read inside a leap second, what has been delivered keeps the limits of
the policy (`Notifier.KeepsLimits`).
-/

namespace TradeGate

open History (answered stateBehind)
open Limiter (Delivery)

/-- A decision, and when the notifier is told of it. -/
structure Notice where
  decision : Decision
  now : Instant

namespace Notifier

/-! ## One call -/

/-- The notifier with its limiter pruned to an instant. -/
def pruned (notifier : Notifier) (now : Instant) : Notifier :=
  { notifier with limiter := notifier.limiter.prune now }

/-- The notifier after one more handover. -/
def handing (notifier : Notifier) (alert : Alert) : Notifier :=
  { notifier with handed := notifier.handed ++ [⟨alert, alert.text⟩] }

/-- The notifier after a delivery. -/
def noting (notifier : Notifier) (reason : Reason) (now : Instant) : Notifier :=
  { notifier with limiter := notifier.limiter.record reason now }

/-- How a call can end. -/
inductive Step (notifier : Notifier) (decision : Decision) (now : Instant) :
    Except SpanFault AlertOutcome × Notifier → Prop
  | skipped {why : SkipReason} (hadmitted : admitted notifier.policy decision = .error why) :
    Step notifier decision now (.ok (.skipped why), notifier)
  | faulted {alert : Alert} {fault : SpanFault}
    (hadmitted : admitted notifier.policy decision = .ok alert)
    (hcheck : (notifier.limiter.prune now).checkPruned alert.reason now = .error fault) :
    Step notifier decision now (.error fault, notifier.pruned now)
  | limited {alert : Alert} {limit : LimitExceeded}
    (hadmitted : admitted notifier.policy decision = .ok alert)
    (hcheck : (notifier.limiter.prune now).checkPruned alert.reason now = .ok (.error limit)) :
    Step notifier decision now (.ok (.rateLimited alert limit), notifier.pruned now)
  | unsent {alert : Alert} (hadmitted : admitted notifier.policy decision = .ok alert)
    (hcheck : (notifier.limiter.prune now).checkPruned alert.reason now = .ok (.ok ()))
    (hsender : notifier.sender = none) :
    Step notifier decision now (.ok (.noSender alert), notifier.pruned now)
  | failed {alert : Alert} {sender : Sender} {failure : DeliveryFailure}
    (hadmitted : admitted notifier.policy decision = .ok alert)
    (hcheck : (notifier.limiter.prune now).checkPruned alert.reason now = .ok (.ok ()))
    (hsender : notifier.sender = some sender)
    (hreply : sender notifier.handed ⟨alert, alert.text⟩ = .error failure) :
    Step notifier decision now (.ok (.failed alert failure), (notifier.pruned now).handing alert)
  | sent {alert : Alert} {sender : Sender}
    (hadmitted : admitted notifier.policy decision = .ok alert)
    (hcheck : (notifier.limiter.prune now).checkPruned alert.reason now = .ok (.ok ()))
    (hsender : notifier.sender = some sender)
    (hreply : sender notifier.handed ⟨alert, alert.text⟩ = .ok ()) :
    Step notifier decision now
      (.ok (.sent alert), ((notifier.pruned now).handing alert).noting alert.reason now)

theorem step_notify (notifier : Notifier) (decision : Decision) (now : Instant) :
    notifier.Step decision now (notifier.notify decision now) := by
  obtain ⟨policy, limiter, sender, handed⟩ := notifier
  unfold notify Limiter.check
  cases hadmitted : admitted policy decision with
  | error why => exact .skipped hadmitted
  | ok alert =>
    dsimp only
    cases hcheck : (limiter.prune now).checkPruned alert.reason now with
    | error fault => exact .faulted hadmitted hcheck
    | ok answer =>
      cases answer with
      | error limit => exact .limited hadmitted hcheck
      | ok _ =>
        unfold deliver
        cases sender with
        | none => exact .unsent hadmitted hcheck rfl
        | some sender =>
          dsimp only
          cases hreply : sender handed ⟨alert, alert.text⟩ with
          | error failure => exact .failed hadmitted hcheck rfl hreply
          | ok _ => exact .sent hadmitted hcheck rfl hreply

variable {notifier : Notifier} {decision : Decision} {now : Instant}

/-- The policy wants this alert told of a decision. -/
structure Wants (policy : AlertPolicy) (decision : Decision) (alert : Alert) : Prop where
  enabled : policy.enabled = true
  alertOnBlock : policy.alertOnBlock = true
  block : decision.verdict = .block
  /-- The alert has the severity of the decision, or the one that goes with its reason. -/
  severity : ∃ reason, decision.reason = some reason ∧
    alert.severity = decision.severity.getD reason.defaultSeverity
  severe : policy.minSeverityForAlert ≤ alert.severity
  alert_eq : Alert.ofDecision? decision = some alert

theorem exists_reason_of_ofDecision? {alert : Alert} (h : Alert.ofDecision? decision = some alert) :
    decision.verdict = .block ∧ alert.evaluationId = decision.evaluationId ∧
      ∃ reason, decision.reason = some reason ∧
        alert.severity = decision.severity.getD reason.defaultSeverity := by
  unfold Alert.ofDecision? at h
  by_cases hblock : decision.isBlock = true
  · rw [if_pos hblock] at h
    obtain ⟨reason, hreason, halert⟩ := Option.bind_eq_some_iff.1 h
    rw [← Option.some.inj halert]
    exact ⟨of_decide_eq_true hblock, rfl, reason, hreason, rfl⟩
  · rw [if_neg hblock] at h
    exact nomatch h

theorem wants_of_admitted {policy : AlertPolicy} {alert : Alert}
    (h : admitted policy decision = .ok alert) : Wants policy decision alert := by
  unfold admitted at h
  by_cases henabled : policy.enabled = true
  · by_cases hon : policy.alertOnBlock = true
    · rw [henabled, hon] at h
      cases halert : Alert.ofDecision? decision with
      | none =>
        rw [halert] at h
        exact nomatch h
      | some found =>
        rw [halert] at h
        simp only [Bool.not_true, Bool.false_eq_true, if_false] at h
        split at h
        · exact nomatch h
        · rename_i hsevere
          obtain rfl : found = alert := Except.ok.inj h
          obtain ⟨hblock, -, hseverity⟩ := exists_reason_of_ofDecision? halert
          exact ⟨henabled, hon, hblock, hseverity, Nat.not_lt.1 hsevere, halert⟩
    · simp [henabled, hon] at h
  · simp [henabled] at h

variable {policy : AlertPolicy} {sender : Option Sender}

/-- What no call changes. -/
structure Suits (policy : AlertPolicy) (sender : Option Sender) (notifier : Notifier) : Prop where
  policy_eq : notifier.policy = policy
  sender_eq : notifier.sender = sender
  minInterval_eq : notifier.limiter.minInterval =
    min policy.minAlertIntervalSeconds.toNat Limiter.maxSeconds * nanosPerSecond
  maxPerHour_eq : notifier.limiter.maxPerHour = policy.maxAlertsPerHour

theorem suits_ofPolicy (policy : AlertPolicy) (sender : Option Sender) :
    Suits policy sender (ofPolicy policy sender) :=
  ⟨rfl, rfl, rfl, rfl⟩

theorem Suits.notify (h : Suits policy sender notifier) (decision : Decision) (now : Instant) :
    Suits policy sender (notifier.notify decision now).2 := by
  obtain ⟨hpolicy, hsender, hinterval, hmax⟩ := h
  have hstep := step_notify notifier decision now
  generalize notifier.notify decision now = result at hstep
  cases hstep <;> exact ⟨hpolicy, hsender, hinterval, hmax⟩

/-- A call is answered, whatever the clock reads. -/
theorem Suits.exists_notify_eq_ok (h : Suits policy sender notifier)
    (hinterval : policy.minAlertIntervalSeconds.toNat ≤ maxWindowSeconds) (decision : Decision)
    (now : Instant) : ∃ outcome, (notifier.notify decision now).1 = .ok outcome := by
  have hlow : 0 ≤ notifier.limiter.minInterval := by
    rw [h.minInterval_eq]
    unfold nanosPerSecond
    omega
  have hhigh : notifier.limiter.minInterval ≤ maxWindowSeconds * nanosPerSecond := by
    rw [h.minInterval_eq]
    unfold nanosPerSecond
    omega
  have hstep := step_notify notifier decision now
  generalize notifier.notify decision now = result at hstep
  cases hstep with
  | skipped | limited | unsent | failed | sent => exact ⟨_, rfl⟩
  | @faulted alert fault _ hcheck =>
    obtain ⟨answer, hanswer⟩ :=
      (notifier.limiter.prune now).exists_checkPruned hlow hhigh alert.reason now
    rw [hanswer] at hcheck
    exact nomatch hcheck

/-- What a call does to the sender, which has been handed something before: nothing, and then
nothing is delivered, or one handover that the policy wants, which is a delivery if the sender says
so. -/
def Turn (policy : AlertPolicy) (sender : Option Sender) (handed : List Handover)
    (decision : Decision) (result : Except SpanFault AlertOutcome × Notifier) : Prop :=
  (result.2.handed = handed ∧ ∀ alert, result.1 ≠ .ok (.sent alert)) ∨
  ∃ send alert, sender = some send ∧ result.2.handed = handed ++ [⟨alert, alert.text⟩] ∧
    Wants policy decision alert ∧
    (result.1 = .ok (.sent alert) ↔ send handed ⟨alert, alert.text⟩ = .ok ())

theorem Suits.turn (h : Suits policy sender notifier) (decision : Decision) (now : Instant) :
    Turn policy sender notifier.handed decision (notifier.notify decision now) := by
  have hstep := step_notify notifier decision now
  generalize notifier.notify decision now = result at hstep
  obtain ⟨rfl, rfl, -, -⟩ := h
  cases hstep with
  | skipped | faulted | limited | unsent => exact Or.inl ⟨rfl, fun _ h => nomatch h⟩
  | failed hadmitted _ hsender hreply =>
    refine Or.inr ⟨_, _, hsender, rfl, wants_of_admitted hadmitted, ?_⟩
    rw [hreply]
    exact iff_of_false (fun h => nomatch h) (fun h => nomatch h)
  | sent hadmitted _ hsender hreply =>
    exact Or.inr ⟨_, _, hsender, rfl, wants_of_admitted hadmitted, iff_of_true rfl hreply⟩

/-! ## Calls one after the other -/

/-- A call of the notifier. -/
def onNotice (notice : Notice) (notifier : Notifier) : Except SpanFault AlertOutcome × Notifier :=
  notifier.notify notice.decision notice.now

/-- The delivery that a call makes. -/
def delivery? : Notice × Except SpanFault AlertOutcome → Option Delivery
  | (notice, .ok (.sent alert)) => some (alert.reason, notice.now)
  | _ => none

section Run

variable (policy : AlertPolicy) (sender : Option Sender)

/-- The notifier behind its first calls. -/
def behind (notices : List Notice) : Notifier :=
  stateBehind onNotice (ofPolicy policy sender) notices

/-- The deliveries of the first calls of a notifier, in order. -/
def deliveries (notices : List Notice) : List Delivery :=
  (answered onNotice (ofPolicy policy sender) notices).filterMap delivery?

/-- What is delivered keeps the limits of the policy. -/
structure KeepsLimits (notices : List Notice) : Prop where
  /-- In every hour that is open at one end there are no more deliveries than the policy allows. -/
  hourly : ∀ start : Int,
    ((deliveries policy sender notices).countP fun d =>
      start < d.2.unixNanos ∧ d.2.unixNanos ≤ start + Limiter.hour) ≤
        policy.maxAlertsPerHour.toNat ∧
    ((deliveries policy sender notices).countP fun d =>
      start ≤ d.2.unixNanos ∧ d.2.unixNanos < start + Limiter.hour) ≤
        policy.maxAlertsPerHour.toNat
  /-- Two deliveries for one reason are no nearer than the policy says. -/
  apart : (deliveries policy sender notices).Pairwise fun earlier later =>
    earlier.1 = later.1 →
      policy.minAlertIntervalSeconds.toNat * nanosPerSecond ≤ later.2.nanosSince earlier.2

/-- Every call is answered, and takes its turn with the sender. -/
structure HandsOver (notices : List Notice) : Prop where
  answers : ∀ before notice after, notices = before ++ notice :: after →
    ∃ outcome, ((behind policy sender before).notify notice.decision notice.now).1 = .ok outcome
  turns : ∀ before notice after, notices = before ++ notice :: after →
    Turn policy sender (behind policy sender before).handed notice.decision
      ((behind policy sender before).notify notice.decision notice.now)

variable {policy sender}

theorem behind_append_singleton (notices : List Notice) (notice : Notice) :
    behind policy sender (notices ++ [notice]) =
      ((behind policy sender notices).notify notice.decision notice.now).2 :=
  History.stateBehind_append_singleton _ _ _ _

theorem deliveries_append_singleton (notices : List Notice) (notice : Notice) :
    deliveries policy sender (notices ++ [notice]) = deliveries policy sender notices ++
      (delivery? (notice,
        ((behind policy sender notices).notify notice.decision notice.now).1)).toList := by
  unfold deliveries
  rw [History.answered_append_singleton, List.filterMap_append]
  exact congrArg _ (History.filterMap_singleton _ _)

variable (policy sender) in
theorem suits_behind (notices : List Notice) :
    Suits policy sender (behind policy sender notices) :=
  History.stateBehind_invariant onNotice (suits_ofPolicy policy sender)
    (fun notice _ hsuits => hsuits.notify notice.decision notice.now) notices

theorem Step.keeps {delivered : List Delivery} (hkeeps : notifier.limiter.Keeps delivered now)
    (hnow : now.isLeap = false) {result : Except SpanFault AlertOutcome × Notifier}
    (h : notifier.Step decision now result) :
    result.2.limiter.Keeps (delivered ++ (delivery? (⟨decision, now⟩, result.1)).toList) now := by
  have hpruned := hkeeps.prune hnow
  cases h with
  | skipped =>
    show notifier.limiter.Keeps (delivered ++ []) now
    rwa [List.append_nil]
  | faulted | limited | unsent | failed =>
    show (notifier.limiter.prune now).Keeps (delivered ++ []) now
    rwa [List.append_nil]
  | sent _ hcheck => exact hpruned.record hnow hcheck

theorem exists_le_now {notices : List Notice}
    (hsorted : (notices.map Notice.now).Pairwise (· ≤ ·)) :
    ∃ now, ∀ notice ∈ notices, notice.now ≤ now := by
  rcases List.eq_nil_or_concat notices with rfl | ⟨before, last, rfl⟩
  · exact ⟨.epoch, fun _ h => nomatch h⟩
  · rw [List.concat_eq_append, List.map_append, List.map_singleton, List.pairwise_append] at hsorted
    refine ⟨last.now, ?_⟩
    rw [List.concat_eq_append, List.forall_mem_append, List.forall_mem_singleton]
    exact ⟨fun notice hmem => hsorted.2.2 _ (List.mem_map_of_mem hmem) _ List.mem_cons_self,
      Int.le_refl _⟩

variable (policy sender) in
/-- Under such a clock the deliveries keep the limits of the limiter. -/
theorem keeps_behind {notices : List Notice} (hsorted : (notices.map Notice.now).Pairwise (· ≤ ·))
    (hleap : ∀ notice ∈ notices, notice.now.isLeap = false) {now : Instant}
    (hnow : ∀ notice ∈ notices, notice.now ≤ now) :
    (behind policy sender notices).limiter.Keeps (deliveries policy sender notices) now := by
  -- the limiter keeps up with the call before; from there to `now` it only grows older
  induction notices using List.reverseRecOn generalizing now with
  | nil => exact Limiter.keeps_nil rfl rfl now
  | append_singleton notices notice ih =>
    rw [List.map_append, List.map_singleton, List.pairwise_append] at hsorted
    rw [List.forall_mem_append, List.forall_mem_singleton] at hleap hnow
    have hbefore : ∀ earlier ∈ notices, earlier.now ≤ notice.now := fun earlier hearlier =>
      hsorted.2.2 _ (List.mem_map_of_mem hearlier) _ List.mem_cons_self
    have hkeeps := ih hsorted.1 hleap.1 hbefore
    rw [behind_append_singleton, deliveries_append_singleton]
    exact ((step_notify _ notice.decision notice.now).keeps hkeeps hleap.2).later
      (Instant.unixNanos_le_unixNanos hnow.2 hleap.2)

/-! ## The limits -/

variable (policy sender) in
/-- Every call hands at most one alert to the sender, and only one that the policy wants. What has
been delivered under a clock that does not go back and does not read inside a leap second keeps the
limits of the policy. -/
theorem keepsLimits_of_clock
    (hinterval : policy.minAlertIntervalSeconds.toNat ≤ maxWindowSeconds) (notices : List Notice) :
    HandsOver policy sender notices ∧
    ((notices.map Notice.now).Pairwise (· ≤ ·) → (∀ notice ∈ notices, notice.now.isLeap = false) →
      KeepsLimits policy sender notices) := by
  have hsuits := suits_behind policy sender
  refine ⟨⟨fun before _ _ _ => (hsuits before).exists_notify_eq_ok hinterval _ _,
    fun before _ _ _ => (hsuits before).turn _ _⟩, fun hsorted hleap => ?_⟩
  obtain ⟨now, hnow⟩ := exists_le_now hsorted
  obtain ⟨-, hcap, hspaced⟩ := keeps_behind policy sender hsorted hleap hnow
  obtain ⟨-, -, hminInterval, hmax⟩ := hsuits notices
  rw [hmax] at hcap
  rw [hminInterval] at hspaced
  refine ⟨fun start => ⟨?_, ?_⟩, ?_⟩
  · exact Limiter.countP_le_of_underCap (fun x => start < x ∧ x ≤ start + Limiter.hour)
      (fun x y hx hy => by omega) hcap
  · exact Limiter.countP_le_of_underCap (fun x => start ≤ x ∧ x < start + Limiter.hour)
      (fun x y hx hy => by omega) hcap
  · have hcut : maxWindowSeconds ≤ Limiter.maxSeconds := by decide
    rwa [Nat.min_eq_left (Nat.le_trans hinterval hcut)] at hspaced

end Run

/-! ## Calls about sample blocks -/

/-- A block for a reason, told of when it is made. -/
def sampleNotice (reason : Reason) (now : Instant) : Notice where
  decision :=
    { Decision.internalError "GUARD-1" none "" "" (.ofNat 0) now with reason := some reason }
  now

/-- Three blocks at one instant, two of them for one reason. -/
def burst : List Notice :=
  [sampleNotice .systemHaltState .epoch, sampleNotice .exchangeUnreachable .epoch,
    sampleNotice .systemHaltState .epoch]

/-- The second alert for the reason is held back. -/
theorem keepsLimits_burst :
    KeepsLimits .standard (some .delivering) burst ∧
      deliveries .standard (some .delivering) burst =
        [(.systemHaltState, .epoch), (.exchangeUnreachable, .epoch)] := by
  have hinterval : AlertPolicy.standard.minAlertIntervalSeconds.toNat ≤ maxWindowSeconds := by
    decide
  have hclock : (burst.map Notice.now).Pairwise (· ≤ ·) := by decide
  have hleap : ∀ notice ∈ burst, notice.now.isLeap = false := by decide
  exact ⟨(keepsLimits_of_clock .standard (some .delivering) hinterval burst).2 hclock hleap,
    by decide +kernel⟩

/-- An interval of an hour. -/
def hourlyPolicy : AlertPolicy :=
  { AlertPolicy.standard with minAlertIntervalSeconds := 3600 }

/-- Two blocks for one reason, 3599.7 seconds apart, and between them one inside a leap second,
which is 3600.2 seconds behind the first one. -/
def leapNotices : List Notice :=
  [sampleNotice .systemHaltState .hourBeforeLeap, sampleNotice .exchangeUnreachable .withinLeap,
    sampleNotice .systemHaltState .afterLeap]

/-- The block inside the leap second makes the limiter forget the first one too early, although the
clock never goes back. -/
theorem not_keepsLimits_leapNotices :
    hourlyPolicy.minAlertIntervalSeconds.toNat ≤ maxWindowSeconds ∧
      (leapNotices.map Notice.now).Pairwise (· ≤ ·) ∧
      ¬ KeepsLimits hourlyPolicy (some .delivering) leapNotices := by
  refine ⟨by decide, by decide, fun hkeeps => ?_⟩
  have hdeliveries : deliveries hourlyPolicy (some .delivering) leapNotices =
      leapNotices.map fun notice =>
        (notice.decision.reason.getD .guardInternalError, notice.now) := by
    decide +kernel
  have hapart := hkeeps.apart
  rw [hdeliveries] at hapart
  exact absurd hapart (by decide +kernel)

end Notifier

end TradeGate
