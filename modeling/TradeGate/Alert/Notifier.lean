import TradeGate.Alert.Basic
import TradeGate.Alert.Limiter
import TradeGate.Policy.Basic

/-!
# Notifications

A notifier decides which blocks are told, holds back what the limits hold back, and hands the rest
to a sender. Only deliveries count for the limits. Main definitions: `Notifier`,
`Notifier.notify`, `AlertOutcome`.
-/

namespace TradeGate

/-- Why no alert was tried. -/
inductive SkipReason where
  | disabled
  | notBlocked
  | blockAlertsOff
  | belowMinSeverity (least : Severity)
  deriving DecidableEq, Repr

/-- A sender could not deliver. -/
structure DeliveryFailure where
  cause : String
  deriving DecidableEq, Repr

def DeliveryFailure.message (failure : DeliveryFailure) : String :=
  "Alert delivery failed: " ++ failure.cause

/-- What a sender is called with: an alert and its text. -/
structure Handover where
  alert : Alert
  text : String

/-- What a sender answers to a call after those before it. -/
abbrev Sender := List Handover → Handover → Except DeliveryFailure Unit

namespace Sender

/-- Delivers everything. -/
def delivering : Sender := fun _ _ => .ok ()

/-- Fails with a text where the list has one for the call, counted from zero, and delivers
otherwise. -/
def ofAnswers (answers : List (Option String)) : Sender := fun earlier _ =>
  match answers.getD earlier.length none with
  | some cause => .error ⟨cause⟩
  | none => .ok ()

end Sender

/-- What became of an alert. -/
inductive AlertOutcome where
  | sent (alert : Alert)
  | skipped (why : SkipReason)
  | rateLimited (alert : Alert) (limit : LimitExceeded)
  | failed (alert : Alert) (failure : DeliveryFailure)
  | noSender (alert : Alert)

namespace AlertOutcome

/-- The label under which outcomes are counted. -/
def label : AlertOutcome → String
  | sent _ => "sent"
  | skipped _ => "skipped"
  | rateLimited .. => "rate_limited"
  | failed .. => "failed"
  | noSender _ => "no_sender"

/-- The alert, unless none was tried. -/
def alert? : AlertOutcome → Option Alert
  | sent alert => some alert
  | skipped _ => none
  | rateLimited alert _ => some alert
  | failed alert _ => some alert
  | noSender alert => some alert

/-- The alert, if it was handed to the sender. -/
def handedOver? : AlertOutcome → Option Alert
  | sent alert => some alert
  | failed alert _ => some alert
  | _ => none

end AlertOutcome

/-- Which alerts go out, and what has been handed to the sender, in order. -/
structure Notifier where
  policy : AlertPolicy
  limiter : Limiter
  sender : Option Sender
  handed : List Handover

namespace Notifier

/-- A notifier that has sent nothing. -/
def ofPolicy (policy : AlertPolicy) (sender : Option Sender) : Notifier where
  policy
  limiter := .ofLimits policy.minAlertIntervalSeconds policy.maxAlertsPerHour
  sender
  handed := []

/-- The alert of a decision that the policy wants told. -/
def admitted (policy : AlertPolicy) (decision : Decision) : Except SkipReason Alert :=
  if !policy.enabled then .error .disabled
  else if !policy.alertOnBlock then .error .blockAlertsOff
  else match Alert.ofDecision? decision with
    | none => .error .notBlocked
    | some alert =>
      if alert.severity < policy.minSeverityForAlert then
        .error (.belowMinSeverity policy.minSeverityForAlert)
      else .ok alert

/-- Hands an alert with its text to the sender and notes a delivery. -/
def deliver (notifier : Notifier) (alert : Alert) (now : Instant) : AlertOutcome × Notifier :=
  match notifier.sender with
  | none => (.noSender alert, notifier)
  | some sender =>
    let handover : Handover := ⟨alert, alert.text⟩
    let called := { notifier with handed := notifier.handed ++ [handover] }
    match sender notifier.handed handover with
    | .ok () => (.sent alert, { called with limiter := called.limiter.record alert.reason now })
    | .error failure => (.failed alert failure, called)

/-- Tells of a decision at `now` as far as policy and limits allow. A fault of the limiter is one of
the call. -/
def notify (notifier : Notifier) (decision : Decision) (now : Instant) :
    Except SpanFault AlertOutcome × Notifier :=
  match admitted notifier.policy decision with
  | .error why => (.ok (.skipped why), notifier)
  | .ok alert =>
    let (answer, limiter) := notifier.limiter.check alert.reason now
    let notifier := { notifier with limiter }
    match answer with
    | .error fault => (.error fault, notifier)
    | .ok (.error limit) => (.ok (.rateLimited alert limit), notifier)
    | .ok (.ok ()) =>
      let (outcome, notifier) := notifier.deliver alert now
      (.ok outcome, notifier)

end Notifier

end TradeGate
