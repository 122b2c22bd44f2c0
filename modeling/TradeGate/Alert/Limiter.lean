import TradeGate.Reason
import TradeGate.Time.Instant

/-!
# Alert limits

Two limits hold for alerts: those for one reason keep a least distance, and in any hour there are at
most so many. The limiter is told of every delivery and forgets those that no longer matter. Spans
have a greatest length; a remaining time beyond it cannot be told, and asking for it is a fault.
A fault is no answer: it ends the run that the call belongs to (`untilFault`). Main definitions:
`Limiter`, `Limiter.check`, `Limiter.record`.
-/

namespace TradeGate

-- Powers are those of the core library.
attribute [local instance (high)] instPowNat

/-- Why an alert is held back. -/
inductive LimitExceeded where
  /-- The last alert for the reason is too recent. -/
  | reasonInterval (retryAfterSeconds : Int)
  /-- The hour has had as many alerts as it may have. -/
  | hourlyCap (maxPerHour : UInt32)
  deriving DecidableEq, Repr

/-- A span is beyond the greatest length. Whoever asks for it gets no answer, and neither does its
caller, up to the run as a whole. -/
inductive SpanFault where
  | overflow
  deriving DecidableEq, Repr

/-- The length of spans up to which they can be told, in nanoseconds. -/
def maxSpan : Int := (2 ^ (63 : Nat) - 1) * 1000000

/-- The difference of two spans, if it can be told. -/
def spanSub (a b : Int) : Except SpanFault Int :=
  if -maxSpan ≤ a - b ∧ a - b ≤ maxSpan then .ok (a - b) else .error .overflow

/-- Deliveries of the recent past. -/
structure Limiter where
  /-- The least distance of two alerts for one reason, in nanoseconds. -/
  minInterval : Int
  maxPerHour : UInt32
  /-- The last delivery for each reason. -/
  lastByReason : List (Reason × Instant)
  /-- The deliveries of the last hour, in order. -/
  recent : List Instant

namespace Limiter

/-- The most seconds that a distance may have. -/
def maxSeconds : Nat := (2 ^ (63 : Nat) - 1) / 1000

/-- Nanoseconds in an hour. -/
def hour : Int := 3600 * nanosPerSecond

/-- A limiter that knows of no delivery. Longer distances than there can be are cut down. -/
def ofLimits (minIntervalSeconds : UInt64) (maxPerHour : UInt32) : Limiter where
  minInterval := min minIntervalSeconds.toNat maxSeconds * nanosPerSecond
  maxPerHour
  lastByReason := []
  recent := []

/-- The last delivery for a reason. -/
def last? (limiter : Limiter) (reason : Reason) : Option Instant :=
  limiter.lastByReason.lookup reason

/-- Forgets deliveries that limit nothing from `now` on: those of the front that are an hour old,
and for a reason those that are as old as the longer of an hour and the least distance. -/
def prune (limiter : Limiter) (now : Instant) : Limiter :=
  let recent := match now.sub? hour with
    | some hourAgo => limiter.recent.dropWhile (· ≤ hourAgo)
    | none => limiter.recent
  let lastByReason := match now.sub? (max limiter.minInterval hour) with
    | some cutoff => limiter.lastByReason.filter fun (_, last) => cutoff < last
    | none => limiter.lastByReason
  { limiter with recent, lastByReason }

/-- The hourly limit at an instant to which the deliveries have been pruned. -/
def checkCap (limiter : Limiter) : Except LimitExceeded Unit :=
  if limiter.maxPerHour.toNat ≤ limiter.recent.length then
    .error (.hourlyCap limiter.maxPerHour)
  else .ok ()

/-- Both limits at an instant to which the deliveries have been pruned. -/
def checkPruned (limiter : Limiter) (reason : Reason) (now : Instant) :
    Except SpanFault (Except LimitExceeded Unit) :=
  match limiter.last? reason with
  | none => .ok limiter.checkCap
  | some last =>
    let since := now.nanosSince last
    if since < limiter.minInterval then do
      let left ← spanSub limiter.minInterval since
      .ok (.error (.reasonInterval (left.tdiv nanosPerSecond)))
    else .ok limiter.checkCap

/-- Whether an alert for a reason may go out at `now`, and the limiter without what no longer
matters. Where the remaining time cannot be told the call faults, and the limiter is what the fault
leaves. -/
def check (limiter : Limiter) (reason : Reason) (now : Instant) :
    Except SpanFault (Except LimitExceeded Unit) × Limiter :=
  let pruned := limiter.prune now
  (pruned.checkPruned reason now, pruned)

/-- Notes a delivery. -/
def record (limiter : Limiter) (reason : Reason) (now : Instant) : Limiter :=
  { limiter with
    lastByReason := (reason, now) :: limiter.lastByReason.filter (·.1 ≠ reason)
    recent := limiter.recent ++ [now] }

/-- Forgets all deliveries. -/
def reset (limiter : Limiter) : Limiter :=
  { limiter with lastByReason := [], recent := [] }

end Limiter

end TradeGate
