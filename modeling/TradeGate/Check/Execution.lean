import TradeGate.Check.Basic

/-!
# Execution safety

Whether the exchange can be reached, how quickly it answers, its rate limits, and how orders fare.
-/

namespace TradeGate

namespace ExecutionPolicy

/-- A count as a JSON number. -/
def count (n : UInt32) : Json := Codec.uint32.encode n

/-- The exchange cannot be reached. -/
def unreachable (policy : ExecutionPolicy) (health : ExecutionHealth) : Option Violation :=
  (Violation.of .exchangeUnreachable .critical "Exchange unreachable").when
    (policy.requireExchangeReachable && !health.exchangeReachable)

/-- The exchange tells no status. -/
def statusUnknown (health : ExecutionHealth) : Option Violation :=
  (Violation.of .exchangeApiUnstable .high "Exchange status unknown").when
    health.exchangeStatus.isNone

/-- The status is not one of the allowed ones. -/
def statusNotAllowed (policy : ExecutionPolicy) (health : ExecutionHealth) : Option Violation :=
  health.exchangeStatus.bind fun status =>
    ((Violation.of .exchangeApiUnstable .high ("Exchange status not operational: " ++ status))
      |>.detail "exchange_status" (.str status)
      |>.detail "allowed_statuses" (.ofStrings policy.allowedExchangeStatuses)).when
        (!Text.containsIgnoringCase policy.allowedExchangeStatuses status)

/-- The latency of the exchange is not known. -/
def latencyUnknown (health : ExecutionHealth) : Option Violation :=
  (Violation.of .exchangeApiUnstable .medium "Exchange latency unknown").when
    health.exchangeLatencyMs.isNone

/-- The exchange answers too slowly. -/
def latencyHigh (policy : ExecutionPolicy) (health : ExecutionHealth) : Option Violation :=
  health.exchangeLatencyMs.bind fun latency =>
    ((Violation.of .exchangeApiUnstable .high
        ("Exchange latency too high: " ++ latency.fixed 0 ++ "ms"))
      |>.detail "exchange_latency_ms" (.ofBinary64 latency)
      |>.detail "max_latency_ms" (.ofBinary64 policy.maxExchangeLatencyMs)).when
        (latency.exceeds policy.maxExchangeLatencyMs)

/-- The network is too slow. -/
def networkSlow (policy : ExecutionPolicy) (health : ExecutionHealth) : Option Violation :=
  health.networkLatencyMs.bind fun latency =>
    ((Violation.of .networkLatencyHigh .medium
        ("Network latency too high: " ++ latency.fixed 0 ++ "ms"))
      |>.detail "network_latency_ms" (.ofBinary64 latency)
      |>.detail "max_network_latency_ms" (.ofBinary64 policy.maxNetworkLatencyMs)).when
        (latency.exceeds policy.maxNetworkLatencyMs)

/-- The connection is known to be unstable. -/
def connectionUnstable (policy : ExecutionPolicy) (health : ExecutionHealth) : Option Violation :=
  (Violation.of .exchangeApiUnstable .medium "Exchange connection unstable").when
    (policy.requireStableConnection && health.connectionStable == some false)

/-- Too few requests are left. -/
def rateLimitLow (policy : ExecutionPolicy) (health : ExecutionHealth) : Option Violation :=
  health.rateLimitRemaining.bind fun remaining =>
    ((Violation.of .rateLimitExhausted .high
        ("Rate limit nearly exhausted: " ++ toString remaining.toNat ++ " remaining"))
      |>.detail "rate_limit_remaining" (count remaining)
      |>.detail "min_remaining" (count policy.minRateLimitRemaining)).when
        (remaining < policy.minRateLimitRemaining)

/-- Too large a part of the rate limit is in use. -/
def rateLimitUsed (policy : ExecutionPolicy) (health : ExecutionHealth) : Option Violation :=
  health.rateLimitUtilization.bind fun utilization =>
    ((Violation.of .rateLimitExhausted .medium
        ("Rate limit utilization too high: " ++ (utilization * .ofNat 100).fixed 0 ++ "%"))
      |>.detail "rate_limit_utilization" (.ofBinary64 utilization)
      |>.detail "max_utilization" (.ofBinary64 policy.maxRateLimitUtilization)).when
        (utilization.exceeds policy.maxRateLimitUtilization)

/-- Too many orders failed. -/
def failuresMany (policy : ExecutionPolicy) (health : ExecutionHealth) : Option Violation :=
  health.orderFailures1h.bind fun failures =>
    ((Violation.of .orderFailureThreshold .high
        ("Too many order failures in 1h: " ++ toString failures.toNat))
      |>.detail "order_failures_1h" (count failures)
      |>.detail "max_failures" (count policy.maxOrderFailures1h)).when
        (policy.maxOrderFailures1h < failures)

/-- Too few orders went through. -/
def successLow (policy : ExecutionPolicy) (health : ExecutionHealth) : Option Violation :=
  health.orderSuccessRate1h.bind fun rate =>
    ((Violation.of .orderFailureThreshold .high
        ("Order success rate too low: " ++ (rate * .ofNat 100).fixed 1 ++ "%"))
      |>.detail "order_success_rate_1h" (.ofBinary64 rate)
      |>.detail "min_success_rate" (.ofBinary64 policy.minOrderSuccessRate1h)).when
        (rate.fallsBelow policy.minOrderSuccessRate1h)

/-- Too many orders are pending. -/
def ordersPending (policy : ExecutionPolicy) (health : ExecutionHealth) : Option Violation :=
  health.pendingOrderCount.bind fun pending =>
    ((Violation.of .unconfirmedOrders .medium
        ("Too many pending orders: " ++ toString pending.toNat))
      |>.detail "pending_order_count" (count pending)
      |>.detail "max_pending_orders" (count policy.maxPendingOrders)).when
        (policy.maxPendingOrders < pending)

/-- Too many cancellations are pending. -/
def cancellationsPending (policy : ExecutionPolicy) (health : ExecutionHealth) :
    Option Violation :=
  health.pendingCancellationCount.bind fun pending =>
    ((Violation.of .pendingCancellation .medium
        ("Too many pending cancellations: " ++ toString pending.toNat))
      |>.detail "pending_cancellation_count" (count pending)
      |>.detail "max_pending_cancellations" (count policy.maxPendingCancellations)).when
        (policy.maxPendingCancellations < pending)

/-- The exchange holds orders that the system does not know of. -/
def ordersUnknown (policy : ExecutionPolicy) (health : ExecutionHealth) : Option Violation :=
  health.unknownOrderCount.bind fun unknown =>
    ((Violation.of .unknownOpenOrders .critical
        ("Unknown open orders on exchange: " ++ toString unknown.toNat))
      |>.detail "unknown_order_count" (count unknown)
      |>.detail "max_unknown_orders" (count policy.maxUnknownOpenOrders)).when
        (policy.maxUnknownOpenOrders < unknown)

/-- What the checks object to, in order. -/
def violations (policy : ExecutionPolicy) (s : Sections) : List (Option Violation) :=
  let health := s.execution
  [policy.unreachable health, statusUnknown health, policy.statusNotAllowed health,
    latencyUnknown health, policy.latencyHigh health, policy.networkSlow health,
    policy.connectionUnstable health, policy.rateLimitLow health, policy.rateLimitUsed health,
    policy.failuresMany health, policy.successLow health, policy.ordersPending health,
    policy.cancellationsPending health, policy.ordersUnknown health]

/-- What is reported when no check objects. -/
def passDetails (s : Sections) : Details :=
  .ofList [("exchange_status", .ofOption .str s.execution.exchangeStatus),
    ("exchange_latency_ms", Codec.binary64.option.encode s.execution.exchangeLatencyMs),
    ("rate_limit_remaining", .ofOption count s.execution.rateLimitRemaining),
    ("pending_order_count", .ofOption count s.execution.pendingOrderCount)]

/-- Applies the checks. -/
def check (policy : ExecutionPolicy) (s : Sections) : Except Violation Details :=
  judge (policy.violations s) (passDetails s)

end ExecutionPolicy

end TradeGate
