import TradeGate.Check.Basic
import TradeGate.ReplayWindow

/-!
# System integrity

Replays, the age of the request, market data, the feature pipeline and the clock. Replays are looked
for first, so that the id of every request that comes this far is recorded even if a later check
objects.
-/

namespace TradeGate

namespace IntegrityPolicy

/-- The request id was admitted before. -/
def replayed (policy : IntegrityPolicy) (intent : TradeIntent) (firstSeen : Instant) : Violation :=
  (Violation.of .duplicateRequest .high ("Duplicate request: " ++ intent.requestId))
    |>.detail "request_id" (.str intent.requestId)
    |>.detail "first_seen" (Codec.instant.encode firstSeen)
    |>.detail "window_seconds" (Codec.uint64.encode policy.duplicateWindowSeconds)

/-- The request is too old. -/
def requestStale (policy : IntegrityPolicy) (intent : TradeIntent) (now : Instant) :
    Option Violation :=
  let age := now.ageSeconds intent.timestamp
  ((Violation.of .timestampInconsistency .medium ("Request too old: " ++ age.fixed 1 ++ "s"))
    |>.detail "request_age_seconds" (.ofBinary64 age)
    |>.detail "max_age_seconds" (.ofBinary64 policy.maxRequestAgeSeconds)).when
      (age.exceeds policy.maxRequestAgeSeconds)

/-- The request comes from too far in the future. -/
def requestFuture (policy : IntegrityPolicy) (intent : TradeIntent) (now : Instant) :
    Option Violation :=
  let age := now.ageSeconds intent.timestamp
  ((Violation.of .clockDrift .high
      ("Request timestamp " ++ (-age).fixed 1 ++ "s in the future"))
    |>.detail "request_age_seconds" (.ofBinary64 age)
    |>.detail "max_future_seconds" (.ofBinary64 policy.maxFutureTimestampSeconds)).when
      (age.fallsBelow (-policy.maxFutureTimestampSeconds))

/-- There are no market data. -/
def marketDataMissing (system : SystemState) : Option Violation :=
  (Violation.of .missingMarketData .critical "Market data unavailable").when
    (!system.marketDataAvailable)

/-- The market data are too old. -/
def marketDataStale (policy : IntegrityPolicy) (system : SystemState) (now : Instant) :
    Option Violation :=
  let age := now.ageSeconds system.marketDataTimestamp
  ((Violation.of .staleMarketData .high ("Market data stale: " ++ age.fixed 1 ++ "s old"))
    |>.detail "data_age_seconds" (.ofBinary64 age)
    |>.detail "max_age_seconds" (.ofBinary64 policy.maxMarketDataAgeSeconds)).when
      (age.exceeds policy.maxMarketDataAgeSeconds)

/-- Too few symbols have live data. -/
def coverageLow (policy : IntegrityPolicy) (system : SystemState) : Option Violation :=
  system.symbolCoveragePct.bind fun coverage =>
    ((Violation.of .missingMarketData .high
        ("Symbol coverage too low: " ++ coverage.fixed 1 ++ "%"))
      |>.detail "coverage_pct" (.ofBinary64 coverage)
      |>.detail "min_coverage_pct" (.ofBinary64 policy.minSymbolCoveragePct)).when
        (coverage.fallsBelow policy.minSymbolCoveragePct)

/-- The feature pipeline is not synced. -/
def pipelineDesynced (policy : IntegrityPolicy) (system : SystemState) : Option Violation :=
  (Violation.of .featurePipelineDesync .high "Feature pipeline not synced").when
    (policy.requireFeatureSync && !system.featurePipelineSynced)

/-- The feature pipeline lags behind. -/
def pipelineLagging (policy : IntegrityPolicy) (system : SystemState) : Option Violation :=
  system.featurePipelineLagSeconds.bind fun lag =>
    ((Violation.of .featurePipelineDesync .high ("Feature pipeline lag: " ++ lag.fixed 1 ++ "s"))
      |>.detail "lag_seconds" (.ofBinary64 lag)
      |>.detail "max_lag_seconds" (.ofBinary64 policy.maxFeaturePipelineLagSeconds)).when
        (policy.requireFeatureSync && lag.exceeds policy.maxFeaturePipelineLagSeconds)

/-- The clock is not synced. -/
def clockUnsynced (policy : IntegrityPolicy) (system : SystemState) : Option Violation :=
  (Violation.of .clockDrift .high "NTP not synced").when
    (policy.requireNtpSync && !system.ntpSynced)

/-- The clock drifts, in either direction. -/
def clockDrifting (policy : IntegrityPolicy) (system : SystemState) : Option Violation :=
  system.clockDriftMs.bind fun drift =>
    ((Violation.of .clockDrift .high ("Clock drift: " ++ drift.fixed 0 ++ "ms"))
      |>.detail "drift_ms" (.ofBinary64 drift)
      |>.detail "max_drift_ms" (.ofBinary64 policy.maxClockDriftMs)).when
        (policy.requireNtpSync && drift.abs.exceeds policy.maxClockDriftMs)

/-- What the checks other than that for replays object to, in order. -/
def violations (policy : IntegrityPolicy) (s : Sections) (now : Instant) :
    List (Option Violation) :=
  [policy.requestStale s.intent now, policy.requestFuture s.intent now,
    marketDataMissing s.system, policy.marketDataStale s.system now,
    policy.coverageLow s.system, policy.pipelineDesynced s.system, policy.pipelineLagging s.system,
    policy.clockUnsynced s.system, policy.clockDrifting s.system]

/-- What is reported when no check objects. -/
def passDetails (s : Sections) (now : Instant) : Details :=
  .ofList [("market_data_age_seconds", .ofBinary64 (now.ageSeconds s.system.marketDataTimestamp)),
    ("request_age_seconds", .ofBinary64 (now.ageSeconds s.intent.timestamp)),
    ("feature_pipeline_synced", .bool s.system.featurePipelineSynced),
    ("ntp_synced", .bool s.system.ntpSynced)]

/-- Admits the request id and applies the other checks. -/
def check (policy : IntegrityPolicy) (s : Sections) (now : Instant) (window : ReplayWindow) :
    Except Violation Details × ReplayWindow :=
  match window.register s.intent.requestId now with
  | (some firstSeen, window) => (.error (policy.replayed s.intent firstSeen), window)
  | (none, window) => (judge (policy.violations s now) (passDetails s now), window)

end IntegrityPolicy

end TradeGate
