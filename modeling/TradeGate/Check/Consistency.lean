import TradeGate.Check.Basic

/-!
# State consistency

Whether the system and the exchange agree on positions and equity, and whether balance and margin
are known and sufficient.
-/

namespace TradeGate

/-- How far `system` is from `exchange`, in percent of the latter; `none` if that is zero or the
percentage is out of range. -/
def equityMismatchPct? (system exchange : Amount) : Option Amount := do
  if exchange.isZero then none
  else
    let difference ← system.sub? exchange
    let ratio ← difference.abs.div? exchange.abs
    ratio.mul? .hundred

namespace ConsistencyPolicy

/-- The equities are close enough. If there is no percentage both have to be zero. -/
def equitiesAgree (policy : ConsistencyPolicy) (system exchange : Amount) : Bool :=
  match equityMismatchPct? system exchange with
  | some pct => pct.le policy.equityMismatchTolerancePct
  | none => exchange.isZero && system.isZero

/-- The positions were never synced. -/
def neverSynced (policy : ConsistencyPolicy) (account : AccountState) : Option Violation :=
  (Violation.of .positionSyncPending .high "Positions never synced with exchange").when
    (policy.requirePositionSync && account.lastSyncTimestamp.isNone)

/-- The positions were synced too long ago. -/
def syncStale (policy : ConsistencyPolicy) (account : AccountState) (now : Instant) :
    Option Violation :=
  account.lastSyncTimestamp.bind fun lastSync =>
    let age := now.ageSeconds lastSync
    ((Violation.of .positionStateMismatch .high
        ("Position sync stale: " ++ age.fixed 0 ++ "s old"))
      |>.detail "sync_age_seconds" (.ofBinary64 age)
      |>.detail "max_sync_age_seconds" (.ofBinary64 policy.maxPositionSyncAgeSeconds)).when
        (policy.requirePositionSync && age.exceeds policy.maxPositionSyncAgeSeconds)

/-- The numbers of positions differ. -/
def positionsDiffer (policy : ConsistencyPolicy) (account : AccountState) : Option Violation := do
  let system ← account.systemPositionCount
  let exchange ← account.exchangePositionCount
  ((Violation.of .positionStateMismatch .critical
      ("Position count mismatch: system=" ++ toString system.toNat ++ ", exchange=" ++
        toString exchange.toNat))
    |>.detail "system_positions" (Codec.uint32.encode system)
    |>.detail "exchange_positions" (Codec.uint32.encode exchange)
    |>.detail "difference" (.int (system.toNat - exchange.toNat))).when
      (!policy.allowPositionMismatch && system != exchange)

/-- The equities differ by more than is tolerated. -/
def equitiesDiffer (policy : ConsistencyPolicy) (account : AccountState) : Option Violation := do
  let system ← account.systemEquity
  let exchange ← account.exchangeEquity
  let violation :=
    (Violation.of .equityMismatch .high
      ("Equity mismatch: system=" ++ system.text ++ ", exchange=" ++ exchange.text))
      |>.detail "system_equity" (Codec.amount.encode system)
      |>.detail "exchange_equity" (Codec.amount.encode exchange)
      |>.detail "tolerance_pct" (Codec.amount.encode policy.equityMismatchTolerancePct)
  let violation := match equityMismatchPct? system exchange with
    | some pct => violation.detail "mismatch_pct" (Codec.amount.encode (pct.round 4).normalize)
    | none => violation
  violation.when (policy.requireEquityMatch && !policy.equitiesAgree system exchange)

/-- The balance is not known. -/
def balanceUnknown (account : AccountState) : Option Violation :=
  (Violation.of .balanceInconsistency .high "Available balance unknown").when
    account.availableBalance.isNone

/-- The balance is too low. -/
def balanceLow (policy : ConsistencyPolicy) (account : AccountState) : Option Violation :=
  account.availableBalance.bind fun balance =>
    ((Violation.of .balanceInconsistency .high ("Available balance too low: " ++ balance.text))
      |>.detail "available_balance" (Codec.amount.encode balance)
      |>.detail "min_balance" (Codec.amount.encode policy.minAvailableBalance)).when
        (balance.lt policy.minAvailableBalance)

/-- The margin mode is not known. -/
def marginUndefined (policy : ConsistencyPolicy) (account : AccountState) : Option Violation :=
  (Violation.of .marginStateUndefined .medium "Margin mode undefined").when
    (policy.requireMarginStateDefined && account.marginMode.isNone)

/-- The margin mode is not one of the allowed ones. -/
def marginNotAllowed (policy : ConsistencyPolicy) (account : AccountState) : Option Violation :=
  account.marginMode.bind fun mode =>
    ((Violation.of .marginStateUndefined .high ("Margin mode not allowed: " ++ mode))
      |>.detail "margin_mode" (.str mode)
      |>.detail "allowed_modes" (.ofStrings policy.allowedMarginModes)).when
        (policy.requireMarginStateDefined &&
          !Text.containsIgnoringCase policy.allowedMarginModes mode)

/-- The margin ratio is too high. -/
def marginHigh (policy : ConsistencyPolicy) (account : AccountState) : Option Violation :=
  account.marginRatio.bind fun ratio =>
    ((Violation.of .balanceInconsistency .high
        ("Margin ratio too high: " ++ (ratio * .ofNat 100).fixed 1 ++ "%"))
      |>.detail "margin_ratio" (.ofBinary64 ratio)
      |>.detail "max_margin_ratio" (.ofBinary64 policy.maxMarginRatio)).when
        (policy.requireMarginStateDefined && ratio.exceeds policy.maxMarginRatio)

/-- What the checks object to, in order. -/
def violations (policy : ConsistencyPolicy) (s : Sections) (now : Instant) :
    List (Option Violation) :=
  let account := s.account
  [policy.neverSynced account, policy.syncStale account now, policy.positionsDiffer account,
    policy.equitiesDiffer account, balanceUnknown account, policy.balanceLow account,
    policy.marginUndefined account, policy.marginNotAllowed account, policy.marginHigh account]

/-- What is reported when no check objects. -/
def passDetails (s : Sections) : Details :=
  .ofList [("positions_synced", .bool s.account.lastSyncTimestamp.isSome),
    ("available_balance", Codec.amount.option.encode s.account.availableBalance),
    ("margin_mode", .ofOption .str s.account.marginMode)]

/-- Applies the checks. -/
def check (policy : ConsistencyPolicy) (s : Sections) (now : Instant) :
    Except Violation Details :=
  judge (policy.violations s now) (passDetails s)

end ConsistencyPolicy

end TradeGate
