import TradeGate.Check.Basic

/-!
# Rules

Halts, locks, maintenance, trading hours, cooldown, symbols and directions. `RulePolicy.violations`
lists what each rule objects to; the first objection counts.
-/

namespace TradeGate

namespace RulePolicy

/-- The system is halted. -/
def halted (policy : RulePolicy) (halt : HaltState) : Option Violation :=
  ((Violation.of .systemHaltState .emergency "System is halted")
    |>.detail "halt_reason" (.ofOption .str halt.haltReason)
    |>.detail "halt_timestamp" (Codec.instant.option.encode halt.haltTimestamp)).when
      (policy.respectSystemHalt && halt.isHalted)

/-- An operator holds the lock. -/
def locked (policy : RulePolicy) (halt : HaltState) : Option Violation :=
  ((Violation.of .manualInterventionLock .high "Manual intervention lock is active")
    |>.detail "intervention_reason" (.ofOption .str halt.interventionReason)
    |>.detail "intervention_timestamp"
      (Codec.instant.option.encode halt.interventionTimestamp)).when
      (policy.respectManualLock && halt.manualInterventionActive)

/-- Maintenance is under way. -/
def inMaintenance (policy : RulePolicy) (halt : HaltState) : Option Violation :=
  ((Violation.of .maintenanceWindow .medium "Maintenance window is active")
    |>.detail "maintenance_end" (Codec.instant.option.encode halt.maintenanceEnd)).when
      (policy.blockDuringMaintenance && halt.maintenanceActive)

/-- The UTC hour of an instant. -/
def hourOf (now : Instant) : UInt8 := UInt8.ofNat now.hour.toNat

/-- No trading window holds the hour; without windows every hour will do. -/
def outsideHours (policy : RulePolicy) (now : Instant) : Option Violation :=
  let windows := policy.allowedTradingHoursUtc
  let hour := hourOf now
  ((Violation.of .outsideTradingHours .low
      ("Outside trading hours: " ++ TradingWindow.hourText hour ++ " UTC"))
    |>.detail "current_hour_utc" (Codec.uint8.encode hour)
    |>.detail "allowed_windows" (.ofStrings (windows.map TradingWindow.text))).when
      (policy.enforceTradingHours && !windows.isEmpty && !windows.any (·.contains hour))

/-- The system cools down. -/
def coolingDown (policy : RulePolicy) (halt : HaltState) : Option Violation :=
  ((Violation.of .cooldownActive .low "Cooldown is active")
    |>.detail "cooldown_end" (Codec.instant.option.encode halt.cooldownEnd)
    |>.detail "cooldown_reason" (.ofOption .str halt.cooldownReason)).when
      (policy.respectCooldown && halt.cooldownActive)

/-- The symbol is on the list of restricted ones. -/
def symbolRestricted (policy : RulePolicy) (intent : TradeIntent) : Option Violation :=
  ((Violation.of .symbolNotTradeable .medium ("Symbol " ++ intent.symbol ++ " is restricted"))
    |>.detail "symbol" (.str intent.symbol)).when
      (policy.checkSymbolTradeable &&
        Text.containsIgnoringCase policy.restrictedSymbols intent.symbol)

/-- Trades of this direction are allowed. -/
def allows (policy : RulePolicy) : Direction → Bool
  | .long => policy.allowLong
  | .short => policy.allowShort

/-- Trades of this direction are not allowed. -/
def directionRestricted (policy : RulePolicy) (intent : TradeIntent) : Option Violation :=
  ((Violation.of .directionRestricted .medium
      (intent.direction.code ++ " trades are not allowed"))
    |>.detail "direction" (Direction.codec.encode intent.direction)).when
      (!policy.allows intent.direction)

/-- What the rules object to, in order. -/
def violations (policy : RulePolicy) (s : Sections) (now : Instant) : List (Option Violation) :=
  [policy.halted s.halt, policy.locked s.halt, policy.inMaintenance s.halt,
    policy.outsideHours now, policy.coolingDown s.halt, policy.symbolRestricted s.intent,
    policy.directionRestricted s.intent]

/-- What is reported when no rule objects. -/
def passDetails (policy : RulePolicy) (s : Sections) : Details :=
  .ofList [("halted", .bool false), ("trading_hours_enforced", .bool policy.enforceTradingHours),
    ("symbol", .str s.intent.symbol), ("direction", Direction.codec.encode s.intent.direction)]

/-- Applies the rules. -/
def check (policy : RulePolicy) (s : Sections) (now : Instant) : Except Violation Details :=
  judge (policy.violations s now) (policy.passDetails s)

end RulePolicy

end TradeGate
