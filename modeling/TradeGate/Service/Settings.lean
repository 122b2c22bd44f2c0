import TradeGate.Decision.Details
import TradeGate.Policy.Override

/-!
# Settings

What a service is set up with: a preset with overrides, where and whether records are written, and
how alerts are sent. Settings are read from a TOML document; what it leaves out has its standard
value. Main definitions: `Settings`, `Settings.ofToml?`, `Settings.policy`.
-/

namespace TradeGate

open Record

/-- Where records are written and how long they are kept. -/
structure PersistenceSettings where
  enabled : Bool
  directory : String
  /-- How many records wait before they are written. -/
  bufferSize : UInt64
  retentionDays : UInt32
  deriving DecidableEq

namespace PersistenceSettings

def standard : PersistenceSettings where
  enabled := true
  directory := "data/guard"
  bufferSize := 1
  retentionDays := 30

def record : Record PersistenceSettings PersistenceSettings :=
  start PersistenceSettings.mk
    |>.defaulted "enabled" (·.enabled) .bool standard.enabled
    |>.defaulted "data_dir" (·.directory) .string standard.directory
    |>.defaulted "buffer_size" (·.bufferSize) .uint64 standard.bufferSize
    |>.defaulted "retention_days" (·.retentionDays) .uint32 standard.retentionDays

end PersistenceSettings

/-- How alerts are sent. -/
structure SenderSettings where
  /-- Alerts go to the log. -/
  logSender : Bool
  deriving DecidableEq

namespace SenderSettings

def standard : SenderSettings where
  logSender := true

def record : Record SenderSettings SenderSettings :=
  start SenderSettings.mk
    |>.defaulted "log_sender" (·.logSender) .bool standard.logSender

end SenderSettings

/-- What a service is set up with. -/
structure Settings where
  preset : Preset
  /-- Overrides of the preset. -/
  guard : Details
  persistence : PersistenceSettings
  alerts : SenderSettings

namespace Settings

mutual

/-- The value with null in place of numbers that are not finite. -/
def finite : Json → Json
  | .float x => .ofBinary64 x
  | .arr items => .arr (finiteItems items)
  | .obj members => .obj (finiteMembers members)
  | other => other

def finiteItems : List Json → List Json
  | [] => []
  | item :: rest => finite item :: finiteItems rest

def finiteMembers : List (String × Json) → List (String × Json)
  | [] => []
  | (name, value) :: rest => (name, finite value) :: finiteMembers rest

end

/-- Overrides as they are kept: without numbers that are not finite. -/
def overridesCodec : Codec Details where
  encode := Details.toJson
  decode _ value := value.asObj?.map fun members => ⟨finiteMembers members⟩

def record : Record Settings Settings :=
  start Settings.mk
    |>.defaulted "preset" (·.preset) Preset.codec .standard
    |>.defaulted "guard" (·.guard) overridesCodec .empty
    |>.defaulted "persistence" (·.persistence) (PersistenceSettings.record.codec true) .standard
    |>.defaulted "alerts" (·.alerts) (SenderSettings.record.codec true) .standard

def codec : Codec Settings := record.codec true

def toJson (settings : Settings) : Json := codec.encode settings

/-- Reads a TOML document. -/
def ofToml? (document : String) : Option Settings :=
  (Toml.read? document).bind (codec.decode .toml)

/-- The policy that settings lead to. It has to be accepted. -/
def policy (settings : Settings) : Except PolicyError Policy := do
  let policy ← settings.preset.policy.override settings.guard.toJson
  policy.check
  .ok policy

/-- Where the settings are read from: the path that was given, or else the one of the environment,
or else the standard one. -/
def path (given environment : Option String) : String :=
  (given <|> environment).getD "config/default.toml"

end Settings

end TradeGate
