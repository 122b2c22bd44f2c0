import TradeGate.Policy.Override

/-!
# Command lines

A command line has options, a command, and what the command takes; options come first. The value of
an option is the next word, or stands behind an equals sign. Main definitions: `Invocation`,
`Invocation.ofWords`.
-/

namespace TradeGate

/-- What is asked for. -/
inductive Command where
  /-- Evaluate the snapshots of a file, or of the standard input if the path is a hyphen. -/
  | evaluate (path : String)
  /-- Tell of validators, health and policy. -/
  | info
  /-- Evaluate samples. -/
  | demo
  deriving DecidableEq, Repr

/-- Why a command line is not understood. -/
inductive UsageError where
  | noCommand
  | noPath
  | noValue (option : String)
  | repeated (option : String)
  | unknown (word : String)
  | preset (cause : PolicyError)
  deriving DecidableEq, Repr

namespace UsageError

def message : UsageError → String
  | noCommand => "a command is required: evaluate, info or demo"
  | noPath => "evaluate requires a path, or - for the standard input"
  | noValue option => "a value is required for " ++ option
  | repeated option => option ++ " cannot be given twice"
  | unknown word => "unexpected argument " ++ word
  | preset cause => cause.message

end UsageError

/-- A command and what it takes. -/
def Command.ofWords : List String → Except UsageError Command
  | [] => .error .noCommand
  | ["info"] => .ok .info
  | ["demo"] => .ok .demo
  | ["evaluate"] => .error .noPath
  | ["evaluate", path] => .ok (.evaluate path)
  | "info" :: word :: _ => .error (.unknown word)
  | "demo" :: word :: _ => .error (.unknown word)
  | "evaluate" :: _ :: word :: _ => .error (.unknown word)
  | word :: _ => .error (.unknown word)

/-- A command with the options that were given. -/
structure Invocation where
  settings : Option String
  preset : Option Preset
  command : Command
  deriving DecidableEq, Repr

namespace Invocation

/-- An option, and what it is given. -/
inductive Setting where
  | settings (path : String)
  | preset (name : String)

/-- The option that a name stands for, given a value. -/
def setting? (name value : String) : Option Setting :=
  match name with
  | "-c" | "--config" => some (.settings value)
  | "--preset" => some (.preset value)
  | _ => none

/-- A word as a name, and what stands behind its first equals sign. -/
def splitWord (word : String) : String × Option String :=
  match word.toList.span (· ≠ '=') with
  | (name, _ :: value) => (String.ofList name, some (String.ofList value))
  | (name, []) => (String.ofList name, none)

/-- Adds an option, which may be given once. -/
def add (invocation : Invocation) : Setting → Except UsageError Invocation
  | .settings path =>
    if invocation.settings.isSome then .error (.repeated "--config")
    else .ok { invocation with settings := some path }
  | .preset name => do
    let preset ← (Preset.ofName name).mapError .preset
    if invocation.preset.isSome then .error (.repeated "--preset")
    else .ok { invocation with preset := some preset }

/-- Reads the words of a command line. -/
def ofWords : List String → Except UsageError Invocation
  | [] => bare []
  | word :: rest =>
    match splitWord word with
    | (name, some value) =>
      match setting? name value with
      | some setting => do (← ofWords rest).add setting
      | none => .error (.unknown word)
    | (name, none) =>
      match rest with
      | [] => if (setting? name "").isSome then .error (.noValue name) else bare [word]
      | value :: others =>
        match setting? name value with
        | some setting => do (← ofWords others).add setting
        | none => bare (word :: value :: others)
where
  /-- A command line without options. -/
  bare (words : List String) : Except UsageError Invocation :=
    (Command.ofWords words).map fun command => ⟨none, none, command⟩

end Invocation

end TradeGate
