import TradeGate.Json.Merge
import TradeGate.Policy.Accepted
import TradeGate.Policy.Codec
import TradeGate.Toml.Reader

/-!
# Policies from documents

A policy is read from a TOML document, or from another policy with the members of a JSON object
merged into its written form. Main definitions: `Policy.ofToml`, `Policy.override`,
`Policy.check`.
-/

namespace TradeGate

/-- Why there is no policy. -/
inductive PolicyError where
  | unreadableDocument
  | undecodable
  | overridesNotObject
  | rejected (problems : List PolicyProblem)
  | unknownPreset (name : String)
  deriving DecidableEq, Repr

namespace PolicyError

/-- The text of an error; that of an unreadable document is not fixed. -/
def message : PolicyError → String
  | unreadableDocument => "Failed to parse configuration"
  | undecodable => "JSON error"
  | overridesNotObject => "Invalid configuration: overrides must be a JSON object"
  | rejected problems =>
    "Invalid configuration: " ++ "; ".intercalate (problems.map PolicyProblem.message)
  | unknownPreset name =>
    "Unknown preset: " ++ name ++ " (expected default, strict or testing)"

end PolicyError

namespace Preset

/-- The preset of a name; the name is given back in lower case if there is none. -/
def ofName (name : String) : Except PolicyError Preset :=
  match ofName? name with
  | some preset => .ok preset
  | none => .error (.unknownPreset (String.ofList (name.toList.map Char.toLower)))

end Preset

namespace Policy

/-- Reads a TOML document. -/
def ofToml (document : String) : Except PolicyError Policy :=
  match (Toml.read? document).bind (codec.decode .toml) with
  | some policy => .ok policy
  | none => .error .unreadableDocument

/-- The policy with the members of an object in place of its own. -/
def override (policy : Policy) (patch : Json) : Except PolicyError Policy :=
  if patch.isObj then
    match codec.decode .json (Json.merge policy.toJson patch) with
    | some policy => .ok policy
    | none => .error .undecodable
  else .error .overridesNotObject

/-- Refuses a policy that is not accepted. -/
def check (policy : Policy) : Except PolicyError Unit :=
  if policy.Accepted then .ok () else .error (.rejected policy.problems)

end Policy

end TradeGate
