import TradeGate.Json.Codec

/-!
# Details

Diagnostics that go with a finding or a decision: named JSON values in the order in which they were
added.
-/

namespace TradeGate

/-- Named values in order. -/
structure Details where
  members : Members

namespace Details

def empty : Details := ⟨[]⟩

/-- Details from a list of distinct names. -/
def ofList (members : List (String × Json)) : Details := ⟨members⟩

/-- Gives a name a value, in its place if it has one. -/
def set (details : Details) (name : String) (value : Json) : Details :=
  ⟨details.members.set name value⟩

def get? (details : Details) (name : String) : Option Json := details.members.get? name

/-- The names in order. -/
def names (details : Details) : List String := details.members.names

/-- The text under a name. -/
def text? (details : Details) (name : String) : Option String :=
  (details.get? name).bind Json.asStr?

/-- The message for a reader. -/
def message? (details : Details) : Option String := details.text? "message"

def toJson (details : Details) : Json := .obj details.members

/-- The members of an object; any other value goes under the name `value`. -/
def ofJson : Json → Details
  | .obj members => ⟨members⟩
  | other => ofList [("value", other)]

def codec : Codec Details where
  encode := toJson
  decode _ value := value.asObj?.map fun members => ⟨Members.ofPairs members⟩

end Details

end TradeGate
