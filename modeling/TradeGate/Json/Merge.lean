import TradeGate.Json.Value

/-!
# Deep merge

Objects are merged member by member; any other value replaces what was there. Merging recurses on
the value that is merged in.
-/

namespace TradeGate.Json

mutual

/-- `base` with `patch` merged in. -/
def merge (base : Json) : Json → Json
  | obj patches =>
    match base with
    | obj members => obj (mergeMembers members patches)
    | _ => obj patches
  | other => other

/-- Each member of the patch is merged into the member of its name, or added at the end. -/
def mergeMembers (members : Members) : List (String × Json) → Members
  | [] => members
  | (name, value) :: rest =>
    let merged := match members.get? name with
      | some old => merge old value
      | none => value
    mergeMembers (members.set name merged) rest

end

end TradeGate.Json
