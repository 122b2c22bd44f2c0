import TradeGate.Check.Limit
import TradeGate.Decision.Finding
import TradeGate.Policy.Basic
import TradeGate.Snapshot.Codec

/-!
# Checks

A family of checks is a list of objections in a fixed order, and the first objection counts. Main
statement: nothing is objected to exactly if every check is silent
(`firstViolation?_eq_none_iff`).
-/

namespace TradeGate

/-- The violation, if the condition holds. -/
@[macro_inline] def Violation.when (violation : Violation) (condition : Bool) : Option Violation :=
  if condition then some violation else none

/-- The first of a list of objections. -/
def firstViolation? (objections : List (Option Violation)) : Option Violation :=
  objections.findSome? id

theorem firstViolation?_eq_none_iff (objections : List (Option Violation)) :
    firstViolation? objections = none ↔ ∀ objection ∈ objections, objection = none := by
  simp [firstViolation?]

/-- The details of those who found nothing, or the first objection. -/
def judge (objections : List (Option Violation)) (details : Details) :
    Except Violation Details :=
  match firstViolation? objections with
  | some violation => .error violation
  | none => .ok details

end TradeGate
