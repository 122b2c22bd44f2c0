import Mathlib.Algebra.BigOperators.Group.List.Basic
import Mathlib.Algebra.GroupWithZero.Nat
import TradeGate.Decision.Basic

/-!
# The tags of a decision

Whatever a constructor makes (`Decision.Built`) has a reason and a severity exactly if it is a block,
and its category is that of the reason (`Decision.Tagged`). Where every item has one tag of a list at
most, the numbers of items for each tag add up to the number of items that have one
(`sum_map_countP`).
-/

namespace TradeGate

namespace Decision

/-- The decision is one that a constructor makes. -/
inductive Built : Decision → Prop
  | execute (evaluationId : String) (tradeIntent : Option TradeIntent) (findings : List Finding)
      (timeMs : Binary64) (timestamp : Instant) :
      Built (execute evaluationId tradeIntent findings timeMs timestamp)
  | block (evaluationId : String) (tradeIntent : Option TradeIntent) (failure : Finding)
      (findings : List Finding) (timeMs : Binary64) (timestamp : Instant) :
      Built (block evaluationId tradeIntent failure findings timeMs timestamp)
  | internalError (evaluationId : String) (tradeIntent : Option TradeIntent)
      (errorType errorMessage : String) (timeMs : Binary64) (timestamp : Instant) :
      Built (internalError evaluationId tradeIntent errorType errorMessage timeMs timestamp)

/-- A block has a reason, a severity and the category of the reason, and nothing else has any. -/
structure Tagged (decision : Decision) : Prop where
  reason : decision.reason.isSome = decision.isBlock
  severity : decision.severity.isSome = decision.isBlock
  category : decision.category = decision.reason.map Reason.category

theorem Built.tagged {decision : Decision} (h : decision.Built) : decision.Tagged := by
  cases h <;> exact ⟨rfl, rfl, rfl⟩

variable {decision : Decision}

theorem Tagged.category_isSome (h : decision.Tagged) :
    decision.category.isSome = decision.isBlock := by
  rw [h.category, Option.isSome_map, h.reason]

theorem isExecute_eq (decision : Decision) : decision.isExecute = !decision.isBlock := by
  unfold isExecute isBlock
  cases decision.verdict <;> rfl

end Decision

/-! ## Numbers for each tag -/

theorem sum_map_ite_eq {β : Type} [DecidableEq β] (key : β) {keys : List β} (hkeys : keys.Nodup) :
    (keys.map fun other => if key = other then 1 else 0).sum = if key ∈ keys then 1 else 0 := by
  induction keys with
  | nil => rfl
  | cons first rest ih =>
    obtain ⟨hfirst, hrest⟩ := List.nodup_cons.1 hkeys
    rw [List.map_cons, List.sum_cons, ih hrest]
    by_cases h : key = first
    · simp [h, hfirst]
    · simp [h]

/-- The numbers of items for each of some tags add up to the number of items with one of them. -/
theorem sum_map_countP {α β : Type} [DecidableEq β] (tag : α → Option β) {keys : List β}
    (hkeys : keys.Nodup) (items : List α) :
    (keys.map fun key => items.countP (tag · = some key)).sum =
      items.countP fun item => (tag item).any (· ∈ keys) := by
  induction items with
  | nil => simp
  | cons item rest ih =>
    simp only [List.countP_cons, List.sum_map_add, ih]
    congr 1
    cases htag : tag item with
    | none => simp
    | some key => simpa using sum_map_ite_eq key hkeys

end TradeGate
