import TradeGate.Number.Shortest
import TradeGate.Time.Instant

/-!
# Limits

A ceiling is violated strictly above, a floor strictly below, and what cannot be compared violates
both. Names of a list are compared without regard to ASCII case. Ages are whole milliseconds,
counted in seconds.
-/

namespace TradeGate

namespace Binary64

/-- The value is above the ceiling, or one of them is not a number. -/
def exceeds (value limit : Binary64) : Bool := !le value limit

/-- The value is below the floor, or one of them is not a number. -/
def fallsBelow (value limit : Binary64) : Bool := !le limit value

end Binary64

namespace Text

/-- The two texts differ at most in the case of ASCII letters. -/
def sameIgnoringCase (a b : String) : Bool :=
  a.toList.map Char.toLower == b.toList.map Char.toLower

/-- The list has the text, in some case. -/
def containsIgnoringCase (texts : List String) (s : String) : Bool :=
  texts.any (sameIgnoringCase · s)

end Text

namespace Instant

/-- Seconds from `earlier` to `now`, in whole milliseconds toward zero; negative if `earlier` is yet
to come. -/
def ageSeconds (now earlier : Instant) : Binary64 :=
  .ofInt ((now.nanosSince earlier).tdiv 1000000) / .ofNat 1000

end Instant

end TradeGate
