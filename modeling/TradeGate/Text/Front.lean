/-!
# Readers of the front of a text

A reader takes a value off the front of a text and returns what follows it, or refuses the text.
-/

namespace TradeGate.Text

/-- A reader: the value at the front of a text and the rest of the text. -/
abbrev Front (α : Type) := List Char → Option (α × List Char)

/-- Up to `width` of the characters at the front that satisfy `p`, and the rest. -/
def run (p : Char → Bool) (width : Nat) (cs : List Char) : List Char × List Char :=
  let taken := (cs.take width).takeWhile p
  (taken, cs.drop taken.length)

/-- The rest of the text after `word`, if it starts with it. -/
def dropWord? (word : List Char) (cs : List Char) : Option (List Char) :=
  if word.isPrefixOf cs then some (cs.drop word.length) else none

end TradeGate.Text
