/-!
# Paths

A path is a text of names with slashes between them, read from the left. Main statement: a path
without a slash is a single step, if it is a name at all (`steps_of_not_mem`).
-/

namespace TradeGate.Path

/-- The texts between slashes. -/
def pieces : List Char → List (List Char)
  | [] => [[]]
  | c :: rest =>
    if c = '/' then [] :: pieces rest
    else match pieces rest with
      | [] => [[c]]
      | piece :: others => (c :: piece) :: others

/-- The steps of a path. An empty text and a single point lead nowhere and are no steps. -/
def steps (path : String) : List String :=
  ((pieces path.toList).map String.ofList).filter fun name => name != "" && name != "."

/-- The name at the end of a path. -/
def lastName (path : String) : String :=
  String.ofList ((pieces path.toList).getLast?.getD [])

/-- The path starts at the root of the tree. -/
def isAbsolute (path : String) : Bool := path.toList.head? == some '/'

/-- The step to the folder above. -/
def up : String := ".."

/-- The most bytes that a name may have. -/
def maxNameBytes : Nat := 255

/-- The most bytes that a path may have. -/
def maxBytes : Nat := 4095

/-- The path is short enough and free of the character that would end it. -/
def isUsable (path : String) : Bool :=
  path.utf8ByteSize ≤ maxBytes && !path.toList.contains '\x00'

theorem pieces_of_not_mem {cs : List Char} (h : '/' ∉ cs) : pieces cs = [cs] := by
  induction cs with
  | nil => rfl
  | cons c rest ih =>
    rw [List.mem_cons, not_or] at h
    rw [pieces, if_neg (Ne.symm h.1), ih h.2]

theorem steps_of_not_mem {path : String} (h : '/' ∉ path.toList) (hempty : path ≠ "")
    (hpoint : path ≠ ".") : steps path = [path] := by
  simp [steps, pieces_of_not_mem h, hempty, hpoint]

end TradeGate.Path
