import TradeGate.Number.Binary64

/-!
# JSON values

Whole numbers are kept apart from the others, and an object is the list of its members in order.
`Json.malformed` stands for a part that was written by the grammar but has no value: a number out of
range, or a text with half a surrogate pair. A part that nobody looks at may be malformed or name a
member twice; `Json.strict?` refuses the one and resolves the other. Main definitions: `Json`,
`Members.get?`, `Members.set`, `Json.strict?`.
-/

namespace TradeGate

/-- A JSON value as it was written. -/
inductive Json where
  | null
  | bool (b : Bool)
  | int (n : Int)
  | float (x : Binary64)
  | str (s : String)
  | arr (items : List Json)
  | obj (members : List (String × Json))
  | malformed

instance : Inhabited Json := ⟨.null⟩

/-- The members of an object, in order. -/
abbrev Members := List (String × Json)

namespace Members

/-- The value of the first member with this name. -/
def get? (members : Members) (name : String) : Option Json :=
  List.lookup name members

/-- Gives a member a value: in its place if the object has it, at the end if not. -/
def set (name : String) (value : Json) : Members → Members
  | [] => [(name, value)]
  | (other, old) :: rest =>
    if other = name then (name, value) :: rest else (other, old) :: set name value rest

/-- The members of a list of pairs, a later value of a name replacing an earlier one. -/
def ofPairs (pairs : List (String × Json)) : Members :=
  pairs.foldl (fun members (name, value) => members.set name value) []

/-- The names of the members, in order. -/
def names (members : Members) : List String := members.map Prod.fst

/-- Without the members of this name. -/
def drop (name : String) (members : Members) : Members :=
  members.filter (·.1 ≠ name)

theorem get?_set_self (name : String) (value : Json) (members : Members) :
    (members.set name value).get? name = some value := by
  induction members with
  | nil => simp [set, get?]
  | cons head rest ih =>
    obtain ⟨key, old⟩ := head
    simp only [get?] at ih ⊢
    by_cases h : key = name
    · simp [set, h]
    · have h' : (name == key) = false := by simpa using fun h' => h h'.symm
      simp [set, h, h', List.lookup_cons, ih]

theorem get?_set_of_ne {name other : String} (h : other ≠ name) (value : Json)
    (members : Members) : (members.set name value).get? other = members.get? other := by
  have hne : (other == name) = false := by simpa using h
  induction members with
  | nil => simp [set, get?, List.lookup_cons, hne]
  | cons head rest ih =>
    obtain ⟨key, old⟩ := head
    simp only [get?] at ih ⊢
    by_cases h' : key = name
    · subst h'
      simp [set, List.lookup_cons, hne]
    · simp only [set, h', if_false, List.lookup_cons, ih]

end Members

namespace Json

/-- The text of a string value. -/
def asStr? : Json → Option String
  | str s => some s
  | _ => none

/-- The members of an object. -/
def asObj? : Json → Option Members
  | obj members => some members
  | _ => none

def isObj : Json → Bool
  | obj _ => true
  | _ => false

/-- A number as it can be written: one that is not finite is null. -/
def ofBinary64 (x : Binary64) : Json :=
  if x.isFinite then float x else null

/-- A list of texts. -/
def ofStrings (texts : List String) : Json := arr (texts.map str)

/-- A value or null. -/
def ofOption {α : Type} (encode : α → Json) : Option α → Json
  | some a => encode a
  | none => null

mutual

/-- The value with every member named once, the last value of a name in its first place, provided
that no part is malformed and that objects and arrays are nested less than `depth` deep. -/
def strict? (depth : Nat) : Json → Option Json
  | null => some null
  | bool b => some (bool b)
  | int n => some (int n)
  | float x => some (float x)
  | str s => some (str s)
  | arr items =>
    if depth ≤ 1 then none else (strictItems? (depth - 1) items).map arr
  | obj members =>
    if depth ≤ 1 then none
    else (strictMembers? (depth - 1) members).map fun pairs => obj (Members.ofPairs pairs)
  | malformed => none

/-- `strict?` of every item. -/
def strictItems? (depth : Nat) : List Json → Option (List Json)
  | [] => some []
  | item :: rest => do some ((← strict? depth item) :: (← strictItems? depth rest))

/-- `strict?` of every member's value. -/
def strictMembers? (depth : Nat) : List (String × Json) → Option (List (String × Json))
  | [] => some []
  | (name, value) :: rest => do
    some ((name, ← strict? depth value) :: (← strictMembers? depth rest))

end

end Json

end TradeGate
