import TradeGate.Json.Value

/-!
# Tables under construction

A document fills a tree of tables. A table comes into being by a header, on the way to a header
below it, or on the way of a dotted key; which one decides whether it may be added to later. Main
definitions: `Node`, `openTable?`, `openItem?`, `assign?`.
-/

namespace TradeGate.Toml

/-- How a table came into being. -/
inductive Origin where
  /-- By a header of its own, or as the root. -/
  | header
  /-- On the way to the header of a table below it. -/
  | passed
  /-- On the way of a dotted key. -/
  | dotted
  deriving DecidableEq

/-- A part of a document: a finished value, a table, or the tables of a list. -/
inductive Node where
  | value (v : Json)
  | table (origin : Origin) (entries : List (String × Node))
  | tables (items : List (List (String × Node)))

/-- The entries of a table. -/
abbrev Entries := List (String × Node)

namespace Entries

/-- The entry of this name. -/
def get? (entries : Entries) (name : String) : Option Node := List.lookup name entries

/-- Replaces the entry of this name, or adds it at the end. -/
def set (name : String) (node : Node) : Entries → Entries
  | [] => [(name, node)]
  | (other, old) :: rest =>
    if other = name then (name, node) :: rest else (other, old) :: set name node rest

end Entries

/-- Applies `change` to the last of the tables of a list. -/
def changeLast? (change : Entries → Option Entries) : List Entries → Option (List Entries)
  | [] => none
  | [last] => (change last).map ([·])
  | first :: rest => (changeLast? change rest).map (first :: ·)

/-- Applies `change` to the table at the end of a path; tables that are missing on the way are made
with the given origin. A path that is a dotted key may not go through a table that has a header of
its own, and no path goes through a value. -/
def descend? (making : Origin) (change : Origin → Entries → Option Entries) :
    List String → Origin → Entries → Option Entries
  | [], origin, entries => change origin entries
  | name :: path, _, entries =>
    match entries.get? name with
    | none => do
      let below ← descend? making change path making []
      some (entries.set name (.table making below))
    | some (.value _) => none
    | some (.tables items) => do
      let items ← changeLast? (descend? making change path .header) items
      some (entries.set name (.tables items))
    | some (.table origin below) =>
      if making = .dotted ∧ origin = .header then none
      else do
        let below ← descend? making change path origin below
        some (entries.set name (.table origin below))

/-- Gives the table at the end of a dotted path a value under a new name. A table that only headers
have passed through takes no value from a dotted key. -/
def assign? (path : List String) (name : String) (node : Node) (origin : Origin)
    (entries : Entries) : Option Entries :=
  descend? .dotted (fun origin entries =>
    if (origin = .dotted) = path.isEmpty then none
    else match entries.get? name with
      | none => some (entries.set name node)
      | some _ => none) path origin entries

/-- Opens the table of a header. It may have been passed through, but not opened before. -/
def openTable? (path : List String) (name : String) (root : Entries) : Option Entries :=
  descend? .passed (fun _ entries =>
    match entries.get? name with
    | none => some (entries.set name (.table .header []))
    | some (.table .passed below) => some (entries.set name (.table .header below))
    | some _ => none) path .header root

/-- Opens a further table of a list of tables. -/
def openItem? (path : List String) (name : String) (root : Entries) : Option Entries :=
  descend? .passed (fun _ entries =>
    match entries.get? name with
    | none => some (entries.set name (.tables [[]]))
    | some (.tables items) => some (entries.set name (.tables (items ++ [[]])))
    | some _ => none) path .header root

/-- Changes the table that was opened last, which is at the end of `path`. -/
def inTable? (path : List String) (change : Origin → Entries → Option Entries) (root : Entries) :
    Option Entries :=
  descend? .passed change path .header root

mutual

/-- The value of a part of a document. -/
def Node.toJson : Node → Json
  | .value v => v
  | .table _ entries => .obj (entriesToMembers entries)
  | .tables items => .arr (tablesToItems items)

def entriesToMembers : List (String × Node) → List (String × Json)
  | [] => []
  | (name, node) :: rest => (name, node.toJson) :: entriesToMembers rest

def tablesToItems : List (List (String × Node)) → List Json
  | [] => []
  | entries :: rest => .obj (entriesToMembers entries) :: tablesToItems rest

end

end TradeGate.Toml
