import TradeGate.Toml.Scalar
import TradeGate.Toml.Table

/-!
# Reading TOML

`Toml.read?` reads a document as one object: tables and inline tables are objects, arrays and lists
of tables are arrays.
-/

namespace TradeGate.Toml

open Text (Front)

/-- Arrays and inline tables are nested less than this deep, and keys have fewer parts. -/
def depthLimit : Nat := 80

/-! ## Blanks, comments and lines -/

/-- The rest of a line after an optional comment, from its end on. -/
def skipComment? : List Char → Option (List Char)
  | '#' :: rest =>
    let rest := rest.dropWhile isPlain
    if rest = [] ∨ (lineEnd? rest).isSome then some rest else none
  | cs => some cs

/-- The end of a statement: blanks, a comment, and the line end or the end of the text. -/
def statementEnd? (cs : List Char) : Option (List Char) := do
  match ← skipComment? (skipBlanks cs) with
  | [] => some []
  | cs => lineEnd? cs

/-- Blanks, comments and line ends within an array. -/
def skipFiller : Nat → List Char → Option (List Char)
  | 0, _ => none
  | fuel + 1, cs =>
    match skipBlanks cs with
    | '#' :: rest => do skipFiller fuel (← skipComment? ('#' :: rest))
    | cs =>
      match lineEnd? cs with
      | some rest => skipFiller fuel rest
      | none => some cs

/-! ## Keys -/

/-- A character of a key without quotes. -/
def isKeyChar (c : Char) : Bool :=
  c.isAlphanum || c = '_' || c = '-'

/-- One part of a key. -/
def keyPart : Front String
  | '"' :: rest => shortText ('"' :: rest)
  | '\'' :: rest => shortText ('\'' :: rest)
  | cs =>
    match cs.span isKeyChar with
    | ([], _) => none
    | (run, rest) => some (.ofList run, rest)

/-- The parts of a key, with points between them and blanks around them. -/
def keyParts : Nat → Front (List String)
  | 0, _ => none
  | fuel + 1, cs => do
    let (part, rest) ← keyPart (skipBlanks cs)
    match skipBlanks rest with
    | '.' :: rest => do
      let (parts, rest) ← keyParts fuel rest
      some (part :: parts, rest)
    | rest => some ([part], rest)

/-- A key: the path to a table and the name within it. -/
def key : Front (List String × String) := fun cs => do
  let (parts, rest) ← keyParts (depthLimit - 1) cs
  some ((parts.dropLast, ← parts.getLast?), rest)

/-! ## Values -/

mutual

/-- A value that arrays and inline tables may be nested in up to `depth`. -/
def value (depth : Nat) : Nat → Front Json
  | 0, _ => none
  | fuel + 1, cs =>
    match cs with
    | '"' :: _ => (text cs).map fun (s, rest) => (.str s, rest)
    | '\'' :: _ => (text cs).map fun (s, rest) => (.str s, rest)
    | 't' :: 'r' :: 'u' :: 'e' :: rest => some (.bool true, rest)
    | 'f' :: 'a' :: 'l' :: 's' :: 'e' :: rest => some (.bool false, rest)
    | '[' :: rest =>
      if depth = 0 then none
      else (items (depth - 1) fuel rest).map fun (items, rest) => (.arr items, rest)
    | '\x7b' :: rest =>
      if depth = 0 then none
      else match skipBlanks rest with
        | '\x7d' :: rest => some (.obj [], rest)
        | rest =>
          (pairs (depth - 1) fuel [] rest).map fun (entries, rest) =>
            (.obj (entriesToMembers entries), rest)
    | cs => numberOrMoment cs

/-- The items of an array up to its closing bracket; a comma may follow the last one. -/
def items (depth : Nat) : Nat → Front (List Json)
  | 0, _ => none
  | fuel + 1, cs => do
    match ← skipFiller (cs.length + 1) cs with
    | ']' :: rest => some ([], rest)
    | cs => do
      let (item, rest) ← value depth fuel cs
      match ← skipFiller (rest.length + 1) rest with
      | ']' :: rest => some ([item], rest)
      | ',' :: rest => do
        let (others, rest) ← items depth fuel rest
        some (item :: others, rest)
      | _ => none

/-- The entries of an inline table up to its closing brace, added to those before them. -/
def pairs (depth : Nat) : Nat → Entries → Front Entries
  | 0, _, _ => none
  | fuel + 1, entries, cs => do
    let ((path, name), rest) ← key cs
    match rest with
    | '=' :: rest => do
      let (v, rest) ← value depth fuel (skipBlanks rest)
      let entries ← assign? path name (.value v) .header entries
      match skipBlanks rest with
      | '\x7d' :: rest => some (entries, rest)
      | ',' :: rest => pairs depth fuel entries rest
      | _ => none
    | _ => none

end

/-! ## Documents -/

/-- A document so far: its tables, and the path of the one that was opened last. -/
structure Draft where
  root : Entries
  opened : List String

/-- One statement, and the text after its line. -/
def statement (draft : Draft) (cs : List Char) : Option (Draft × List Char) :=
  match cs with
  | '[' :: '[' :: rest => do
    let ((path, name), rest) ← key rest
    match rest with
    | ']' :: ']' :: rest =>
      some (⟨← openItem? path name draft.root, path ++ [name]⟩, ← statementEnd? rest)
    | _ => none
  | '[' :: rest => do
    let ((path, name), rest) ← key rest
    match rest with
    | ']' :: rest =>
      some (⟨← openTable? path name draft.root, path ++ [name]⟩, ← statementEnd? rest)
    | _ => none
  | cs => do
    let ((path, name), rest) ← key cs
    match rest with
    | '=' :: rest => do
      let (v, rest) ← value (depthLimit - 1) (2 * rest.length + 2) (skipBlanks rest)
      let root ← inTable? draft.opened (assign? path name (.value v)) draft.root
      some (⟨root, draft.opened⟩, ← statementEnd? rest)
    | _ => none

/-- The statements of a document. -/
def statements : Nat → Draft → List Char → Option Draft
  | 0, _, _ => none
  | fuel + 1, draft, cs =>
    match skipBlanks cs with
    | [] => some draft
    | '#' :: rest => do statements fuel draft (← statementEnd? ('#' :: rest))
    | cs =>
      match lineEnd? cs with
      | some rest => statements fuel draft rest
      | none => do
        let (draft, rest) ← statement draft cs
        statements fuel draft rest

/-- Reads a document as an object. -/
def read? (s : String) : Option Json := do
  let cs := match s.toList with
    | '\uFEFF' :: rest => rest
    | cs => cs
  let draft ← statements (cs.length + 1) ⟨[], []⟩ cs
  some (.obj (entriesToMembers draft.root))

end TradeGate.Toml
