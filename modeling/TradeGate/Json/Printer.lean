import TradeGate.Json.Value
import TradeGate.Number.Shortest

/-!
# Writing JSON

`Json.compact` writes a value on one line without blanks, `Json.pretty` over several lines, two
blanks deeper for each level. Texts keep their characters but for quotes, backslashes and the
characters below the blank.
-/

namespace TradeGate.Json

/-- A hexadecimal digit, in lower case. -/
def hexDigit (n : Nat) : Char :=
  (Nat.digitChar (n % 16))

/-- A character as it stands between quotes. -/
def escape (c : Char) : List Char :=
  if c = '"' then ['\\', '"']
  else if c = '\\' then ['\\', '\\']
  else if c = '\x08' then ['\\', 'b']
  else if c = '\x0C' then ['\\', 'f']
  else if c = '\n' then ['\\', 'n']
  else if c = '\r' then ['\\', 'r']
  else if c = '\t' then ['\\', 't']
  else if c.toNat < 0x20 then
    ['\\', 'u', '0', '0', hexDigit (c.toNat / 16), hexDigit c.toNat]
  else [c]

/-- A text between quotes. -/
def quoted (s : String) : List Char :=
  '"' :: (s.toList.flatMap escape ++ ['"'])

/-- A whole number. -/
def intChars (n : Int) : List Char :=
  (if n < 0 then ['-'] else []) ++ Numeral.digits n.natAbs

/-- A binary64 number; one that is not finite is null. -/
def floatChars (x : Binary64) : List Char :=
  if x.isFinite then (x.text FloatText.data).toList else "null".toList

mutual

/-- The value on one line. -/
def chars : Json → List Char
  | null => "null".toList
  | bool true => "true".toList
  | bool false => "false".toList
  | int n => intChars n
  | float x => floatChars x
  | str s => quoted s
  | arr items => '[' :: (itemChars items ++ [']'])
  | obj members => '\x7b' :: (memberChars members ++ ['\x7d'])
  | malformed => "null".toList

/-- Items with commas between them. -/
def itemChars : List Json → List Char
  | [] => []
  | [item] => chars item
  | item :: next :: rest => chars item ++ ',' :: itemChars (next :: rest)

/-- Members with commas between them. -/
def memberChars : List (String × Json) → List Char
  | [] => []
  | [(name, value)] => quoted name ++ ':' :: chars value
  | (name, value) :: next :: rest =>
    quoted name ++ ':' :: (chars value ++ ',' :: memberChars (next :: rest))

end

/-- The value on one line. -/
def compact (value : Json) : String := String.ofList value.chars

/-- A line end and the blanks before a line at this level. -/
def newline (level : Nat) : List Char :=
  '\n' :: List.replicate (2 * level) ' '

mutual

/-- The value over several lines, its first line at the place where it stands. -/
def prettyChars (level : Nat) : Json → List Char
  | arr [] => ['[', ']']
  | arr (item :: rest) =>
    '[' :: (newline (level + 1) ++ prettyChars (level + 1) item ++
      prettyItems (level + 1) rest ++ newline level ++ [']'])
  | obj [] => ['\x7b', '\x7d']
  | obj ((name, value) :: rest) =>
    '\x7b' :: (newline (level + 1) ++ quoted name ++ ':' :: ' ' :: prettyChars (level + 1) value ++
      prettyMembers (level + 1) rest ++ newline level ++ ['\x7d'])
  | null => "null".toList
  | bool true => "true".toList
  | bool false => "false".toList
  | int n => intChars n
  | float x => floatChars x
  | str s => quoted s
  | malformed => "null".toList

/-- The items after the first one. -/
def prettyItems (level : Nat) : List Json → List Char
  | [] => []
  | item :: rest => ',' :: (newline level ++ prettyChars level item ++ prettyItems level rest)

/-- The members after the first one. -/
def prettyMembers (level : Nat) : List (String × Json) → List Char
  | [] => []
  | (name, value) :: rest =>
    ',' :: (newline level ++ quoted name ++ ':' :: ' ' :: prettyChars level value ++
      prettyMembers level rest)

end

/-- The value over several lines. -/
def pretty (value : Json) : String := String.ofList (prettyChars 0 value)

end TradeGate.Json
