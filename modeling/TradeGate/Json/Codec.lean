import TradeGate.Json.Value
import TradeGate.Number.Amount
import TradeGate.Time.Timestamp

/-!
# Codecs

A codec writes the values of a type as JSON values and reads them back. Documents come in two
dialects, which differ in how strict they are where a record is given as an array and where a name
is given as an object.
-/

namespace TradeGate

/-- What a kind of document allows. -/
structure Dialect where
  /-- An array that stands for a record may have more items than the record has fields. -/
  extraItems : Bool
  /-- What may stand beside a name that is given as the only member of an object. -/
  emptyPayload : Json → Bool

namespace Dialect

/-- JSON documents. -/
def json : Dialect where
  extraItems := false
  emptyPayload
    | .null => true
    | _ => false

/-- TOML documents. -/
def toml : Dialect where
  extraItems := true
  emptyPayload
    | .arr [] => true
    | .obj [] => true
    | _ => false

end Dialect

/-- Writing and reading the values of a type. -/
structure Codec (α : Type) where
  encode : α → Json
  decode : Dialect → Json → Option α

namespace Codec

def string : Codec String where
  encode := .str
  decode _ := Json.asStr?

def bool : Codec Bool where
  encode := .bool
  decode
    | _, .bool b => some b
    | _, _ => none

/-- A binary64 number, from a whole number too. One that is not finite is written as null and so
not read back. -/
def binary64 : Codec Binary64 where
  encode := Json.ofBinary64
  decode
    | _, .float x => some x
    | _, .int n => some (.ofInt n)
    | _, _ => none

/-- A whole number without sign below a bound. -/
def natBelow? (bound : Nat) : Json → Option Nat
  | .int n => if 0 ≤ n ∧ n < bound then some n.toNat else none
  | _ => none

def uint8 : Codec UInt8 where
  encode n := .int n.toNat
  decode _ value := (natBelow? UInt8.size value).map UInt8.ofNat

def uint32 : Codec UInt32 where
  encode n := .int n.toNat
  decode _ value := (natBelow? UInt32.size value).map UInt32.ofNat

def uint64 : Codec UInt64 where
  encode n := .int n.toNat
  decode _ value := (natBelow? UInt64.size value).map UInt64.ofNat

/-- A decimal amount as a text, so that its scale is kept; read from a number too. -/
def amount : Codec Amount where
  encode x := .str x.text
  decode
    | _, .str s => Amount.read? s
    | _, .int n => Amount.ofInt? n
    | _, .float x => Amount.ofBinary64? x
    | _, _ => none

def instant : Codec Instant where
  encode t := .str t.text
  decode _ value := value.asStr?.bind Instant.read?

def date : Codec Date where
  encode d := .str d.text
  decode _ value := value.asStr?.bind Date.read?

/-- A value that may be null. -/
def option {α : Type} (item : Codec α) : Codec (Option α) where
  encode := Json.ofOption item.encode
  decode
    | _, .null => some none
    | dialect, value => (item.decode dialect value).map some

def list {α : Type} (item : Codec α) : Codec (List α) where
  encode items := .arr (items.map item.encode)
  decode
    | dialect, .arr items => items.mapM (item.decode dialect)
    | _, _ => none

/-- One of a list of values by its name: the name as a text, or as the only member of an object
with nothing beside it. -/
def named {α : Type} (values : List α) (name : α → String) : Codec α where
  encode a := .str (name a)
  decode
    | _, .str s => values.find? (name · = s)
    | dialect, .obj [(s, payload)] =>
      if dialect.emptyPayload payload then values.find? (name · = s) else none
    | _, _ => none

end Codec

end TradeGate
