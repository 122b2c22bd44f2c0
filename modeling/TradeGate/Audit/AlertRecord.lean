import TradeGate.Alert.Notifier
import TradeGate.Json.Reader

/-!
# Alert records

What is kept of an alert, whether it was delivered or not, under an id of 128 bits.
-/

namespace TradeGate

-- Powers are those of the core library.
attribute [local instance (high)] instPowNat

/-- An id of 128 bits. -/
structure RecordId where
  value : Nat
  value_lt : value < 2 ^ (128 : Nat)
  deriving DecidableEq

namespace RecordId

/-- How many digits stand between the hyphens of an id. -/
def groups : List Nat := [8, 4, 4, 4, 12]

/-- The digits in groups with hyphens between them. -/
def hyphenated : List Nat → List Char → List Char
  | [], _ => []
  | [size], digits => digits.take size
  | size :: sizes, digits => digits.take size ++ '-' :: hyphenated sizes (digits.drop size)

/-- The hexadecimal digits, all 32 of them. -/
def digits (id : RecordId) : List Char :=
  let written := Nat.toDigits 16 id.value
  List.replicate (32 - written.length) '0' ++ written

def text (id : RecordId) : String := String.ofList (hyphenated groups id.digits)

/-- The id that 32 hexadecimal digits write. -/
def ofDigits? (cs : List Char) : Option RecordId := do
  let digits ← cs.mapM Json.hexDigit?
  let value := digits.foldl (16 * · + ·) 0
  if h : value < 2 ^ (128 : Nat) then if cs.length = 32 then some ⟨value, h⟩ else none else none

/-- The digits of groups with hyphens between them. -/
def withoutHyphens? : List Nat → List Char → Option (List Char)
  | [], _ => none
  | [size], cs => if cs.length = size then some cs else none
  | size :: sizes, cs =>
    match cs.drop size with
    | '-' :: rest => (withoutHyphens? sizes rest).map (cs.take size ++ ·)
    | _ => none

/-- The word that may stand before an id. -/
def label : List Char := "urn:uuid:".toList

/-- Reads an id: 32 digits, or groups of digits, also in braces or after the label in any case. -/
def read? (s : String) : Option RecordId :=
  let cs := s.toList
  let grouped (cs : List Char) : Option RecordId := (withoutHyphens? groups cs).bind ofDigits?
  if cs.length = 32 then ofDigits? cs
  else match cs with
    | '\x7b' :: rest => if rest.getLast? = some '\x7d' then grouped rest.dropLast else none
    | cs =>
      if (cs.take label.length).map Char.toLower = label then grouped (cs.drop label.length)
      else grouped cs

def codec : Codec RecordId where
  encode id := .str id.text
  decode _ value := value.asStr?.bind read?

/-- The id of a number, which wraps round beyond 128 bits. -/
def ofNat (n : Nat) : RecordId := ⟨n % 2 ^ (128 : Nat), Nat.mod_lt _ (by decide)⟩

/-- The id of 128 random bits. Four of them are replaced by the version, which is 4, and two by the
variant, which is 2. -/
def ofRandom (bits : Nat) : RecordId :=
  let high := bits / 2 ^ (80 : Nat) * 16 + 4
  let middle := high * 2 ^ (12 : Nat) + bits / 2 ^ (64 : Nat) % 2 ^ (12 : Nat)
  ofNat ((middle * 4 + 2) * 2 ^ (62 : Nat) + bits % 2 ^ (62 : Nat))

end RecordId

/-- What is kept of an alert. -/
structure AlertRecord where
  id : RecordId
  evaluationId : String
  alertType : String
  severity : Severity
  title : String
  message : String
  sent : Bool
  sendError : Option String
  rateLimited : Bool
  createdAt : Instant
  deriving DecidableEq

namespace AlertRecord

/-- A record of an alert of which nothing has become yet. -/
def fresh (id : RecordId) (evaluationId alertType : String) (severity : Severity)
    (title message : String) (createdAt : Instant) : AlertRecord where
  id
  evaluationId
  alertType
  severity
  title
  message
  sent := false
  sendError := none
  rateLimited := false
  createdAt

/-- The type of the alerts about blocked trades. -/
def tradeBlocked : String := "TRADE_BLOCKED"

/-- The record of an outcome; a block of which no alert was tried has none. -/
def ofOutcome? (id : RecordId) (outcome : AlertOutcome) (now : Instant) : Option AlertRecord := do
  let alert ← outcome.alert?
  let record :=
    fresh id alert.evaluationId tradeBlocked alert.severity alert.title alert.text now
  match outcome with
  | .sent _ => some { record with sent := true }
  | .rateLimited .. => some { record with rateLimited := true }
  | .failed _ failure => some { record with sendError := some failure.message }
  | .noSender _ => some { record with sendError := some "no alert sender configured" }
  | .skipped _ => some record

def record : Record AlertRecord AlertRecord :=
  Record.start AlertRecord.mk
    |>.required "id" (·.id) RecordId.codec
    |>.required "evaluation_id" (·.evaluationId) .string
    |>.required "alert_type" (·.alertType) .string
    |>.required "severity" (·.severity) .severity
    |>.required "title" (·.title) .string
    |>.required "message" (·.message) .string
    |>.required "sent" (·.sent) .bool
    |>.nullable "send_error" (·.sendError) .string
    |>.required "rate_limited" (·.rateLimited) .bool
    |>.required "created_at" (·.createdAt) .instant

def codec : Codec AlertRecord := record.codec false

def toJson (alert : AlertRecord) : Json := codec.encode alert

end AlertRecord

end TradeGate
