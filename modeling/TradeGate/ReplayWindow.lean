import Std.Data.HashMap
import TradeGate.Time.Instant

/-!
# The replay window

The request ids of the recent past, each with the instant at which it was admitted. A list holds
them in the order of admission, so that only what has expired is touched when ids are forgotten,
and an index finds an id. Main definitions: `ReplayWindow`, `ReplayWindow.register`.
-/

namespace TradeGate

-- Powers are those of the core library.
attribute [local instance (high)] instPowNat

/-- Request ids with the instants at which they were admitted. -/
structure ReplayWindow where
  /-- How long an id is kept, in nanoseconds. -/
  span : Int
  /-- The ids in the order of admission. -/
  queue : List (String × Instant)
  /-- The same ids, to be looked up. -/
  index : Std.HashMap String Instant

namespace ReplayWindow

/-- The most seconds that a span may have: a span of milliseconds fits 63 bits. -/
def maxSeconds : Nat := (2 ^ (63 : Nat) - 1) / 1000

/-- An empty window of a number of seconds; more than there can be are cut down. -/
def ofSeconds (seconds : UInt64) : ReplayWindow where
  span := min seconds.toNat maxSeconds * nanosPerSecond
  queue := []
  index := ∅

/-- The window in whole seconds. -/
def seconds (window : ReplayWindow) : Int := window.span / nanosPerSecond

/-- How many ids are held. -/
def size (window : ReplayWindow) : Nat := window.index.size

/-- Forgets ids from the front as long as they are older than `span`. -/
def expire (span : Int) (now : Instant) :
    List (String × Instant) → Std.HashMap String Instant →
      List (String × Instant) × Std.HashMap String Instant
  | [], index => ([], index)
  | (id, seen) :: rest, index =>
    if now.nanosSince seen ≤ span then ((id, seen) :: rest, index)
    else expire span now rest (index.erase id)

/-- The window without the ids at its front that have expired at `now`. -/
def evict (window : ReplayWindow) (now : Instant) : ReplayWindow :=
  let (queue, index) := expire window.span now window.queue window.index
  { window with queue, index }

/-- Admits an id at `now`, unless it is held; then the instant of its admission is returned and
stays what it was. Expired ids are forgotten first. -/
def register (window : ReplayWindow) (id : String) (now : Instant) :
    Option Instant × ReplayWindow :=
  let window := window.evict now
  match window.index[id]? with
  | some seen => (some seen, window)
  | none =>
    (none, { window with
      queue := window.queue ++ [(id, now)]
      index := window.index.insert id now })

/-- Forgets all ids. -/
def clear (window : ReplayWindow) : ReplayWindow :=
  { window with queue := [], index := ∅ }

/-- A description for operators. -/
def describe (window : ReplayWindow) : String :=
  "DuplicateRequestCache \x7b window_seconds: " ++ toString window.seconds ++ ", entries: " ++
    toString window.size ++ " \x7d"

end ReplayWindow

end TradeGate
