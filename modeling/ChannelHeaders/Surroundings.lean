import ChannelHeaders.Event

/-!
# Clock, identifiers and the event log

Resolving headers and publishing messages draw fresh identifiers, read a clock and report
events.  The surroundings say what the next identifier and the next reading are; the
progress says how many were taken, what was reported, and which timestamp was the highest.

**Timestamps.**  A timestamp is the milliseconds since the epoch, but never less than one
handed out before.  Readings before the epoch count as the epoch, and readings past the
greatest 64-bit number as that number.
-/

namespace ChannelHeaders

/-- A moment, in nanoseconds since the epoch; negative before it. -/
structure Instant where
  nanoseconds : Int
deriving DecidableEq, Inhabited

/-- The greatest timestamp. -/
def maxTimestamp : Nat :=
  Nat.pow 2 64 - 1

/-- The whole milliseconds since the epoch, within the range of timestamps. -/
def Instant.milliseconds (i : Instant) : Nat :=
  min (i.nanoseconds / 1000000).toNat maxTimestamp

/-- Where identifiers and the time come from. -/
structure Surroundings where
  /-- The identifiers, in the order in which they are drawn. -/
  identifier : Nat → Identifier
  /-- The readings of the clock, in the order in which it is read. -/
  clock : Nat → Instant

/-- What was taken from the surroundings, and what was reported. -/
structure Progress where
  /-- The number of identifiers drawn. -/
  drawn : Nat
  /-- The number of readings of the clock. -/
  readings : Nat
  /-- The highest timestamp handed out. -/
  mark : Nat
  /-- The events, in the order in which they were reported. -/
  events : List Event
deriving DecidableEq, Inhabited

namespace Progress

/-- Nothing was taken or reported. -/
def start : Progress :=
  ⟨0, 0, 0, []⟩

end Progress

/-- Draws an identifier. -/
def drawIdentifier (s : Surroundings) : StateM Progress Identifier := fun p =>
  (s.identifier p.drawn, { p with drawn := p.drawn + 1 })

/-- Reads the clock. -/
def readClock (s : Surroundings) : StateM Progress Instant := fun p =>
  (s.clock p.readings, { p with readings := p.readings + 1 })

/-- Raises the mark to a reading, and returns the mark. -/
def raiseMark (reading : Nat) : StateM Progress Nat := fun p =>
  (max p.mark reading, { p with mark := max p.mark reading })

/-- Hands out a timestamp. -/
def timestamp (s : Surroundings) : StateM Progress Nat := do
  let now ← readClock s
  raiseMark now.milliseconds

/-- Reports an event. -/
def report (e : Event) : StateM Progress Unit := fun p =>
  ((), { p with events := p.events ++ [e] })

end ChannelHeaders
