import JobGrid.Time.Timestamp

/-!
# Heartbeats

A heartbeat is a timer that ticks at once and then in equal intervals, until it is stopped or,
at its next tick, finds that nobody listens any more.
-/

namespace JobGrid

/-- A timer. -/
structure Heartbeat where
  /-- The time between ticks, in milliseconds. -/
  interval : Nat
  next : Moment
  isRunning : Bool := true
  isHeard : Bool := true
  deriving DecidableEq

namespace Heartbeat

/-- A timer that ticks first at a given moment. An interval is at least a millisecond. -/
def start (interval : Nat) (now : Moment) : Heartbeat := { interval := max interval 1, next := now }

/-- Whether the timer ticks now. -/
def isDue (timer : Heartbeat) (now : Moment) : Bool := timer.isRunning && timer.next ≤ now

/-- The timer after a tick. -/
def tick (timer : Heartbeat) : Heartbeat :=
  if timer.isHeard then { timer with next := timer.next + timer.interval }
  else { timer with isRunning := false }

/-- Stops the timer. -/
def stop (timer : Heartbeat) : Heartbeat := { timer with isRunning := false }

/-- The receiver of the ticks goes away. -/
def drop (timer : Heartbeat) : Heartbeat := { timer with isHeard := false }

/-- Lets all ticks happen up to now, at most as many as the fuel, and counts those that were
heard. -/
def catchUp (now : Moment) : Nat → Heartbeat → Nat × Heartbeat
  | 0, timer => (0, timer)
  | fuel + 1, timer =>
      if timer.isDue now then
        let (count, final) := catchUp now fuel timer.tick
        (if timer.isHeard then count + 1 else count, final)
      else (0, timer)

/-- Lets all ticks happen up to now and counts those that were heard. -/
def advance (timer : Heartbeat) (now : Moment) : Nat × Heartbeat :=
  catchUp now (now + 1 - timer.next) timer

end Heartbeat

end JobGrid
