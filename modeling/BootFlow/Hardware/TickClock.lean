namespace BootFlow

/-- The timer interrupt counts ticks, and starts again from zero at midnight.
The clock adds up what went by between its readings of the counter. -/
structure TickClock where
  last : UInt32
  total : Nat
  deriving DecidableEq, Repr

namespace TickClock

/-- The counter goes back to zero when it reaches this value. -/
def ticksPerDay : UInt32 := 0x1800b0

/-- Input frequency of the timer, which divides it by 65536. -/
def timerHertz : Nat := 1193180

def toMillis (ticks : Nat) : Nat :=
  ticks * 65536 * 1000 / timerHertz

/-- A clock that starts at what the counter shows. -/
def start (counter : UInt32) : TickClock where
  last := counter
  total := counter.toNat

/-- Ticks from one reading to the next. A counter that went back passed midnight. -/
def elapsed (earlier later : UInt32) : UInt32 :=
  if earlier ≤ later then later - earlier else ticksPerDay - earlier + later

/-- The clock after a reading of the counter. -/
def observe (clock : TickClock) (counter : UInt32) : TickClock where
  last := counter
  total := clock.total + (elapsed clock.last counter).toNat

def millis (clock : TickClock) : Nat :=
  toMillis clock.total

end TickClock

end BootFlow
