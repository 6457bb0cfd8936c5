import BootFlow.Hardware.SerialLine
import BootFlow.Hardware.TickClock

namespace BootFlow.Scripted

/-! A port space with prepared answers, a clock and a log: what a CPU-1900 needs
to run without hardware. -/

/-- A byte on the serial line that arrives at an idle of this number. -/
structure Arrival where
  idles : Nat
  byte : UInt8
  deriving DecidableEq, Repr

/-- A clock that every idle moves on by the same step. -/
inductive Timer
  | steady (now : Nat) (step : Nat)
  | ticks (clock : TickClock) (counter : UInt32) (step : UInt32)
  deriving DecidableEq, Repr

namespace Timer

def now : Timer → Nat × Timer
  | .steady now step => (now, .steady now step)
  | .ticks clock counter step =>
      let clock := clock.observe counter
      (clock.millis, .ticks clock counter step)

/-- The tick counter starts again at midnight. -/
def advance : Timer → Timer
  | .steady now step => .steady (now + step) step
  | .ticks clock counter step =>
      let counter := counter + step
      .ticks clock
        (if TickClock.ticksPerDay ≤ counter then counter - TickClock.ticksPerDay else counter) step

end Timer

structure Rig where
  /-- What a port holds. Ports that are not listed float high. -/
  values : List (UInt16 × UInt8) := []
  /-- What a port gives first, each value once. -/
  queued : List (UInt16 × List UInt8) := []
  arrivals : List Arrival := []
  idles : Nat := 0
  timer : Timer := .steady 0 10
  reads : Array UInt16 := #[]
  writes : Array (UInt16 × UInt8) := #[]
  log : Log := {}

namespace Rig

def setPort (port : UInt16) (value : UInt8) : List (UInt16 × UInt8) → List (UInt16 × UInt8)
  | [] => [(port, value)]
  | (other, old) :: rest =>
      if other = port then (port, value) :: rest else (other, old) :: setPort port value rest

/-- Takes the first queued value of a port out of the queues. -/
def takeQueued (port : UInt16) :
    List (UInt16 × List UInt8) → Option (UInt8 × List (UInt16 × List UInt8))
  | [] => none
  | (other, values) :: rest =>
      match if other = port then values else [] with
      | value :: later => some (value, (other, later) :: rest)
      | [] => (takeQueued port rest).map fun (value, queues) => (value, (other, values) :: queues)

/-- The byte that the serial line has received, and those behind it. -/
def arrived (rig : Rig) : Option (UInt8 × List Arrival) :=
  match rig.arrivals with
  | arrival :: later => if arrival.idles ≤ rig.idles then some (arrival.byte, later) else none
  | [] => none

/-- A queued value goes first. Otherwise the first serial line shows what has
arrived, in its data and status ports, and all else is what the port holds. -/
def read (rig : Rig) (port : UInt16) : UInt8 × Rig :=
  let rig := { rig with reads := rig.reads.push port }
  match takeQueued port rig.queued with
  | some (value, queued) => (value, { rig with queued })
  | none =>
      let value := (rig.values.lookup port).getD 0xff
      match rig.arrived with
      | some (byte, later) =>
          if port = SerialLine.com1.base then (byte, { rig with arrivals := later })
          else if port = SerialLine.com1.statusPort then (value ||| SerialLine.dataReady, rig)
          else (value, rig)
      | none => (value, rig)

def write (rig : Rig) (port : UInt16) (value : UInt8) : Rig :=
  { rig with values := setPort port value rig.values, writes := rig.writes.push (port, value) }

instance : Ports Rig where
  readPort port := modifyGet (·.read port)
  writePort port value := modify (·.write port value)

instance : Clock Rig where
  now := modifyGet fun rig =>
    let (now, timer) := rig.timer.now
    (now, { rig with timer })
  idle _ := modify fun rig => { rig with idles := rig.idles + 1, timer := rig.timer.advance }

instance : Logging Rig where
  emit level text := modify fun rig => { rig with log := rig.log.record level text }
  recent count rig := rig.log.ring.last count

/-- Adds one to the count of a port in a list of ports in ascending order. -/
def countPort (port : UInt16) : List (UInt16 × Nat) → List (UInt16 × Nat)
  | [] => [(port, 1)]
  | (other, count) :: rest =>
      if port < other then (port, 1) :: (other, count) :: rest
      else if port = other then (other, count + 1) :: rest
      else (other, count) :: countPort port rest

/-- How often each port was read, in ascending order of ports. -/
def readCounts (rig : Rig) : List (UInt16 × Nat) :=
  rig.reads.foldl (fun counts port => countPort port counts) []

end Rig

end BootFlow.Scripted
