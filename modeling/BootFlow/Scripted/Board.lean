import BootFlow.Platform.Recorded

namespace BootFlow.Scripted

/-! A board with a prepared keyboard. It has every operation of a platform, and
time passes on it only while it idles. Console, boot attempts and machine
control have no effect of their own; run the board under record to see them. -/

/-- A key that can be polled from a moment on. -/
structure TimedKey where
  time : Nat
  scan : UInt8
  deriving DecidableEq, Repr

structure Board where
  registers : Array UInt8 := Array.replicate 32 0
  keys : List TimedKey := []
  now : Nat := 0
  /-- The longest time that one idle takes. -/
  step : Nat := 10
  hasSplash : Bool := true
  splash : Bool := false
  /-- The drive id of the next hard disk. -/
  nextDisk : UInt32 := 0
  log : Log := {}
  deriving DecidableEq, Repr

namespace Board

/-- Registers that the board does not have read as all ones. -/
def register (board : Board) (offset : UInt16) : UInt8 :=
  board.registers[offset.toNat]?.getD 0xff

def setRegister (board : Board) (offset : UInt16) (value : UInt8) : Board :=
  { board with registers := board.registers.setIfInBounds offset.toNat value }

/-- Registers that are not zero, in order. -/
def nonzeroRegisters (board : Board) : List (Nat × UInt8) :=
  (board.registers.toList.zipIdx.filter fun (value, _) => value != 0).map fun (value, offset) =>
    (offset, value)

/-- How far an idle with this budget takes the clock. -/
def idleTime (step : Nat) : Option UInt32 → Nat
  | none => step
  | some budget => max 1 (min budget.toNat step)

/-- The first key counts once its time has come, and later ones only behind it. -/
def takeKey (board : Board) : Option UInt8 × Board :=
  match board.keys with
  | [] => (none, board)
  | key :: others =>
      if key.time ≤ board.now then (some key.scan, { board with keys := others }) else (none, board)

instance : Timeline Board where
  moment board := board.now

instance : Logging Board where
  emit level text := modify fun board => { board with log := board.log.record level text }
  recent count board := board.log.ring.last count

instance : Registers Board where
  readRegister offset := do return (← get).register offset
  writeRegister offset value := modify (·.setRegister offset value)

instance : Keyboard Board where
  pollKey := modifyGet takeKey

instance : Clock Board where
  now := do return (← get).now
  idle budget := modify fun board => { board with now := board.now + idleTime board.step budget }

instance : Console Board where
  print _ := return ()
  status _ := return ()
  clear := return ()
  showSplash _ := modify fun board => { board with splash := board.splash || board.hasSplash }
  hideSplash := modify fun board => { board with splash := false }
  splashActive board := board.splash
  showPaused := return ()

instance : DriveMapper Board where
  mapFloppy _ := return ()
  mapHardDisk _ := modifyGet fun board =>
    (board.nextDisk, { board with nextDisk := board.nextDisk + 1 })
  mapCdRom _ := return ()
  callConnectionVector _ := return ()

instance : Launcher Board where
  bootFloppy _ := return ()
  bootHardDisk _ := return ()
  bootCdRom _ := return ()
  bootCbfs _ := return ()
  bootRom _ := return ()

instance : Machine Board where
  post _ := return ()
  reset := return ()
  halt := return ()

end Board

end BootFlow.Scripted
