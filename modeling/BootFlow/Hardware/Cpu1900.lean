import BootFlow.Diagnostics
import BootFlow.Hardware.Ports
import BootFlow.Hardware.SerialLine

namespace BootFlow

/-! The CPU-1900 as a platform for the boot menu: the register window, the first
serial line as console and keyboard, and the reset control, on any machine that
has ports, a clock and a log. The serial line has no splash. -/

/-- A machine taken as a CPU-1900. -/
structure Cpu1900 (σ : Type) where
  machine : σ

namespace Cpu1900

variable {σ α : Type}

/-- Work on the machine is work on the board. -/
def onMachine (action : Action σ α) : Action (Cpu1900 σ) α := do
  let board ← get
  let (answer, machine) := action.run board.machine
  set (Cpu1900.mk machine)
  return answer

instance [Logging σ] : Logging (Cpu1900 σ) where
  emit level text := onMachine (Logging.emit level text)
  recent count board := Logging.recent count board.machine

instance [Clock σ] : Clock (Cpu1900 σ) where
  now := onMachine Clock.now
  idle budget := onMachine (Clock.idle budget)

variable [Ports σ]

instance : Registers (Cpu1900 σ) where
  readRegister register := onMachine (RegisterWindow.read register)
  writeRegister register value := onMachine (RegisterWindow.write register value)

instance : Keyboard (Cpu1900 σ) where
  pollKey := onMachine SerialLine.com1.pollKey

def printPlatformInfo : Action (Cpu1900 σ) Unit := do
  let cause := ResetCause.ofRegister (← Registers.readRegister Register.resetCause)
  onMachine (SerialLine.com1.sendText ("CPU1900: last reset " ++ cause.name ++ "\n"))

instance : Console (Cpu1900 σ) where
  print text := onMachine (SerialLine.com1.sendText text)
  status text := onMachine (SerialLine.com1.status text)
  clear := onMachine SerialLine.com1.clear
  showSplash _ := return ()
  hideSplash := return ()
  splashActive _ := false
  showPaused := return ()
  printPlatformInfo := printPlatformInfo

instance [Logging σ] : Machine (Cpu1900 σ) where
  post code := onMachine (SystemControl.post code)
  reset := onMachine SystemControl.reset
  halt := onMachine SystemControl.halt

/-- Sends the last lines of the log, for instance before a restart. -/
def dumpLog [Logging σ] (count : Nat) : Action (Cpu1900 σ) Unit := do
  let lines := Logging.recent count (← get).machine
  onMachine (SerialLine.com1.replay lines)

end Cpu1900

end BootFlow
