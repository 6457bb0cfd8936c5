import BootFlow.Platform.Basic

namespace BootFlow

/-- Input and output ports of a byte each. Reading a port may change it. -/
class Ports (σ : Type) where
  readPort : UInt16 → Action σ UInt8
  writePort : UInt16 → UInt8 → Action σ Unit

open Logging Ports

variable {σ : Type} [Ports σ]

namespace RegisterWindow

/-! The CPU-1900 shows its diagnostic registers through a window of ports. They
survive warm resets. -/

def base : UInt16 := 0x1100

def size : UInt16 := 0x200

/-- Registers outside the window read as all ones. -/
def read (register : UInt16) : Action σ UInt8 :=
  if register < size then readPort (base + register) else return 0xff

/-- Writes outside the window are dropped. -/
def write (register : UInt16) (value : UInt8) : Action σ Unit :=
  if register < size then writePort (base + register) value else return ()

end RegisterWindow

namespace SystemControl

def progressPort : UInt16 := 0x80
def resetControlPort : UInt16 := 0xcf9
def keyboardControllerPort : UInt16 := 0x64

def resetProcessor : UInt8 := 0x02
def resetSystem : UInt8 := 0x04
def pulseResetLine : UInt8 := 0xfe

def post (code : UInt8) : Action σ Unit :=
  writePort progressPort code

/-- A hard reset through the reset control register, and through the keyboard
controller in case the chipset ignores the register. -/
def reset [Logging σ] : Action σ Unit := do
  emit .info "Attempting a hard reboot"
  writePort resetControlPort resetProcessor
  writePort resetControlPort (resetSystem ||| resetProcessor)
  emit .warn "Reset control ignored, pulsing KBC reset line"
  writePort keyboardControllerPort pulseResetLine

/-- Parks the processor, as far as this layer goes. -/
def halt [Logging σ] : Action σ Unit :=
  emit .info "Halting"

end SystemControl

end BootFlow
