import BootFlow.Platform.Basic
import BootFlow.Text

namespace BootFlow

open Registers Logging

/-! The board keeps a window of byte registers that outlives a reset. What the
previous boot left there decides where this one starts. -/

namespace Register

def options : UInt16 := 0x05
def ledRate : UInt16 := 0x07
def ledDuty : UInt16 := 0x08
def resetCause : UInt16 := 0x0e
def biosBoot : UInt16 := 0x17
def bootStage : UInt16 := 0x18
def lastStage : UInt16 := 0x19
def bootSource : UInt16 := 0x1a
def bootCount : UInt16 := 0x1b

end Register

namespace Field

def resetCauseMask : UInt8 := 0x07

/-- Set in the BIOS boot register once the firmware came up. -/
def biosHappy : UInt8 := 0x10

/-- The menu position in the boot source register. -/
def sourceIndexMask : UInt8 := 0x0f

/-- Set in the boot count register to keep the firmware from looking happy. -/
def testHappy : UInt8 := 0x40

/-- The failed boots in the boot count register. The other bits are test flags. -/
def failureCountMask : UInt8 := 0x0f

/-- Clear in the options register while the debug jumper is fitted. -/
def debugMask : UInt8 := 0x10

def ledGreenBlink : UInt8 := 0x40
def ledTwoHertz : UInt8 := 4

end Field

namespace Stage

/-! Marks of how far a boot came. -/

def splash : UInt8 := 0x10
def splashOff : UInt8 := 0x11

/-- A payload was attempted. -/
def payload : UInt8 := 0x1f

/-- The operating system's driver took over. -/
def osDriver : UInt8 := 0x20

end Stage

inductive ResetCause
  | cold
  | watchdog
  | sleep
  | power
  | software
  | unknown (code : UInt8)
  deriving DecidableEq, Repr

namespace ResetCause

/-- Only the low three bits of the register hold the cause. -/
def ofRegister (value : UInt8) : ResetCause :=
  match value &&& Field.resetCauseMask with
  | 0 => .cold
  | 1 => .watchdog
  | 2 => .sleep
  | 3 => .power
  | 4 => .software
  | code => .unknown code

def code : ResetCause → UInt8
  | .cold => 0
  | .watchdog => 1
  | .sleep => 2
  | .power => 3
  | .software => 4
  | .unknown code => code

/-- Resets that a payload brings about when it fails to come up. -/
def isRecoverable : ResetCause → Bool
  | .watchdog | .software => true
  | _ => false

def name : ResetCause → String
  | .cold => "Cold"
  | .watchdog => "Watchdog"
  | .sleep => "Sleep"
  | .power => "Power"
  | .software => "Software"
  | .unknown _ => "Unknown"

end ResetCause

/-- The bus that a boot came from, as the boot source register tells it. -/
inductive BootSource
  | none
  | usb
  | sata
  | mmc
  | other
  deriving DecidableEq, Repr

namespace BootSource

def code : BootSource → UInt8
  | .none => 0x00
  | .usb => 0x10
  | .sata => 0x20
  | .mmc => 0x30
  | .other => 0x40

/-- Drivers start a description with the name of the bus, four bytes long. -/
def classify (description : String) : BootSource :=
  let bus := (Text.bytes description).take 4
  if bus = Text.bytes "USB " then .usb
  else if bus = Text.bytes "AHCI" then .sata
  else if bus = Text.bytes "MMC " then .mmc
  else .other

/-- The register value for a menu position. Positions run from 1 to 15, and one
outside takes the nearer end. -/
def encode (source : BootSource) (position : Nat) : UInt8 :=
  source.code ||| UInt8.ofNat (max 1 (min position Field.sourceIndexMask.toNat))

end BootSource

/-- What the previous boot left in the diagnostic registers. -/
structure RecoveryState where
  resetCause : ResetCause
  lastStage : UInt8
  bootSource : UInt8
  bootCount : UInt8
  deriving DecidableEq, Repr

namespace RecoveryState

def lastPosition (state : RecoveryState) : UInt8 :=
  state.bootSource &&& Field.sourceIndexMask

/-- Failed boots in a row. The reset handler counts them, not the boot flow. -/
def failureCount (state : RecoveryState) : UInt8 :=
  state.bootCount &&& Field.failureCountMask

end RecoveryState

namespace Diagnostics

variable {σ : Type} [Registers σ]

def readRecoveryState : Action σ RecoveryState := do
  let resetCause ← readRegister Register.resetCause
  let lastStage ← readRegister Register.lastStage
  let bootSource ← readRegister Register.bootSource
  let bootCount ← readRegister Register.bootCount
  return { resetCause := .ofRegister resetCause, lastStage, bootSource, bootCount }

/-- Clears the count of failed boots and keeps the test flags. A reset between
the read and the write leaves the old count, which does no harm. -/
def clearFailureCount : Action σ Unit := do
  let bootCount ← readRegister Register.bootCount
  writeRegister Register.bootCount (bootCount &&& ~~~Field.failureCountMask)

def writeStage (stage : UInt8) : Action σ Unit :=
  writeRegister Register.bootStage stage

/-- Whether the debug jumper is fitted. -/
def debugEnabled : Action σ Bool := do
  return (← readRegister Register.options) &&& Field.debugMask == 0

/-- Marks that the firmware came up, unless a test asks for the mark to stay away. -/
def markHappy [Logging σ] : Action σ Unit := do
  let bootCount ← readRegister Register.bootCount
  if bootCount &&& Field.testHappy != 0 then
    emit .info "CPU1900: TEST Happy"
  else
    emit .info "CPU1900: Set BIOS Happy bit"
    let biosBoot ← readRegister Register.biosBoot
    writeRegister Register.biosBoot (biosBoot ||| Field.biosHappy)

end Diagnostics

end BootFlow
