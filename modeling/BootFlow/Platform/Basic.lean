import BootFlow.Candidate
import BootFlow.Log

namespace BootFlow

/-- Work on a platform's state that always finishes. -/
abbrev Action (σ : Type) := StateM σ

/-- Work that waits for the platform: `none` when its patience, the number of
turns a wait may take, ran out before it finished. -/
abbrev Waiting (σ : Type) := StateT σ Option

namespace Waiting

variable {σ α : Type}

/-- Work that finishes, as a step of work that waits. -/
def perform (action : Action σ α) : Waiting σ α :=
  fun state => some (action state)

/-- The end of a wait that was given too little patience. -/
def outOfPatience : Waiting σ α :=
  fun _ => none

@[simp] theorem perform_apply (action : Action σ α) (state : σ) :
    perform action state = some (action state) := rfl

@[simp] theorem outOfPatience_apply (state : σ) :
    (outOfPatience : Waiting σ α) state = none := rfl

end Waiting

/-! The boot flow reaches the machine through the operations of these classes
only. Each takes the platform's state to a new one; an operation of one class
may well change what the others show. -/

class Logging (σ : Type) where
  emit : Log.Level → String → Action σ Unit
  /-- The last lines kept, oldest first. -/
  recent : Nat → σ → List String

/-- Diagnostic registers of a byte each. A reset from outside may come between a
read and the write that follows it. -/
class Registers (σ : Type) where
  readRegister : UInt16 → Action σ UInt8
  writeRegister : UInt16 → UInt8 → Action σ Unit

/-- A source of raw scan codes. -/
class Keyboard (σ : Type) where
  /-- The next pending scan code, if there is one. Never waits. -/
  pollKey : Action σ (Option UInt8)

class Clock (σ : Type) where
  /-- Milliseconds since some moment before the boot. -/
  now : Action σ Nat
  /-- Lets pending interrupts run. The budget is how many milliseconds the
  caller is still willing to wait, `none` for any number of them. -/
  idle : Option UInt32 → Action σ Unit

class Console (σ : Type) where
  print : String → Action σ Unit
  /-- Replaces the status line. -/
  status : String → Action σ Unit
  clear : Action σ Unit
  /-- Shows the splash, with a prompt for the key of this label. -/
  showSplash : String → Action σ Unit
  hideSplash : Action σ Unit
  splashActive : σ → Bool
  /-- Freezes the splash. -/
  showPaused : Action σ Unit
  /-- A wait for a key is about to start. -/
  beginInputWait : Action σ Unit := return ()
  endInputWait : Action σ Unit := return ()
  /-- Shows what board this is, where the menu is skipped. -/
  printPlatformInfo : Action σ Unit := return ()

/-- Makes the devices of candidates available to legacy boot code. -/
class DriveMapper (σ : Type) where
  mapFloppy : Drive → Action σ Unit
  /-- The answer is the drive id that boot code uses from then on. -/
  mapHardDisk : Drive → Action σ UInt32
  mapCdRom : Drive → Action σ Unit
  callConnectionVector : FarPointer → Action σ Unit

/-- Boot attempts. One that succeeds never comes back, so every attempt that
ends here has failed. -/
class Launcher (σ : Type) where
  /-- The flag asks for the boot sector's signature to be checked. -/
  bootFloppy : Bool → Action σ Unit
  bootHardDisk : UInt32 → Action σ Unit
  bootCdRom : Drive → Action σ Unit
  bootCbfs : PayloadFile → Action σ Unit
  bootRom : FarPointer → Action σ Unit

class Machine (σ : Type) where
  /-- Shows a progress code on the diagnostic port. -/
  post : UInt8 → Action σ Unit
  /-- Restarts the platform. Real hardware does not come back. -/
  reset : Action σ Unit
  /-- Parks the processor. Real hardware does not come back. -/
  halt : Action σ Unit

end BootFlow
