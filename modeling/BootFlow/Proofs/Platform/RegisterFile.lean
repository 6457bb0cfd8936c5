import BootFlow.Diagnostics
import BootFlow.Proofs.Platform.Recorded

namespace BootFlow

open Console Logging Registers

/-! A platform whose registers keep what is written to them. Which of them it has is
its own matter: a register that it lacks may answer anything. -/

variable {σ : Type}

/-- What was held elsewhere than at the written addresses is still held there. -/
def Undisturbed (held : σ → UInt16 → Option UInt8) (written : List UInt16) (before after : σ) : Prop :=
  ∀ address value, address ∉ written → held before address = some value → held after address = some value

section

variable {held : σ → UInt16 → Option UInt8} {written : List UInt16} {before middle after : σ}

theorem Undisturbed.trans (first : Undisturbed held written before middle)
    (second : Undisturbed held written middle after) : Undisturbed held written before after :=
  fun address value elsewhere stored =>
    second address value elsewhere (first address value elsewhere stored)

theorem Undisturbed.mono {more : List UInt16} (kept : Undisturbed held written before after)
    (among : written ⊆ more) : Undisturbed held more before after :=
  fun address value elsewhere stored => kept address value (fun member => elsewhere (among member)) stored

instance : IsPreorder σ (Undisturbed held written) where
  refl _ _ _ _ stored := stored
  trans _ _ _ first second := first.trans second

end

/-- Bytes at addresses. A byte is read as it was written last. -/
structure ByteStore (read : UInt16 → Action σ UInt8) (write : UInt16 → UInt8 → Action σ Unit) where
  held : σ → UInt16 → Option UInt8
  read_answer {state : σ} {address : UInt16} {value : UInt8} (stored : held state address = some value) :
    (read address state).1 = value
  read_keeps (address : UInt16) : (read address).Keeps (Undisturbed held [])
  held_write {state : σ} {address : UInt16} (value : UInt8) (present : (held state address).isSome) :
    held (write address value state).2 address = some value
  write_keeps (address : UInt16) (value : UInt8) : (write address value).Keeps (Undisturbed held [address])

class RegisterFile (σ : Type) [Registers σ] where
  store : ByteStore (σ := σ) readRegister writeRegister

def held [Registers σ] [RegisterFile σ] (state : σ) (register : UInt16) : Option UInt8 :=
  RegisterFile.store.held state register

/-- What is printed or logged does not reach the registers. -/
class RegistersApart (σ : Type) [Registers σ] [RegisterFile σ] [Console σ] [Logging σ] : Prop where
  print_keeps (text : String) : (print text : Action σ Unit).Keeps (Undisturbed held [])
  hideSplash_keeps : (hideSplash : Action σ Unit).Keeps (Undisturbed held [])
  printPlatformInfo_keeps : (printPlatformInfo : Action σ Unit).Keeps (Undisturbed held [])
  emit_keeps (level : Log.Level) (text : String) :
    (emit level text : Action σ Unit).Keeps (Undisturbed held [])

namespace RegisterFile

variable [Registers σ] [RegisterFile σ]

theorem read_answer {state : σ} {register : UInt16} {value : UInt8}
    (stored : held state register = some value) :
    (readRegister register state).1 = value :=
  store.read_answer stored

theorem read_keeps (register : UInt16) :
    (readRegister register : Action σ UInt8).Keeps (Undisturbed held []) :=
  store.read_keeps register

theorem held_write {state : σ} {register : UInt16} (value : UInt8)
    (present : (held state register).isSome) :
    held (writeRegister register value state).2 register = some value :=
  store.held_write value present

theorem write_keeps (register : UInt16) (value : UInt8) :
    (writeRegister register value : Action σ Unit).Keeps (Undisturbed held [register]) :=
  store.write_keeps register value

/-- A register that is read and written back. -/
theorem held_update {state : σ} {register : UInt16} {value : UInt8} (change : UInt8 → UInt8)
    (stored : held state register = some value) :
    held ((do writeRegister register (change (← readRegister register)) : Action σ Unit) state).2 register =
      some (change value) := by
  have still : held (readRegister register state).2 register = some value :=
    read_keeps register state _ _ (by simp) stored
  simp only [Action.bind_apply, read_answer stored]
  exact held_write _ (Option.isSome_of_eq_some still)

end RegisterFile

section

variable [Timeline σ] {α : Type} {relation : σ → σ → Prop}

/-- What an operation keeps on the platform it keeps under record. -/
theorem Recorded.recording_keeps {action : Action σ α} (call : α → Call) (kept : action.Keeps relation) :
    (recording call action).Keeps fun before after => relation before.platform after.platform :=
  fun recorded => kept recorded.platform

instance [Registers σ] [RegisterFile σ] : RegisterFile (Recorded σ) where
  store :=
    { held := fun recorded => held recorded.platform
      read_answer := RegisterFile.read_answer
      read_keeps := fun register => Recorded.recording_keeps _ (RegisterFile.read_keeps register)
      held_write := RegisterFile.held_write
      write_keeps := fun register value => Recorded.recording_keeps _ (RegisterFile.write_keeps register value) }

end

variable [Registers σ] [RegisterFile σ]

/-- The registers of the platform hold this recovery state. -/
structure RecoveryState.HeldBy (recovery : RecoveryState) (platform : σ) : Prop where
  resetCause : ∃ code,
    held platform Register.resetCause = some code ∧ .ofRegister code = recovery.resetCause
  lastStage : held platform Register.lastStage = some recovery.lastStage
  bootSource : held platform Register.bootSource = some recovery.bootSource
  bootCount : held platform Register.bootCount = some recovery.bootCount

theorem RecoveryState.HeldBy.undisturbed {recovery : RecoveryState} {before after : σ}
    {written : List UInt16} (found : recovery.HeldBy before) (kept : Undisturbed held written before after)
    (elsewhere : [Register.resetCause, Register.lastStage, Register.bootSource, Register.bootCount].all
      (· ∉ written)) :
    recovery.HeldBy after := by
  simp only [List.all_cons, List.all_nil, Bool.and_true, Bool.and_eq_true, decide_eq_true_eq] at elsewhere
  obtain ⟨notCause, notStage, notSource, notCount⟩ := elsewhere
  obtain ⟨code, stored, decoded⟩ := found.resetCause
  exact ⟨⟨code, kept _ _ notCause stored, decoded⟩, kept _ _ notStage found.lastStage,
    kept _ _ notSource found.bootSource, kept _ _ notCount found.bootCount⟩

namespace Diagnostics

theorem readRecoveryState_keeps :
    (readRecoveryState : Action σ RecoveryState).Keeps (Undisturbed held []) :=
  (RegisterFile.read_keeps _).bind fun _ => (RegisterFile.read_keeps _).bind fun _ =>
    (RegisterFile.read_keeps _).bind fun _ => (RegisterFile.read_keeps _).bind fun _ => .pure _

theorem readRecoveryState_answer {recovery : RecoveryState} {before : σ} (found : recovery.HeldBy before) :
    (readRecoveryState before).1 = recovery := by
  have later {state : σ} (register : UInt16) (held : recovery.HeldBy state) :
      recovery.HeldBy (readRegister register state).2 :=
    held.undisturbed (RegisterFile.read_keeps register state) rfl
  obtain ⟨code, stored, decoded⟩ := found.resetCause
  have second := later Register.resetCause found
  have third := later Register.lastStage second
  have fourth := later Register.bootSource third
  simp only [readRecoveryState, Action.bind_apply, Action.pure_apply]
  rw [RegisterFile.read_answer stored, RegisterFile.read_answer second.lastStage,
    RegisterFile.read_answer third.bootSource, RegisterFile.read_answer fourth.bootCount, decoded]

theorem markHappy_keeps [Console σ] [Logging σ] [RegistersApart σ] :
    (markHappy : Action σ Unit).Keeps (Undisturbed held [Register.biosBoot]) := by
  have reads (register : UInt16) :
      (readRegister register : Action σ UInt8).Keeps (Undisturbed held [Register.biosBoot]) :=
    fun state => (RegisterFile.read_keeps register state).mono (by simp)
  have logs (level : Log.Level) (text : String) :
      (emit level text : Action σ Unit).Keeps (Undisturbed held [Register.biosBoot]) :=
    fun state => (RegistersApart.emit_keeps level text state).mono (by simp)
  exact (reads _).bind fun _ => .ite (fun _ => logs _ _) fun _ =>
    (logs _ _).bind fun _ => (reads _).bind fun _ => RegisterFile.write_keeps _ _

end Diagnostics

end BootFlow
