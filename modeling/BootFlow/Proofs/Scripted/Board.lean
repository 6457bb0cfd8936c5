import BootFlow.Proofs.Menu.Steps
import BootFlow.Scripted.Board

namespace BootFlow.Scripted.Board

/-! The registers of a board with a prepared keyboard are an array of their own. -/

instance : RegisterFile Board where
  store :=
    { held := fun board register => board.registers[register.toNat]?
      read_answer := by
        intro board register value stored
        change board.registers[register.toNat]?.getD 0xff = value
        rw [stored, Option.getD_some]
      read_keeps := fun _ _ _ _ _ stored => stored
      held_write := by
        intro board register value present
        obtain ⟨_, stored⟩ := Option.isSome_iff_exists.mp present
        have inside : register.toNat < board.registers.size := (Array.getElem?_eq_some_iff.mp stored).1
        change (board.registers.setIfInBounds register.toNat value)[register.toNat]? = some value
        rw [Array.getElem?_setIfInBounds_self, if_pos inside]
      write_keeps := by
        intro register value board address stored elsewhere held
        change (board.registers.setIfInBounds register.toNat value)[address.toNat]? = some stored
        have apart : register.toNat ≠ address.toNat := fun same =>
          elsewhere (List.mem_singleton.mpr (UInt16.toNat_inj.mp same.symm))
        rw [Array.getElem?_setIfInBounds_ne apart]
        exact held }

theorem takeKey_registers (board : Board) : board.takeKey.2.registers = board.registers := by
  unfold takeKey
  split
  · rfl
  · split <;> rfl

instance : Menu.RegistersAlone Board where
  spares :=
    { emits := fun _ _ _ _ _ _ stored => stored
      prints := fun _ _ _ _ _ stored => stored
      hides := fun _ _ _ _ stored => stored
      identifies := fun _ _ _ _ stored => stored
      tells := fun _ _ _ _ _ stored => stored
      clears := fun _ _ _ _ stored => stored
      shows := fun _ _ _ _ _ stored => stored
      pauses := fun _ _ _ _ stored => stored
      begins := fun _ _ _ _ stored => stored
      ends := fun _ _ _ _ stored => stored
      polls := by
        intro board register value _ stored
        change board.takeKey.2.registers[register.toNat]? = some value
        rw [takeKey_registers]
        exact stored
      reads := fun _ _ _ _ stored => stored
      idles := fun _ _ _ _ _ stored => stored
      resets := fun _ _ _ _ stored => stored }

end BootFlow.Scripted.Board
