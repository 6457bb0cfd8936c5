import BootFlow.Proofs.Menu.Steps

namespace BootFlow

open Clock Console Keyboard Logging Machine Recorded Registers Waiting

/-! The menu talks to the operator and leaves word for the next boot. It maps
nothing and attempts nothing, and it writes four registers at most. -/

def Call.inMenu : Call → Bool
  | .writeRegister register _ =>
      [Register.biosBoot, Register.bootCount, Register.bootStage, Register.bootSource].contains register
  | .print _ | .status _ | .clear | .showSplash _ | .hideSplash | .showPaused => true
  | .beginInputWait | .endInputWait | .printPlatformInfo | .reset => true
  | call => call.isQuiet

/-- Calls between the menu and its operator. -/
def Call.inDialog : Call → Bool
  | .pollKey _ | .readClock _ | .idle _ => true
  | .print _ | .status _ | .clear | .showSplash _ | .hideSplash | .showPaused => true
  | .beginInputWait | .endInputWait | .printPlatformInfo | .reset => true
  | _ => false

theorem Call.inMenu_of_inDialog {call : Call} (made : call.inDialog = true) : call.inMenu = true := by
  cases call <;> first | rfl | cases made

theorem Call.isAttempt_of_inMenu {call : Call} (made : call.inMenu = true) :
    call.isAttempt = false := by
  cases call <;> first | rfl | cases made

namespace Menu

variable {σ : Type} [Timeline σ]

abbrev Continues : Recorded σ → Recorded σ → Prop := Extends fun call => call.inMenu = true

theorem continues_registers [Registers σ] :
    SparesRegisters (σ := Recorded σ) Continues writtenRegisters where
  looks register := Extends.keeps_answered (.readRegister register) (calls_readRegister register) fun _ => rfl
  writes value _ among := Extends.keeps (calls_writeRegister _ value) (List.contains_iff_mem.mpr among)

variable [Keyboard σ] [Clock σ] [Console σ] [Machine σ] [Logging σ]

/-- Apart from its registers, the menu does nothing but talk to the operator. -/
theorem converses_spares : Spares (σ := Recorded σ) (Extends fun call => call.inDialog = true) where
  emits := emit_keeps
  prints text := Extends.keeps (calls_print text) rfl
  tells text := Extends.keeps (calls_status text) rfl
  clears := Extends.keeps calls_clear rfl
  shows label := Extends.keeps (calls_showSplash label) rfl
  hides := Extends.keeps calls_hideSplash rfl
  pauses := Extends.keeps calls_showPaused rfl
  begins := Extends.keeps calls_beginInputWait rfl
  ends := Extends.keeps calls_endInputWait rfl
  identifies := Extends.keeps calls_printPlatformInfo rfl
  polls := Extends.keeps_answered .pollKey calls_pollKey fun _ => rfl
  reads := Extends.keeps_answered .readClock calls_now fun _ => rfl
  idles budget := Extends.keeps (calls_idle budget) rfl
  resets := Extends.keeps calls_reset rfl

theorem continues_spares : Spares (σ := Recorded σ) Continues :=
  converses_spares.mono fun _ _ extended => extended.mono fun _ => Call.inMenu_of_inDialog

/-- Whatever the configuration, the keys and the registers are, a run of the
menu makes no other calls. -/
theorem run_continues [Registers σ] (config : Config) (patience : Nat) (registry : Registry) :
    (run config patience registry : Waiting (Recorded σ) Session).Keeps Continues :=
  run_keeps continues_spares continues_registers config patience registry (List.Subset.refl _)

end Menu

end BootFlow
