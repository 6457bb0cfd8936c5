import BootFlow.Platform.Recorded
import BootFlow.Proofs.Platform.Action

namespace BootFlow.Recorded

/-! The record of a platform, read as the list of the calls made on it. Each
operation adds its own call behind those before it, and log lines add none. -/

open Registers Keyboard Clock Console DriveMapper Launcher Machine Logging

variable {σ α : Type}

def calls (recorded : Recorded σ) : List Call :=
  recorded.events.toList.map (·.call)

@[simp] theorem calls_emit [Logging σ] (level : Log.Level) (text : String) (recorded : Recorded σ) :
    (emit level text recorded).2.calls = recorded.calls := rfl

/-- The later record continues the earlier one, by allowed calls only. -/
def Extends (allowed : Call → Prop) (before after : Recorded σ) : Prop :=
  ∃ more, after.calls = before.calls ++ more ∧ ∀ call ∈ more, allowed call

variable {allowed : Call → Prop} {before after : Recorded σ}

instance : IsPreorder (Recorded σ) (Extends allowed) where
  refl recorded := ⟨[], by simp, by simp⟩
  trans := by
    rintro before middle after ⟨first, toMiddle, firstAllowed⟩ ⟨second, toAfter, secondAllowed⟩
    refine ⟨first ++ second, by rw [toAfter, toMiddle, List.append_assoc], fun call member => ?_⟩
    rcases List.mem_append.mp member with earlier | later
    · exact firstAllowed call earlier
    · exact secondAllowed call later

theorem Extends.of_calls_eq (same : after.calls = before.calls) : Extends allowed before after :=
  ⟨[], by rw [same, List.append_nil], by simp⟩

theorem Extends.of_call {call : Call} (made : after.calls = before.calls ++ [call])
    (permitted : allowed call) : Extends allowed before after :=
  ⟨[call], made, by simpa using permitted⟩

theorem Extends.keeps {action : Action (Recorded σ) α} {call : Call}
    (made : ∀ recorded, (action recorded).2.calls = recorded.calls ++ [call])
    (permitted : allowed call) : action.Keeps (Extends allowed) :=
  fun recorded => .of_call (made recorded) permitted

theorem Extends.keeps_answered {action : Action (Recorded σ) α} (call : α → Call)
    (made : ∀ recorded, (action recorded).2.calls = recorded.calls ++ [call (action recorded).1])
    (permitted : ∀ answer, allowed (call answer)) : action.Keeps (Extends allowed) :=
  fun recorded => .of_call (made recorded) (permitted _)

theorem emit_keeps [Logging σ] (level : Log.Level) (text : String) :
    (emit level text : Action (Recorded σ) Unit).Keeps (Extends allowed) :=
  fun recorded => .of_calls_eq (calls_emit level text recorded)

theorem Extends.mono {more : Call → Prop} (extended : Extends allowed before after)
    (weaker : ∀ call, allowed call → more call) : Extends more before after := by
  obtain ⟨made, continued, permitted⟩ := extended
  exact ⟨made, continued, fun call member => weaker call (permitted call member)⟩

/-- A selection of calls that leaves out all the allowed ones does not see the
continuation. -/
theorem Extends.filter_calls (extended : Extends allowed before after) {selected : Call → Bool}
    (unselected : ∀ call, allowed call → selected call = false) :
    after.calls.filter selected = before.calls.filter selected := by
  obtain ⟨more, continued, permitted⟩ := extended
  have none : more.filter selected = [] :=
    List.filter_eq_nil_iff.mpr fun call member => by simp [unselected call (permitted call member)]
  rw [continued, List.filter_append, none, List.append_nil]

variable [Timeline σ]

@[simp] theorem calls_recording (call : α → Call) (action : Action σ α) (recorded : Recorded σ) :
    (recording call action recorded).2.calls =
      recorded.calls ++ [call (recording call action recorded).1] := by
  simp [recording, calls]

@[simp] theorem calls_doing (call : Call) (action : Action σ Unit) (recorded : Recorded σ) :
    (doing call action recorded).2.calls = recorded.calls ++ [call] :=
  calls_recording _ action recorded

section

variable [Registers σ]

@[simp] theorem calls_readRegister (register : UInt16) (recorded : Recorded σ) :
    (readRegister register recorded).2.calls =
      recorded.calls ++ [.readRegister register (readRegister register recorded).1] :=
  calls_recording _ _ recorded

@[simp] theorem calls_writeRegister (register : UInt16) (value : UInt8) (recorded : Recorded σ) :
    (writeRegister register value recorded).2.calls =
      recorded.calls ++ [.writeRegister register value] :=
  calls_doing _ _ recorded

end

@[simp] theorem calls_pollKey [Keyboard σ] (recorded : Recorded σ) :
    (pollKey recorded).2.calls = recorded.calls ++ [.pollKey (pollKey recorded).1] :=
  calls_recording _ _ recorded

section

variable [Clock σ]

@[simp] theorem calls_now (recorded : Recorded σ) :
    (now recorded).2.calls = recorded.calls ++ [.readClock (now recorded).1] :=
  calls_recording _ _ recorded

@[simp] theorem calls_idle (budget : Option UInt32) (recorded : Recorded σ) :
    (idle budget recorded).2.calls = recorded.calls ++ [.idle budget] :=
  calls_doing _ _ recorded

end

section

variable [Console σ]

@[simp] theorem calls_print (text : String) (recorded : Recorded σ) :
    (print text recorded).2.calls = recorded.calls ++ [.print text] :=
  calls_doing _ _ recorded

@[simp] theorem calls_status (text : String) (recorded : Recorded σ) :
    (status text recorded).2.calls = recorded.calls ++ [.status text] :=
  calls_doing _ _ recorded

@[simp] theorem calls_clear (recorded : Recorded σ) :
    (clear recorded).2.calls = recorded.calls ++ [.clear] :=
  calls_doing _ _ recorded

@[simp] theorem calls_showSplash (label : String) (recorded : Recorded σ) :
    (showSplash label recorded).2.calls = recorded.calls ++ [.showSplash label] :=
  calls_doing _ _ recorded

@[simp] theorem calls_hideSplash (recorded : Recorded σ) :
    (hideSplash recorded).2.calls = recorded.calls ++ [.hideSplash] :=
  calls_doing _ _ recorded

@[simp] theorem calls_showPaused (recorded : Recorded σ) :
    (showPaused recorded).2.calls = recorded.calls ++ [.showPaused] :=
  calls_doing _ _ recorded

@[simp] theorem calls_beginInputWait (recorded : Recorded σ) :
    (beginInputWait recorded).2.calls = recorded.calls ++ [.beginInputWait] :=
  calls_doing _ _ recorded

@[simp] theorem calls_endInputWait (recorded : Recorded σ) :
    (endInputWait recorded).2.calls = recorded.calls ++ [.endInputWait] :=
  calls_doing _ _ recorded

@[simp] theorem calls_printPlatformInfo (recorded : Recorded σ) :
    (printPlatformInfo recorded).2.calls = recorded.calls ++ [.printPlatformInfo] :=
  calls_doing _ _ recorded

end

section

variable [DriveMapper σ]

@[simp] theorem calls_mapFloppy (drive : Drive) (recorded : Recorded σ) :
    (mapFloppy drive recorded).2.calls = recorded.calls ++ [.mapFloppy drive] :=
  calls_doing _ _ recorded

@[simp] theorem calls_mapHardDisk (drive : Drive) (recorded : Recorded σ) :
    (mapHardDisk drive recorded).2.calls =
      recorded.calls ++ [.mapHardDisk drive (mapHardDisk drive recorded).1] :=
  calls_recording _ _ recorded

@[simp] theorem calls_mapCdRom (drive : Drive) (recorded : Recorded σ) :
    (mapCdRom drive recorded).2.calls = recorded.calls ++ [.mapCdRom drive] :=
  calls_doing _ _ recorded

@[simp] theorem calls_callConnectionVector (vector : FarPointer) (recorded : Recorded σ) :
    (callConnectionVector vector recorded).2.calls =
      recorded.calls ++ [.callConnectionVector vector] :=
  calls_doing _ _ recorded

end

section

variable [Launcher σ]

@[simp] theorem calls_bootFloppy (checkSignature : Bool) (recorded : Recorded σ) :
    (bootFloppy checkSignature recorded).2.calls = recorded.calls ++ [.bootFloppy checkSignature] :=
  calls_doing _ _ recorded

@[simp] theorem calls_bootHardDisk (id : UInt32) (recorded : Recorded σ) :
    (bootHardDisk id recorded).2.calls = recorded.calls ++ [.bootHardDisk id] :=
  calls_doing _ _ recorded

@[simp] theorem calls_bootCdRom (drive : Drive) (recorded : Recorded σ) :
    (bootCdRom drive recorded).2.calls = recorded.calls ++ [.bootCdRom drive] :=
  calls_doing _ _ recorded

@[simp] theorem calls_bootCbfs (file : PayloadFile) (recorded : Recorded σ) :
    (bootCbfs file recorded).2.calls = recorded.calls ++ [.bootCbfs file] :=
  calls_doing _ _ recorded

@[simp] theorem calls_bootRom (vector : FarPointer) (recorded : Recorded σ) :
    (bootRom vector recorded).2.calls = recorded.calls ++ [.bootRom vector] :=
  calls_doing _ _ recorded

end

section

variable [Machine σ]

@[simp] theorem calls_post (code : UInt8) (recorded : Recorded σ) :
    (post code recorded).2.calls = recorded.calls ++ [.post code] :=
  calls_doing _ _ recorded

@[simp] theorem calls_reset (recorded : Recorded σ) :
    (reset recorded).2.calls = recorded.calls ++ [.reset] :=
  calls_doing _ _ recorded

@[simp] theorem calls_halt (recorded : Recorded σ) :
    (halt recorded).2.calls = recorded.calls ++ [.halt] :=
  calls_doing _ _ recorded

end

end BootFlow.Recorded
