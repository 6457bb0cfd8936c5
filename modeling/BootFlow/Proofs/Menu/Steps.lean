import BootFlow.Menu
import BootFlow.Proofs.Platform.RegisterFile
import BootFlow.Proofs.Wait.Keystroke

namespace BootFlow.Menu

open Clock Console Keyboard Logging Machine Registers Waiting

/-! What the operations of the platform keep, the menu keeps. Of the registers it writes
four, each in a phase of its own. -/

variable {σ : Type} {relation : σ → σ → Prop}

/-- What follows the decision of recovery. -/
def offer [Registers σ] [Keyboard σ] [Clock σ] [Console σ] [Machine σ] [Logging σ] (config : Config)
    (patience : Nat) (session : Session) : Waiting σ Session := do
  if ← perform (offered config) then
    perform (move .autoselect .countdown)
    countdown config patience session
  else
    perform (leave .autoselect session)

theorem autoselect_eq [Registers σ] [Keyboard σ] [Clock σ] [Console σ] [Machine σ] [Logging σ]
    (config : Config) (patience : Nat) (registry : Registry) :
    (autoselect config patience registry : Waiting σ Session) = (do
      let session ← perform (selectByRecovery registry)
      offer config patience session) := rfl

/-- The relation holds across what is printed and logged. -/
structure SparesOutput [Console σ] [Logging σ] (relation : σ → σ → Prop) : Prop where
  emits (level : Log.Level) (text : String) : (emit level text : Action σ Unit).Keeps relation
  prints (text : String) : (print text : Action σ Unit).Keeps relation
  identifies : (printPlatformInfo : Action σ Unit).Keeps relation

/-- The relation holds across what the menu does on the platform between two looks at the
keyboard, apart from its registers. -/
structure SparesDisplay [Clock σ] [Console σ] [Machine σ] [Logging σ] (relation : σ → σ → Prop) : Prop extends
    SparesOutput relation where
  tells (text : String) : (status text : Action σ Unit).Keeps relation
  clears : (clear : Action σ Unit).Keeps relation
  shows (label : String) : (showSplash label : Action σ Unit).Keeps relation
  hides : (hideSplash : Action σ Unit).Keeps relation
  pauses : (showPaused : Action σ Unit).Keeps relation
  begins : (beginInputWait : Action σ Unit).Keeps relation
  ends : (endInputWait : Action σ Unit).Keeps relation
  reads : (now : Action σ Nat).Keeps relation
  resets : (reset : Action σ Unit).Keeps relation

/-- The relation holds across what the menu shows where it neither pauses nor restarts. -/
structure SparesScreen [Clock σ] [Console σ] [Logging σ] (relation : σ → σ → Prop) : Prop extends
    SparesOutput relation where
  tells (text : String) : (status text : Action σ Unit).Keeps relation
  clears : (clear : Action σ Unit).Keeps relation
  shows (label : String) : (showSplash label : Action σ Unit).Keeps relation
  hides : (hideSplash : Action σ Unit).Keeps relation
  begins : (beginInputWait : Action σ Unit).Keeps relation
  ends : (endInputWait : Action σ Unit).Keeps relation
  reads : (now : Action σ Nat).Keeps relation

theorem SparesDisplay.screen [Clock σ] [Console σ] [Machine σ] [Logging σ] (display : SparesDisplay relation) :
    SparesScreen relation :=
  { display with }

/-- The relation holds there across waits as well. -/
structure SparesWaits [Keyboard σ] [Clock σ] [Console σ] [Logging σ] (relation : σ → σ → Prop) : Prop extends
    SparesScreen relation where
  polls : (pollKey : Action σ (Option UInt8)).Keeps relation
  idles (budget : Option UInt32) : (idle budget : Action σ Unit).Keeps relation

/-- The relation holds across waits as well. -/
structure Spares [Keyboard σ] [Clock σ] [Console σ] [Machine σ] [Logging σ]
    (relation : σ → σ → Prop) : Prop extends SparesDisplay relation where
  polls : (pollKey : Action σ (Option UInt8)).Keeps relation
  idles (budget : Option UInt32) : (idle budget : Action σ Unit).Keeps relation

theorem Spares.waits [Keyboard σ] [Clock σ] [Console σ] [Machine σ] [Logging σ] (spares : Spares relation) :
    SparesWaits relation :=
  { spares with }

def writtenRegisters : List UInt16 :=
  [Register.biosBoot, Register.bootCount, Register.bootStage, Register.bootSource]

/-- The relation holds across reads of registers and across writes to these ones. -/
structure SparesRegisters [Registers σ] (relation : σ → σ → Prop) (written : List UInt16) : Prop where
  looks (register : UInt16) : (readRegister register : Action σ UInt8).Keeps relation
  writes (value : UInt8) {register : UInt16} (among : register ∈ written) :
    (writeRegister register value : Action σ Unit).Keeps relation

section

variable [Console σ] [Logging σ] (output : SparesOutput relation)

include output

theorem move_keeps (source target : Phase) : (move source target : Action σ Unit).Keeps relation :=
  output.emits _ _

variable [IsPreorder σ relation]

theorem leave_keeps (source : Phase) (session : Session) :
    (leave source session : Action σ Session).Keeps relation :=
  (move_keeps output source .done).bind fun _ => .pure _

theorem printCandidates_keeps (indent : String) (position : Nat) (candidates : List Candidate) :
    (printCandidates indent position candidates : Action σ Unit).Keeps relation := by
  induction candidates generalizing position with
  | nil => exact .pure _
  | cons candidate others ih => exact (output.prints _).bind fun _ => ih (position + 1)

theorem select_keeps (registry : Registry) (position : Nat) :
    (select registry position : Action σ Registry).Keeps relation := by
  unfold select
  cases registry.at? position with
  | none => exact .pure _
  | some candidate => exact (output.prints _).bind fun _ => .pure _

theorem choose_keeps (session : Session) (position : Nat) :
    (choose session position : Action σ Session).Keeps relation :=
  (select_keeps output _ _).bind fun _ => .pure _

variable [Registers σ] {written : List UInt16} (registers : SparesRegisters relation written)

include registers

theorem markHappy_keeps (marks : Register.biosBoot ∈ written) :
    (Diagnostics.markHappy : Action σ Unit).Keeps relation :=
  (registers.looks _).bind fun _ => .ite (fun _ => output.emits _ _) fun _ =>
    (output.emits _ _).bind fun _ => (registers.looks _).bind fun _ => registers.writes _ marks

theorem evaluate_keeps (counts : Register.bootCount ∈ written) :
    (Recovery.evaluate : Action σ Recovery.Decision).Keeps relation := by
  have looks : (Diagnostics.readRecoveryState : Action σ RecoveryState).Keeps relation :=
    (registers.looks _).bind fun _ => (registers.looks _).bind fun _ => (registers.looks _).bind fun _ =>
      (registers.looks _).bind fun _ => .pure _
  have clears : (Diagnostics.clearFailureCount : Action σ Unit).Keeps relation :=
    (registers.looks _).bind fun _ => registers.writes _ counts
  refine looks.bind fun state => (output.prints _).bind fun _ => (output.prints _).bind fun _ =>
    (output.emits _ _).bind fun _ => ?_
  exact .ite (fun _ => clears.bind fun _ => .pure _) fun _ => .pure _

theorem selectByRecovery_keeps (registry : Registry) (counts : Register.bootCount ∈ written)
    (hands : Register.bootSource ∈ written) :
    (selectByRecovery registry : Action σ Session).Keeps relation :=
  (evaluate_keeps output registers counts).bind fun _ => (select_keeps output _ _).bind fun _ =>
    (registers.writes _ hands).bind fun _ => .pure _

theorem offered_keeps (config : Config) : (offered config : Action σ Bool).Keeps relation := by
  have asks : (Diagnostics.debugEnabled : Action σ Bool).Keeps relation :=
    (registers.looks _).bind fun _ => .pure _
  exact .ite (fun _ => .pure _) fun _ => asks.bind fun _ =>
    .ite (fun _ => .pure _) fun _ => output.identifies.bind fun _ => .pure _

theorem listCandidates_keeps (session : Session) (stages : Register.bootStage ∈ written) :
    (listCandidates session : Action σ Unit).Keeps relation :=
  (registers.writes _ stages).bind fun _ => (output.prints _).bind fun _ => printCandidates_keeps output _ _ _

end

theorem reply_keeps [Clock σ] [IsPreorder σ relation] (reads : (now : Action σ Nat).Keeps relation)
    (escapeFrom : Deadline) (count : Nat) (scan : UInt8) :
    (reply escapeFrom count scan : Action σ Reply).Keeps relation :=
  .ite (fun _ => .pure _) fun _ => .ite
    (fun _ => (Deadline.expired_keeps reads escapeFrom).bind fun _ => .pure _) fun _ => .pure _

theorem finish_keeps [Console σ] [Registers σ] [IsPreorder σ relation] {written : List UInt16}
    (registers : SparesRegisters relation written) (hides : (hideSplash : Action σ Unit).Keeps relation)
    (session : Session) (hands : Register.bootSource ∈ written)
    (stages : session.splashShown = true → Register.bootStage ∈ written) :
    (finish session : Action σ Unit).Keeps relation :=
  (registers.writes _ hands).bind fun _ =>
    .ite (fun shown => (registers.writes _ (stages shown)).bind fun _ => hides) fun _ => hides

section

variable [Clock σ] [Console σ] [Logging σ] (screen : SparesScreen relation) [IsPreorder σ relation]

include screen

theorem raiseSplash_keeps (config : Config) : (raiseSplash config : Action σ Unit).Keeps relation := by
  unfold raiseSplash
  cases config.menuMessage with
  | none => exact screen.shows _
  | some message => exact (screen.prints message).bind fun _ => screen.shows _

theorem showDevices_keeps (config : Config) (session : Session) :
    (showDevices config session : Action σ Deadline).Keeps relation :=
  screen.clears.bind fun _ => (screen.prints _).bind fun _ =>
    (printCandidates_keeps screen.toSparesOutput _ _ _).bind fun _ => (screen.tells _).bind fun _ =>
      (screen.emits _ _).bind fun _ => Deadline.after_keeps screen.reads _

theorem listing_keeps (config : Config) (session : Session) (state : σ) :
    relation state (move .deviceList .awaitSelection (showDevices config session state).2).2 :=
  IsTrans.trans _ _ _ (showDevices_keeps screen config session state) (move_keeps screen.toSparesOutput _ _ _)

end

theorem restart_keeps [Clock σ] [Console σ] [Machine σ] [Logging σ] [IsPreorder σ relation]
    (display : SparesDisplay relation) : (restart : Action σ Unit).Keeps relation :=
  (display.emits _ _).bind fun _ => display.resets

section

variable [Keyboard σ] [Clock σ] [Console σ] [Logging σ] (waits : SparesWaits relation) [IsPreorder σ relation]

include waits

theorem drain_keeps (patience : Nat) : (Keystroke.drain patience : Waiting σ Unit).Keeps relation :=
  Keystroke.drain_keeps waits.polls waits.reads waits.idles patience

theorem awaitKey_keeps (patience : Nat) (timeout : Timeout) :
    (awaitKey patience timeout : Waiting σ (Option UInt8)).Keeps relation := by
  refine .bind (.perform waits.begins) fun _ => ?_
  exact (Keystroke.await_keeps waits.polls waits.reads waits.idles patience timeout).bind fun _ =>
    (Keeps.perform waits.ends).bind fun _ => .pure _

theorem awaitSelection_keeps (config : Config) (patience : Nat) (escapeFrom : Deadline)
    (session : Session) (keys : Nat) :
    (awaitSelection config patience escapeFrom session keys : Waiting σ Session).Keeps relation := by
  induction keys with
  | zero => exact .outOfPatience
  | succ keys ih =>
      refine (awaitKey_keeps waits patience _).bind fun scan => ?_
      cases scan with
      | none => exact .pure _
      | some scan =>
          refine (Keeps.perform (reply_keeps waits.reads escapeFrom _ scan)).bind fun reply => ?_
          cases reply with
          | keep => exact (Keeps.perform (waits.prints _)).bind fun _ => .pure _
          | choose position =>
              exact (Keeps.perform (waits.prints _)).bind fun _ => .perform (choose_keeps waits.toSparesOutput _ _)
          | ignore => exact ih

theorem deviceList_keeps (config : Config) (patience : Nat) (session : Session) :
    (deviceList config patience session : Waiting σ Session).Keeps relation :=
  (drain_keeps waits patience).bind fun _ => (Keeps.perform (showDevices_keeps waits.toSparesScreen _ _)).bind fun _ =>
    (Keeps.perform (move_keeps waits.toSparesOutput _ _)).bind fun _ =>
      (awaitSelection_keeps waits _ _ _ _ _).bind fun _ => .perform (leave_keeps waits.toSparesOutput _ _)

end

section

variable [Keyboard σ] [Clock σ] [Console σ] [Machine σ] [Logging σ] (spares : Spares relation)
  [IsPreorder σ relation]

include spares

theorem paused_keeps (patience : Nat) (session : Session) :
    (paused patience session : Waiting σ Session).Keeps relation :=
  (Keeps.perform spares.pauses).bind fun _ => (awaitKey_keeps spares.waits _ _).bind fun _ =>
    (Keeps.perform (restart_keeps spares.toSparesDisplay)).bind fun _ =>
      .perform (leave_keeps spares.toSparesOutput _ _)

theorem awaitMenuKey_keeps (config : Config) (patience : Nat) (session : Session) :
    (awaitMenuKey config patience session : Waiting σ Session).Keeps relation := by
  have looks : (get : Waiting σ σ).Keeps relation := by
    intro before _ after ended
    cases ended
    exact refl before
  refine (awaitKey_keeps spares.waits patience _).bind fun scan => looks.bind fun state => ?_
  split
  · exact (Keeps.perform (move_keeps spares.toSparesOutput _ _)).bind fun _ => paused_keeps spares patience session
  · exact (Keeps.perform (move_keeps spares.toSparesOutput _ _)).bind fun _ =>
      deviceList_keeps spares.waits config patience session
  · exact .perform (leave_keeps spares.toSparesOutput _ _)

variable [Registers σ] {written : List UInt16} (registers : SparesRegisters relation written)

include registers

theorem countdown_keeps (config : Config) (patience : Nat) (session : Session)
    (stages : Register.bootStage ∈ written) :
    (countdown config patience session : Waiting σ Session).Keeps relation := by
  have lists := listCandidates_keeps spares.toSparesOutput registers session stages
  exact (Keeps.perform lists).bind fun _ => (drain_keeps spares.waits patience).bind fun _ =>
    (Keeps.perform (raiseSplash_keeps spares.waits.toSparesScreen config)).bind fun _ =>
      (Keeps.perform (move_keeps spares.toSparesOutput _ _)).bind fun _ =>
        awaitMenuKey_keeps spares config patience _

theorem offer_keeps (config : Config) (patience : Nat) (session : Session)
    (stages : Register.bootStage ∈ written) :
    (offer config patience session : Waiting σ Session).Keeps relation := by
  refine .bind (.perform (offered_keeps spares.toSparesOutput registers config)) fun offered => ?_
  cases offered with
  | true =>
      exact (Keeps.perform (move_keeps spares.toSparesOutput _ _)).bind fun _ =>
        countdown_keeps spares registers config patience session stages
  | false => exact .perform (leave_keeps spares.toSparesOutput _ _)

theorem run_keeps (config : Config) (patience : Nat) (registry : Registry)
    (all : writtenRegisters ⊆ written) :
    (run config patience registry : Waiting σ Session).Keeps relation := by
  have output := spares.toSparesOutput
  have counts : Register.bootCount ∈ written := all (by decide)
  have hands : Register.bootSource ∈ written := all (by decide)
  have stages : Register.bootStage ∈ written := all (by decide)
  have selects : (autoselect config patience registry : Waiting σ Session).Keeps relation := by
    rw [autoselect_eq]
    exact (Keeps.perform (selectByRecovery_keeps output registers registry counts hands)).bind fun session =>
      offer_keeps spares registers config patience session stages
  exact (Keeps.perform (markHappy_keeps output registers (all (by decide)))).bind fun _ =>
    selects.bind fun session =>
      (Keeps.perform (finish_keeps registers spares.hides session hands fun _ => stages)).bind fun _ => .pure _

end

section

variable {other : σ → σ → Prop}

theorem SparesOutput.mono [Console σ] [Logging σ] (output : SparesOutput relation)
    (weaker : ∀ before after, relation before after → other before after) : SparesOutput other where
  emits level text state := weaker _ _ (output.emits level text state)
  prints text state := weaker _ _ (output.prints text state)
  identifies state := weaker _ _ (output.identifies state)

section

variable [Timeline σ]

theorem SparesOutput.recorded [Console σ] [Logging σ] (output : SparesOutput relation) :
    SparesOutput (σ := Recorded σ) fun before after => relation before.platform after.platform where
  emits level text recorded := output.emits level text recorded.platform
  prints text recorded := output.prints text recorded.platform
  identifies recorded := output.identifies recorded.platform

theorem SparesScreen.recorded [Clock σ] [Console σ] [Logging σ] (screen : SparesScreen relation) :
    SparesScreen (σ := Recorded σ) fun before after => relation before.platform after.platform where
  toSparesOutput := screen.toSparesOutput.recorded
  tells text recorded := screen.tells text recorded.platform
  clears recorded := screen.clears recorded.platform
  shows label recorded := screen.shows label recorded.platform
  hides recorded := screen.hides recorded.platform
  begins recorded := screen.begins recorded.platform
  ends recorded := screen.ends recorded.platform
  reads recorded := screen.reads recorded.platform

theorem SparesWaits.recorded [Keyboard σ] [Clock σ] [Console σ] [Logging σ] (waits : SparesWaits relation) :
    SparesWaits (σ := Recorded σ) fun before after => relation before.platform after.platform where
  toSparesScreen := waits.toSparesScreen.recorded
  polls recorded := waits.polls recorded.platform
  idles budget recorded := waits.idles budget recorded.platform

end

variable [Keyboard σ] [Clock σ] [Console σ] [Machine σ] [Logging σ]

theorem Spares.mono (spares : Spares relation)
    (weaker : ∀ before after, relation before after → other before after) : Spares other where
  toSparesOutput := spares.toSparesOutput.mono weaker
  tells text state := weaker _ _ (spares.tells text state)
  clears state := weaker _ _ (spares.clears state)
  shows label state := weaker _ _ (spares.shows label state)
  hides state := weaker _ _ (spares.hides state)
  pauses state := weaker _ _ (spares.pauses state)
  begins state := weaker _ _ (spares.begins state)
  ends state := weaker _ _ (spares.ends state)
  reads state := weaker _ _ (spares.reads state)
  resets state := weaker _ _ (spares.resets state)
  polls state := weaker _ _ (spares.polls state)
  idles budget state := weaker _ _ (spares.idles budget state)

/-- What holds on a platform across its operations holds across them under record. -/
theorem Spares.recorded [Timeline σ] (spares : Spares relation) :
    Spares (σ := Recorded σ) fun before after => relation before.platform after.platform :=
  { spares.waits.recorded with
    pauses := fun recorded => spares.pauses recorded.platform
    resets := fun recorded => spares.resets recorded.platform }

/-- Nothing but a write reaches the registers. -/
class RegistersAlone (σ : Type) [Keyboard σ] [Clock σ] [Console σ] [Machine σ] [Logging σ] [Registers σ]
    [RegisterFile σ] : Prop where
  spares : Spares (σ := σ) (Undisturbed held [])

variable [Registers σ] [RegisterFile σ]

instance [RegistersAlone σ] : RegistersApart σ where
  print_keeps := RegistersAlone.spares.prints
  hideSplash_keeps := RegistersAlone.spares.hides
  printPlatformInfo_keeps := RegistersAlone.spares.identifies
  emit_keeps := RegistersAlone.spares.emits

instance [Timeline σ] [RegistersAlone σ] : RegistersAlone (Recorded σ) where
  spares := RegistersAlone.spares.recorded

theorem spares_undisturbed [RegistersAlone σ] (written : List UInt16) :
    Spares (σ := σ) (Undisturbed held written) :=
  RegistersAlone.spares.mono fun _ _ kept => kept.mono (List.nil_subset written)

end

theorem output_undisturbed [Registers σ] [RegisterFile σ] [Console σ] [Logging σ] [RegistersApart σ]
    (written : List UInt16) : SparesOutput (σ := σ) (Undisturbed held written) where
  emits level text state := (RegistersApart.emit_keeps level text state).mono (List.nil_subset written)
  prints text state := (RegistersApart.print_keeps text state).mono (List.nil_subset written)
  identifies state := (RegistersApart.printPlatformInfo_keeps state).mono (List.nil_subset written)

theorem registers_undisturbed [Registers σ] [RegisterFile σ] (written : List UInt16) :
    SparesRegisters (σ := σ) (Undisturbed held written) written where
  looks register state := (RegisterFile.read_keeps register state).mono (List.nil_subset written)
  writes value _ among state :=
    (RegisterFile.write_keeps _ value state).mono (List.cons_subset.mpr ⟨among, List.nil_subset written⟩)

end BootFlow.Menu
