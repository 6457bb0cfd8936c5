import BootFlow.Proofs.Hardware.Cpu1900
import BootFlow.Proofs.Menu.Handover
import Mathlib.Data.Nat.Count

namespace BootFlow.Menu

open Clock Console Keyboard Logging Machine Registers Waiting

/-! On a board that nobody attends recovery alone decides. Boot after boot it stays
with an entry or goes on to the next one, and the boot source register is all that
it knows of the boots before. -/

/-- After a payload that did not come up the position is the last one, or the one
behind it once there were too many failures. -/
theorem decision_recoverable {state : RecoveryState} (attempted : state.lastStage = Stage.payload)
    (recoverable : state.resetCause.isRecoverable) :
    (Recovery.Decision.ofState state).clearsCount = false ∧
    (Recovery.Decision.ofState state).position =
      state.lastPosition.toNat + if Recovery.threshold ≤ state.failureCount then 1 else 0 := by
  by_cases few : state.failureCount < Recovery.threshold
  · rw [decision_waiting attempted recoverable few, if_neg (UInt8.not_le.mpr few)]
    exact ⟨rfl, rfl⟩
  · rw [decision_failed attempted recoverable few, if_pos (UInt8.not_lt.mp few)]
    exact ⟨rfl, rfl⟩

section

variable {σ : Type} [Registers σ] [RegisterFile σ]

/-- The menu is not offered: it is disabled, or the debug jumper is not fitted. -/
def Unattended (config : Config) (platform : σ) : Prop :=
  config.menuEnabled = false ∨
    ∃ options, held platform Register.options = some options ∧ options &&& Field.debugMask ≠ 0

theorem Unattended.undisturbed {config : Config} {before after : σ} {written : List UInt16}
    (unattended : Unattended config before) (kept : Undisturbed held written before after)
    (elsewhere : Register.options ∉ written) : Unattended config after := by
  rcases unattended with disabled | ⟨options, stored, missing⟩
  · exact .inl disabled
  · exact .inr ⟨options, kept _ _ elsewhere stored, missing⟩

theorem recordSelection_undisturbed (registry : Registry) (position : Nat) :
    (recordSelection registry position : Action σ Unit).Keeps (Undisturbed held [Register.bootSource]) :=
  RegisterFile.write_keeps _ _

theorem held_recordSelection (registry : Registry) (position : Nat) {platform : σ}
    (present : (held platform Register.bootSource).isSome) :
    ∃ source : BootSource, held (recordSelection registry position platform).2 Register.bootSource =
      some (source.encode position) := by
  obtain ⟨source, writes⟩ := recordSelection_writes (σ := σ) registry position
  exact ⟨source, writes ▸ RegisterFile.held_write _ present⟩

variable [Console σ] [Logging σ] [RegistersApart σ]

theorem select_undisturbed (registry : Registry) (position : Nat) :
    (select registry position : Action σ Registry).Keeps (Undisturbed held []) := by
  unfold select
  cases registry.at? position with
  | none => exact .pure _
  | some candidate => exact (RegistersApart.print_keeps _).bind fun _ => .pure _

theorem evaluate_undisturbed {recovery : RecoveryState} {before : σ} (found : recovery.HeldBy before)
    (counted : (Recovery.Decision.ofState recovery).clearsCount = false) :
    Undisturbed held [] before (Recovery.evaluate before).2 := by
  have answered := Diagnostics.readRecoveryState_answer found
  simp only [Recovery.evaluate, Action.bind_apply, answered, counted, Bool.false_eq_true, if_false]
  exact (Diagnostics.readRecoveryState_keeps before).trans ((RegistersApart.print_keeps _ _).trans
    ((RegistersApart.print_keeps _ _).trans (RegistersApart.emit_keeps _ _ _)))

theorem selectByRecovery_records {recovery : RecoveryState} {before : σ} (found : recovery.HeldBy before)
    (counted : (Recovery.Decision.ofState recovery).clearsCount = false) (registry : Registry) :
    Undisturbed held [Register.bootSource] before (selectByRecovery registry before).2 ∧
    (held (selectByRecovery registry before).2 Register.bootSource).isSome := by
  let decision := (Recovery.evaluate before).1
  let selected := select registry decision.position (Recovery.evaluate before).2
  have kept : Undisturbed held [] before selected.2 :=
    (evaluate_undisturbed found counted).trans (select_undisturbed registry decision.position _)
  have present : (held selected.2 Register.bootSource).isSome :=
    Option.isSome_of_eq_some (kept _ _ (by simp) found.bootSource)
  obtain ⟨source, written⟩ := held_recordSelection selected.1 decision.position present
  exact ⟨(kept.mono (by simp)).trans (recordSelection_undisturbed _ _ _), Option.isSome_of_eq_some written⟩

theorem offered_unattended {config : Config} {before : σ} (unattended : Unattended config before) :
    (offered config before).1 = false ∧ Undisturbed held [] before (offered config before).2 := by
  unfold offered
  cases enabled : config.menuEnabled with
  | false => exact ⟨rfl, refl before⟩
  | true =>
      rcases unattended with disabled | ⟨options, stored, missing⟩
      · rw [enabled] at disabled
        cases disabled
      · have absent : (Diagnostics.debugEnabled before).1 = false := by
          simp only [Diagnostics.debugEnabled, Action.bind_apply, Action.pure_apply,
            RegisterFile.read_answer stored]
          simpa using missing
        have looked : Undisturbed held [] before (Diagnostics.debugEnabled before).2 :=
          RegisterFile.read_keeps Register.options before
        simp only [Bool.not_true, Bool.false_eq_true, if_false, Action.bind_apply, absent,
          Action.pure_apply]
        exact ⟨trivial, looked.trans (RegistersApart.printPlatformInfo_keeps _)⟩

theorem finish_kept (session : Session) (unsplashed : session.splashShown = false) {before : σ}
    (present : (held before Register.bootSource).isSome) :
    Undisturbed held [Register.bootSource] before (finish session before).2 ∧
    ∃ source : BootSource,
      held (finish session before).2 Register.bootSource = some (source.encode session.selection) := by
  let recorded := (recordSelection session.registry session.selection before).2
  have hides : (finish session before).2 = (hideSplash recorded).2 := by
    simp only [finish, unsplashed, Bool.false_eq_true, if_false]
    rfl
  have kept : Undisturbed held [] recorded (hideSplash recorded).2 :=
    RegistersApart.hideSplash_keeps recorded
  obtain ⟨source, written⟩ := held_recordSelection session.registry session.selection present
  rw [hides]
  refine ⟨?_, source, kept _ _ (by simp) written⟩
  exact (recordSelection_undisturbed _ _ before).trans (kept.mono (by simp))

variable [Keyboard σ] [Clock σ] [Machine σ]

theorem run_unattended {config : Config} {recovery : RecoveryState} {before : σ}
    (found : recovery.HeldBy before) (attempted : recovery.lastStage = Stage.payload)
    (recoverable : recovery.resetCause.isRecoverable) (unattended : Unattended config before)
    (registry : Registry) (patience : Nat) :
    ∃ after, run config patience registry before =
        some (recovered registry (.ofState recovery), after) ∧
      Undisturbed held [Register.biosBoot, Register.bootSource] before after ∧
      ∃ source : BootSource, held after Register.bootSource =
        some (source.encode (Recovery.Decision.ofState recovery).position) := by
  let session := recovered registry (.ofState recovery)
  let marked := (Diagnostics.markHappy before).2
  let chosen := (selectByRecovery registry marked).2
  let asked := (offered config chosen).2
  let decided := (leave .autoselect session asked).2
  have marks : Undisturbed held [Register.biosBoot] before marked := Diagnostics.markHappy_keeps before
  have markedFound : recovery.HeldBy marked := found.undisturbed marks (by decide)
  have selects : (selectByRecovery registry marked).1 = session := by
    rw [selectByRecovery_answer, Diagnostics.readRecoveryState_answer markedFound]
  have counted := (decision_recoverable attempted recoverable).1
  obtain ⟨records, recorded⟩ := selectByRecovery_records markedFound counted registry
  have alone : Unattended config chosen :=
    (unattended.undisturbed marks (by decide)).undisturbed records (by decide)
  obtain ⟨skipped, asks⟩ := offered_unattended alone
  have settles : Undisturbed held [] chosen decided := asks.trans (RegistersApart.emit_keeps _ _ asked)
  obtain ⟨value, stored⟩ := Option.isSome_iff_exists.mp recorded
  have present : (held decided Register.bootSource).isSome :=
    Option.isSome_of_eq_some (settles _ _ (by simp) stored)
  obtain ⟨finishes, source, handed⟩ := finish_kept session rfl present
  refine ⟨(finish session decided).2, ?_, ?_, source, handed⟩
  · have stays : autoselect config patience registry marked = some (session, decided) := by
      change (if (offered config chosen).1 then _ else _ : Waiting σ Session) asked = _
      rw [skipped, ← selects]
      rfl
    simp only [run, Waiting.bind_apply, perform_apply, Option.bind_some]
    change (autoselect config patience registry marked).bind _ = _
    rw [stays]
    rfl
  · exact (marks.mono (by simp)).trans ((records.mono (by simp)).trans
      ((settles.mono (by simp)).trans (finishes.mono (by simp))))

variable {registry : Registry} {boots boot : Nat}

/-- Boots in a row that nobody attends, each after a payload that did not come up. All
of them enumerate the same candidates, and each finds the boot source as the one before
has left it. -/
structure Walk (σ : Type) [Registers σ] [RegisterFile σ] [Keyboard σ] [Clock σ] [Console σ] [Machine σ]
    [Logging σ] (registry : Registry) (boots : Nat) where
  config : Nat → Config
  patience : Nat → Nat
  before : Nat → σ
  recovery : Nat → RecoveryState
  found : ∀ boot < boots, (recovery boot).HeldBy (before boot)
  attempted : ∀ boot < boots, (recovery boot).lastStage = Stage.payload
  recoverable : ∀ boot < boots, (recovery boot).resetCause.isRecoverable
  unattended : ∀ boot < boots, Unattended (config boot) (before boot)
  handed : ∀ boot, boot + 1 < boots → ∀ session after,
    run (config boot) (patience boot) registry (before boot) = some (session, after) →
      held (before (boot + 1)) Register.bootSource = held after Register.bootSource
  numbered : 1 ≤ (recovery 0).lastPosition.toNat

namespace Walk

def Fails (walk : Walk σ registry boots) (boot : Nat) : Prop :=
  Recovery.threshold ≤ (walk.recovery boot).failureCount

instance (walk : Walk σ registry boots) : DecidablePred walk.Fails :=
  fun _ => inferInstanceAs (Decidable (_ ≤ _))

def position (walk : Walk σ registry boots) (boot : Nat) : Nat :=
  (walk.recovery boot).lastPosition.toNat + if walk.Fails boot then 1 else 0

theorem run_boot (walk : Walk σ registry boots) (within : boot < boots) :
    ∃ session after, run (walk.config boot) (walk.patience boot) registry (walk.before boot) =
        some (session, after) ∧
      session.selection = walk.position boot ∧
      session.registry = registry.promote (walk.position boot) ∧
      Undisturbed held [Register.biosBoot, Register.bootSource] (walk.before boot) after ∧
      ∃ source : BootSource,
        held after Register.bootSource = some (source.encode (walk.position boot)) := by
  have attempted := walk.attempted boot within
  have recoverable := walk.recoverable boot within
  obtain ⟨after, ran, kept, source, left⟩ := run_unattended (walk.found boot within) attempted recoverable
    (walk.unattended boot within) registry (walk.patience boot)
  have position : (Recovery.Decision.ofState (walk.recovery boot)).position = walk.position boot :=
    (decision_recoverable attempted recoverable).2
  refine ⟨_, after, ran, position, ?_, kept, source, ?_⟩
  · rw [recovered, position]
  · rw [left, position]

/-- The boot source carries the position to the next boot, as far as it has room for it. -/
theorem lastPosition_succ (walk : Walk σ registry boots) (within : boot + 1 < boots) :
    (walk.recovery (boot + 1)).lastPosition.toNat = max 1 (min (walk.position boot) 15) := by
  obtain ⟨session, after, ran, _, _, _, source, left⟩ := walk.run_boot (Nat.lt_of_succ_lt within)
  have found := (walk.found (boot + 1) within).bootSource
  rw [walk.handed boot within session after ran, left] at found
  rw [RecoveryState.lastPosition, ← Option.some.inj found, source.position_encode]

theorem lastPosition_walk (walk : Walk σ registry boots) (within : boot < boots) :
    (walk.recovery boot).lastPosition.toNat =
      min 15 ((walk.recovery 0).lastPosition.toNat + Nat.count walk.Fails boot) := by
  induction boot with
  | zero =>
      have small : (walk.recovery 0).lastPosition.toNat ≤ 15 := by
        rw [RecoveryState.lastPosition, UInt8.toNat_and]
        exact Nat.and_le_right
      rw [Nat.count_zero, Nat.add_zero, Nat.min_eq_right small]
  | succ boot ih =>
      have earlier := ih (Nat.lt_of_succ_lt within)
      have numbered := walk.numbered
      rw [walk.lastPosition_succ within, position, earlier, Nat.count_succ]
      split <;> omega

/-- What recovery comes to over many boots that nobody attends: the recorded position
goes up by one with every boot that finds too many failures, and the candidate there
is put in front. -/
theorem advances (walk : Walk σ registry boots) (within : boot < boots) :
    let first := (walk.recovery 0).lastPosition.toNat
    let failed := Nat.count walk.Fails
    let next := if walk.Fails boot then 1 else 0
    ∃ session after,
      run (walk.config boot) (walk.patience boot) registry (walk.before boot) = some (session, after) ∧
      (walk.recovery boot).lastPosition.toNat = min 15 (first + failed boot) ∧
      session.selection = min 15 (first + failed boot) + next ∧
      (∃ source, held after Register.bootSource = some source ∧
        (source &&& Field.sourceIndexMask).toNat = min 15 (first + failed (boot + 1))) ∧
      session.registry = registry.promote session.selection ∧
      session.registry.first? =
        (if session.selection ≤ registry.candidates.length then
          (registry.at? session.selection).map Candidate.promoted
        else registry.first?) ∧
      held after Register.bootCount = held (walk.before boot) Register.bootCount ∧
      ((∀ earlier ≤ boot, walk.Fails earlier) → first + boot + 1 ≤ min registry.candidates.length 16 →
        session.registry.first? = (registry.at? (first + boot + 1)).map Candidate.promoted) := by
  intro first failed next
  obtain ⟨session, after, ran, selection, promotes, kept, source, left⟩ := walk.run_boot within
  have recorded := walk.lastPosition_walk within
  have numbered : 1 ≤ first := walk.numbered
  have selected : session.selection = min 15 (first + failed boot) + next := by
    rw [selection, position, recorded]
  have stays : failed (boot + 1) = failed boot + next := Nat.count_succ walk.Fails boot
  have front : session.registry.first? = if session.selection ≤ registry.candidates.length then
      (registry.at? session.selection).map Candidate.promoted else registry.first? := by
    rw [promotes, ← selection]
    exact registry.first?_promote (by omega)
  refine ⟨session, after, ran, recorded, selected, ⟨_, left, ?_⟩, ?_, front, ?_, ?_⟩
  · rw [source.position_encode, ← selection, selected, stays]
    omega
  · rw [selection]
    exact promotes
  · have counted := (walk.found boot within).bootCount
    rw [counted, kept _ _ (by decide) counted]
  · intro fails inside
    have all : failed boot = boot :=
      Nat.count_iff_forall.mpr fun earlier before => fails earlier (by omega)
    have now : next = 1 := if_pos (fails boot (Nat.le_refl boot))
    rw [front, if_pos (by omega)]
    congr 2
    omega

end Walk

end

section

open Scripted

/-- A CPU-1900 without the debug jumper that a watchdog has reset after a payload was
attempted. -/
def hungBoard (source count : UInt8) : Cpu1900 Rig where
  machine := { values :=
    [(SerialLine.com1.statusPort, SerialLine.transmitterEmpty),
      (RegisterWindow.base + Register.options, Field.debugMask),
      (RegisterWindow.base + Register.resetCause, 1),
      (RegisterWindow.base + Register.lastStage, Stage.payload),
      (RegisterWindow.base + Register.bootSource, source),
      (RegisterWindow.base + Register.bootCount, count)] }

def hungSource (boot : Nat) : UInt8 := [0x21, 0x22, 0x22, 0x23].getD boot 0

def hungCount (boot : Nat) : UInt8 := [3, 2, 3, 0x83].getD boot 0

/-- Four boots of it, the second of them with one failure too few. -/
def hungWalk : Walk (Cpu1900 Rig) threeDisks 4 where
  config _ := {}
  patience _ := 0
  before boot := hungBoard (hungSource boot) (hungCount boot)
  recovery boot :=
    { resetCause := .watchdog
      lastStage := Stage.payload
      bootSource := hungSource boot
      bootCount := hungCount boot }
  found _ _ := ⟨⟨1, rfl, rfl⟩, rfl, rfl, rfl⟩
  attempted _ _ := rfl
  recoverable _ _ := rfl
  unattended _ _ := .inr ⟨Field.debugMask, rfl, by decide⟩
  handed boot within session after ran := by
    have told : ∀ boot < 3, (run {} 0 threeDisks (hungBoard (hungSource boot) (hungCount boot))).map
        (fun result => held result.2 Register.bootSource) = some (some (hungSource (boot + 1))) := by
      decide +kernel
    have left := told boot (Nat.lt_of_succ_lt_succ within)
    rw [ran] at left
    exact (Option.some.inj left).symm
  numbered := by decide

/-- The first boot goes on to the second disk. The fourth goes on to a fourth one, which
there is not, and keeps the order. -/
theorem hungWalk_advances :
    (∃ (session : Session) (after : Cpu1900 Rig),
      run {} 0 threeDisks (hungBoard 0x21 3) = some (session, after) ∧
      session.registry.first? = (threeDisks.at? 2).map Candidate.promoted) ∧
    ∃ (session : Session) (after : Cpu1900 Rig),
      run {} 0 threeDisks (hungBoard 0x23 0x83) = some (session, after) ∧
      session.selection = 4 ∧ session.registry.first? = threeDisks.first? ∧
      held after Register.bootCount = some 0x83 := by
  constructor
  · obtain ⟨session, after, ran, _, _, _, _, _, _, front⟩ := hungWalk.advances (show 0 < 4 by decide)
    exact ⟨session, after, ran, front (by decide) (by decide)⟩
  · obtain ⟨session, after, ran, _, selected, _, _, front, counted, _⟩ :=
      hungWalk.advances (show 3 < 4 by decide)
    have fourth : session.selection = 4 := selected.trans (by decide)
    rw [fourth] at front
    exact ⟨session, after, ran, fourth, front, counted⟩

end

end BootFlow.Menu
