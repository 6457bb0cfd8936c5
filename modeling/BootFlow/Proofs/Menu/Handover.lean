import BootFlow.Proofs.Menu.Selection
import BootFlow.Proofs.Platform.Recorded
import BootFlow.Proofs.Registry.Promotion
import BootFlow.Scripted.Board

namespace BootFlow

open Clock Console Keyboard Logging Machine Recorded Registers Waiting

/-! A boot hands its selection to the next one as a position. The next boot reads
it as a position in the enumerated candidates. An operator's choice is one in the
list that was shown, in which recovery had already moved a candidate. -/

theorem BootSource.position_encode (source : BootSource) (position : Nat) :
    (source.encode position &&& Field.sourceIndexMask).toNat = max 1 (min position 15) := by
  have decoded : ∀ small ≤ 15, ((source.code ||| UInt8.ofNat small) &&& Field.sourceIndexMask).toNat =
      small := by
    cases source <;> decide
  exact decoded (max 1 (min position 15)) (by omega)

def Call.written? (register : UInt16) : Call → Option UInt8
  | .writeRegister other value => if other = register then some value else none
  | _ => none

/-- What a register was last written with. -/
def Recorded.lastWritten {σ : Type} (recorded : Recorded σ) (register : UInt16) : Option UInt8 :=
  (recorded.calls.filterMap (Call.written? register)).getLast?

namespace Menu

variable {σ τ : Type}

theorem recordSelection_writes [Registers σ] (registry : Registry) (position : Nat) :
    ∃ source : BootSource, (recordSelection registry position : Action σ Unit) =
      writeRegister Register.bootSource (source.encode position) :=
  ⟨_, rfl⟩

theorem finish_hands_over [Timeline σ] [Registers σ] [Console σ] (session : Session)
    (decided : Recorded σ) :
    ∃ source : BootSource, (finish session decided).2.lastWritten Register.bootSource =
      some (source.encode session.selection) := by
  have stageElsewhere : Register.bootStage ≠ Register.bootSource := by decide
  have hides : [Call.hideSplash].filterMap (Call.written? Register.bootSource) = [] := rfl
  obtain ⟨source, writes⟩ := recordSelection_writes (σ := Recorded σ) session.registry session.selection
  refine ⟨source, ?_⟩
  by_cases shown : session.splashShown
  · simp [finish, writes, Diagnostics.writeStage, shown, Action.bind_apply, lastWritten,
      Call.written?, stageElsewhere, hides]
  · simp [finish, writes, shown, Action.bind_apply, lastWritten, Call.written?, hides]

/-- A payload was attempted and did not come up, so the number of failures decides. -/
theorem rule_recoverable {state : RecoveryState} (attempted : state.lastStage = Stage.payload)
    (recoverable : state.resetCause.isRecoverable) :
    Recovery.Rule.ofState state =
      if state.failureCount < Recovery.threshold then .waiting state.failureCount else .failed := by
  have reached : ¬state.lastStage < Stage.payload := by
    rw [attempted]
    decide
  have stayed : ¬Stage.osDriver ≤ state.lastStage := by
    rw [attempted]
    decide
  rw [Recovery.Rule.ofState, if_neg reached, if_neg stayed, if_neg (by simp [recoverable])]

theorem decision_waiting {state : RecoveryState} (attempted : state.lastStage = Stage.payload)
    (recoverable : state.resetCause.isRecoverable) (few : state.failureCount < Recovery.threshold) :
    Recovery.Decision.ofState state =
      { position := state.lastPosition.toNat, rule := .waiting state.failureCount } := by
  have rule := rule_recoverable attempted recoverable
  rw [if_pos few] at rule
  simp only [Recovery.Decision.ofState, rule]

theorem decision_failed {state : RecoveryState} (attempted : state.lastStage = Stage.payload)
    (recoverable : state.resetCause.isRecoverable) (many : ¬state.failureCount < Recovery.threshold) :
    Recovery.Decision.ofState state = { position := state.lastPosition.toNat + 1, rule := .failed } := by
  have rule := rule_recoverable attempted recoverable
  rw [if_neg many] at rule
  simp only [Recovery.Decision.ofState, rule]

/-- The candidates that a session has put in front, the last one first. -/
def Session.promotions (session : Session) (recovered : Nat) : List Nat :=
  recovered :: if session.operatorChoice then [session.selection] else []

theorem registry_of_ends {registry : Registry} {decision : Recovery.Decision} {session : Session}
    (ends : (recovered registry decision).Ends session) :
    session.registry = (session.promotions decision.position).foldl Registry.promote registry := by
  cases ends with
  | kept => rfl
  | chosen => rfl

/-- Recovery's own selection is handed over faithfully. A choice means the same
candidate again only where recovery had not moved it. -/
theorem fronts_agree_iff {registry : Registry} {decision : Recovery.Decision} {session : Session}
    (few : registry.candidates.length ≤ 14) (ends : (recovered registry decision).Ends session) :
    (registry.standing (session.promotions decision.position)).head? =
        (registry.standing [max 1 (min session.selection 15)]).head? ↔
      ¬(session.operatorChoice ∧ 2 ≤ decision.position ∧
        decision.position ≤ registry.candidates.length ∧ session.selection ≤ decision.position) := by
  cases ends with
  | kept =>
      have same : (registry.standing [decision.position]).head? =
          (registry.standing [max 1 (min decision.position 15)]).head? := by
        -- The register cannot tell 0 from 1 nor 16 from 15, but neither names a candidate
        -- behind the first among fourteen.
        by_cases inside : 1 ≤ decision.position ∧ decision.position ≤ registry.candidates.length
        · rw [show max 1 (min decision.position 15) = decision.position by omega]
        · rw [Registry.first_in_front (by omega), Registry.first_in_front (by omega)]
      simpa [Session.promotions, recovered] using same
  | @chosen position listed =>
      change 1 ≤ position ∧ position ≤ (registry.promote decision.position).candidates.length at listed
      rw [registry.length_promote] at listed
      change (registry.standing [decision.position, position]).head? =
        (registry.standing [max 1 (min position 15)]).head? ↔
          ¬(true = true ∧ 2 ≤ decision.position ∧
            decision.position ≤ registry.candidates.length ∧ position ≤ decision.position)
      rw [show max 1 (min position 15) = position by omega, Registry.position_in_front_again listed,
        Registry.position_in_front listed, Option.some_inj]
      split
      · split <;> simp <;> omega
      · simp
        omega

section

variable [Timeline σ] [Registers σ] [Keyboard σ] [Clock σ] [Console σ] [Machine σ] [Logging σ]
  [Registers τ] [Console τ] [Logging τ]
  {config : Config} {patience : Nat} {registry : Registry} {before after : Recorded σ}
  {first : Session} {again : τ}

/-- Two boots with the same candidates, of which the second waits for the
selection of the first, put the same candidate in front. The exception is an
operator's choice at or before a candidate that recovery had moved. -/
theorem waiting_front_iff (few : registry.candidates.length ≤ 14)
    (ran : run config patience registry before = some (first, after))
    (left : after.lastWritten Register.bootSource =
      some (Diagnostics.readRecoveryState again).1.bootSource)
    (attempted : (Diagnostics.readRecoveryState again).1.lastStage = Stage.payload)
    (recoverable : (Diagnostics.readRecoveryState again).1.resetCause.isRecoverable)
    (patient : (Diagnostics.readRecoveryState again).1.failureCount < Recovery.threshold) :
    let recovered := (decision before).position
    let second := (selectByRecovery registry again).1
    let firstStanding := registry.standing (first.promotions recovered)
    let secondStanding := registry.standing [second.selection]
    second.rule = some (.waiting (Diagnostics.readRecoveryState again).1.failureCount) ∧
    first.registry.candidates.map (fun candidate => some candidate.promoted) =
      firstStanding.map (fun position => (registry.at? position).map Candidate.promoted) ∧
    second.registry.candidates.map (fun candidate => some candidate.promoted) =
      secondStanding.map (fun position => (registry.at? position).map Candidate.promoted) ∧
    (firstStanding.head? = secondStanding.head? ↔
      ¬(first.operatorChoice ∧ 2 ≤ recovered ∧ recovered ≤ registry.candidates.length ∧
        first.selection ≤ recovered)) := by
  intro recovered second firstStanding secondStanding
  let state := (Diagnostics.readRecoveryState again).1
  obtain ⟨ends, decided, rfl⟩ := run_finishes ran
  obtain ⟨source, handed⟩ := finish_hands_over first decided
  have position : state.lastPosition.toNat = max 1 (min first.selection 15) := by
    have encoded : state.bootSource = source.encode first.selection :=
      Option.some.inj (left.symm.trans handed)
    rw [RecoveryState.lastPosition, encoded, source.position_encode]
  have selects : second = Menu.recovered registry
      { position := state.lastPosition.toNat, rule := .waiting state.failureCount } := by
    rw [← decision_waiting attempted recoverable patient]
    exact selectByRecovery_answer registry again
  have firstRegistry := registry_of_ends ends
  refine ⟨by rw [selects]; rfl, ?_, ?_, ?_⟩
  · rw [firstRegistry]
    exact registry.candidates_standing _
  · have promotes : second.registry = [second.selection].foldl Registry.promote registry := by
      rw [selects]
      rfl
    rw [promotes]
    exact registry.candidates_standing [second.selection]
  · have selection : second.selection = max 1 (min first.selection 15) := by
      rw [selects, ← position]
      rfl
    change _ = (registry.standing [second.selection]).head? ↔ _
    rw [selection]
    exact fronts_agree_iff few ends

end

section

open Scripted

/-- A board that a watchdog has reset once after a payload was attempted. -/
def failingBoard (source : UInt8) (keys : List TimedKey) : Board :=
  let board : Board := { keys }
  (((board.setRegister Register.resetCause 1).setRegister Register.lastStage Stage.payload).setRegister
    Register.bootSource source).setRegister Register.bootCount 1

def threeDisks : Registry where
  candidates := ["AHCI/0", "AHCI/1", "AHCI/2"].map fun description =>
    { kind := .hardDisk
      priority := 103
      payload := .drive { handle := 0, driveType := 0x80, controller := 0 }
      description }

/-- The third disk is chosen where recovery had moved the second. -/
theorem waiting_front_iff_third :
    let before : Recorded Board := { platform := failingBoard 0x22 [⟨50, 0x86⟩, ⟨100, 0x04⟩] }
    let again : Board := failingBoard 0x23 []
    ∃ (first : Session) (after : Recorded Board),
      run {} 20 threeDisks before = some (first, after) ∧
      (threeDisks.standing (first.promotions (decision before).position)).head? =
        (threeDisks.standing [(selectByRecovery threeDisks again).1.selection]).head? := by
  intro before again
  have told : (run {} 20 threeDisks before).map (fun (first, after) =>
      (first.selection, after.lastWritten Register.bootSource)) = some (3, some 0x23) := by
    decide +kernel
  obtain ⟨⟨first, after⟩, ran, same⟩ := Option.map_eq_some_iff.mp told
  simp only [Prod.mk.injEq] at same
  have left : some (0x23 : UInt8) = some (Diagnostics.readRecoveryState again).1.bootSource := by
    decide +kernel
  obtain ⟨_, _, _, agree⟩ := waiting_front_iff (by decide) ran (same.2.trans left)
    (by decide +kernel) (by decide +kernel) (by decide +kernel)
  refine ⟨first, after, ran, agree.mpr ?_⟩
  rintro ⟨_, _, _, behind⟩
  rw [same.1] at behind
  exact absurd behind (by decide +kernel)

/-- The second item is chosen where recovery had moved the second disk to the
front, which is the first disk. The next boot waits for the second disk. -/
theorem waiting_front_changes :
    let before : Recorded Board := { platform := failingBoard 0x22 [⟨50, 0x86⟩, ⟨100, 0x03⟩] }
    let again : Board := failingBoard 0x22 []
    let state := (Diagnostics.readRecoveryState again).1
    state.lastStage = Stage.payload ∧ state.resetCause.isRecoverable ∧
      state.failureCount < Recovery.threshold ∧
      ∃ (first : Session) (after : Recorded Board),
        run {} 20 threeDisks before = some (first, after) ∧
        after.lastWritten Register.bootSource = some state.bootSource ∧
        first.registry.first?.map Candidate.promoted = (threeDisks.at? 1).map Candidate.promoted ∧
        (selectByRecovery threeDisks again).1.registry.first?.map Candidate.promoted =
          (threeDisks.at? 2).map Candidate.promoted ∧
        (threeDisks.at? 1).map Candidate.promoted ≠ (threeDisks.at? 2).map Candidate.promoted := by
  intro before again state
  have told : (run {} 20 threeDisks before).map (fun (first, after) =>
      (after.lastWritten Register.bootSource, first.registry.first?.map Candidate.promoted)) =
      some (some state.bootSource, (threeDisks.at? 1).map Candidate.promoted) := by
    decide +kernel
  obtain ⟨⟨first, after⟩, ran, same⟩ := Option.map_eq_some_iff.mp told
  simp only [Prod.mk.injEq] at same
  exact ⟨by decide +kernel, by decide +kernel, by decide +kernel, first, after, ran, same.1, same.2,
    by decide +kernel, by decide +kernel⟩

end

end Menu

end BootFlow
