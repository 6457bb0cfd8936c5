import BootFlow.Proofs.Menu.Course
import BootFlow.Proofs.Menu.Handover
import BootFlow.Proofs.Recovery.Clauses
import BootFlow.Proofs.Scripted.Board

namespace BootFlow.Menu

open Clock Console Keyboard Logging Machine Registers Waiting

/-! A run of the menu leaves each of the four registers that it writes in one way,
whatever the operator does. -/

variable {σ : Type} [Registers σ] [RegisterFile σ]

section

variable [Console σ] [Logging σ] [RegistersApart σ]

theorem held_markHappy {before : σ} {count mark : UInt8}
    (counted : held before Register.bootCount = some count)
    (marked : held before Register.biosBoot = some mark) :
    held (Diagnostics.markHappy before).2 Register.biosBoot =
      some (if count &&& Field.testHappy ≠ 0 then mark else mark ||| Field.biosHappy) := by
  let looked := (readRegister Register.bootCount before).2
  have kept : Undisturbed held [] before looked := RegisterFile.read_keeps _ before
  simp only [Diagnostics.markHappy, Action.bind_apply, RegisterFile.read_answer counted, bne_iff_ne]
  split
  · exact (kept.trans (RegistersApart.emit_keeps _ _ looked)) _ _ (by simp) marked
  · exact RegisterFile.held_update (· ||| Field.biosHappy)
      ((kept.trans (RegistersApart.emit_keeps _ _ looked)) _ _ (by simp) marked)

theorem held_evaluate {recovery : RecoveryState} {before : σ} (found : recovery.HeldBy before) :
    held (Recovery.evaluate before).2 Register.bootCount =
      some (if (Recovery.Decision.ofState recovery).clearsCount then
          recovery.bootCount &&& ~~~Field.failureCountMask else recovery.bootCount) := by
  let looked := (Diagnostics.readRecoveryState before).2
  let summed := (print (Recovery.summary recovery) looked).2
  let decision := Recovery.Decision.ofState recovery
  let explained := (print (decision.explain recovery) summed).2
  let told := (emit .info ("recovery: " ++ decision.rule.render ++ " -> entry " ++ Text.decimal decision.position)
    explained).2
  have kept : Undisturbed held [] before told :=
    (Diagnostics.readRecoveryState_keeps before).trans ((RegistersApart.print_keeps _ looked).trans
      ((RegistersApart.print_keeps _ summed).trans (RegistersApart.emit_keeps _ _ explained)))
  have known : held told Register.bootCount = some recovery.bootCount := kept _ _ (by simp) found.bootCount
  simp only [Recovery.evaluate, Action.bind_apply, Diagnostics.readRecoveryState_answer found]
  split
  · exact RegisterFile.held_update (· &&& ~~~Field.failureCountMask) known
  · exact known

/-- What the boot source register tells of the front candidate. -/
def frontSource (registry : Registry) : BootSource :=
  match registry.first? with
  | some candidate => .classify candidate.description
  | none => .none

theorem held_finish (session : Session) {before : σ} (present : (held before Register.bootSource).isSome) :
    held (finish session before).2 Register.bootSource =
      some ((frontSource session.registry).encode session.selection) := by
  let recorded := (recordSelection session.registry session.selection before).2
  let closes : Action σ Unit := do
    if session.splashShown then
      Diagnostics.writeStage Stage.splashOff
    hideSplash
  have written : held recorded Register.bootSource =
      some ((frontSource session.registry).encode session.selection) := RegisterFile.held_write _ present
  have closed : closes.Keeps (Undisturbed held [Register.bootStage]) := by
    have hides : (hideSplash : Action σ Unit).Keeps (Undisturbed held [Register.bootStage]) := fun state =>
      (RegistersApart.hideSplash_keeps state).mono (List.nil_subset _)
    exact .ite (fun _ => Action.Keeps.bind (RegisterFile.write_keeps _ _) fun _ => hides) fun _ => hides
  exact closed recorded _ _ (by decide) written

end

variable [Keyboard σ] [Clock σ] [Console σ] [Machine σ] [Logging σ] [RegistersAlone σ]

/-- Recovery writes the count and the selection, the offer of the menu the stage, and the
end of the run the selection and the stage again. -/
theorem run_held {config : Config} {patience : Nat} {registry : Registry} {before after : σ} {session : Session}
    {recovery : RecoveryState} {mark : UInt8} (found : recovery.HeldBy before)
    (marked : held before Register.biosBoot = some mark)
    (ran : run config patience registry before = some (session, after)) :
    held after Register.bootSource = some ((frontSource session.registry).encode session.selection) ∧
    held after Register.bootCount = some (if (Recovery.Decision.ofState recovery).clearsCount then
      recovery.bootCount &&& ~~~Field.failureCountMask else recovery.bootCount) ∧
    held after Register.biosBoot =
      some (if recovery.bootCount &&& Field.testHappy ≠ 0 then mark else mark ||| Field.biosHappy) := by
  obtain ⟨decided, autoselects, rfl⟩ := run_parts ran
  have offers := perform_bind_eq_some.mp autoselects
  let happy := (Diagnostics.markHappy before).2
  let evaluated := (Recovery.evaluate happy).2
  let selected := (select registry (Recovery.evaluate happy).1.position evaluated).2
  let recorded := (selectByRecovery registry happy).2
  have toHappy : Undisturbed held [Register.biosBoot] before happy := Diagnostics.markHappy_keeps before
  have toEvaluated : Undisturbed held [Register.bootCount] happy evaluated :=
    evaluate_keeps (output_undisturbed _) (registers_undisturbed _) (List.mem_singleton_self _) happy
  have toSelected : Undisturbed held [] evaluated selected := select_keeps (output_undisturbed _) _ _ evaluated
  have toRecorded : Undisturbed held [Register.bootSource] selected recorded := RegisterFile.write_keeps _ _ selected
  have toDecided : Undisturbed held [Register.bootStage] recorded decided :=
    offer_keeps (spares_undisturbed _) (registers_undisturbed _) config patience _ (List.mem_singleton_self _)
      _ _ _ offers
  have toAfter : Undisturbed held [Register.bootSource, Register.bootStage] decided (finish session decided).2 :=
    finish_keeps (registers_undisturbed _) (spares_undisturbed _).hides session (by simp) (fun _ => by simp)
      decided
  have happyFound : recovery.HeldBy happy := found.undisturbed toHappy (by decide)
  have fromEvaluated :
      Undisturbed held [Register.bootSource, Register.bootStage] evaluated (finish session decided).2 :=
    (toSelected.mono (by simp)).trans ((toRecorded.mono (by simp)).trans ((toDecided.mono (by simp)).trans toAfter))
  refine ⟨held_finish session ?_, fromEvaluated _ _ (by decide) (held_evaluate happyFound), ?_⟩
  · have source : held selected Register.bootSource = some recovery.bootSource :=
      toSelected _ _ (by simp) (toEvaluated _ _ (by decide) happyFound.bootSource)
    have noted : ∃ value, held recorded Register.bootSource = some value :=
      ⟨_, RegisterFile.held_write _ (Option.isSome_of_eq_some source)⟩
    obtain ⟨_, written⟩ := noted
    exact Option.isSome_of_eq_some (toDecided _ _ (by decide) written)
  · exact fromEvaluated _ _ (by decide) (toEvaluated _ _ (by decide) (held_markHappy found.bootCount marked))

theorem Course.stages (course : Course) (label : String) :
    (course.calls label ++ course.closing).filterMap (Call.written? Register.bootStage) =
      if course.isAttended then [Stage.splash, Stage.splashOff] else [] := by
  have deaf (keys : List UInt8) : (typed keys).filterMap (Call.written? Register.bootStage) = [] :=
    filterMap_typed (fun _ => rfl) keys
  have waits (scan : Option UInt8) : (waitFor scan).filterMap (Call.written? Register.bootStage) = [] := by
    simp [waitFor, List.filterMap_cons, List.filterMap_append, Call.written?, deaf]
  have replies (scans : List (Option UInt8)) :
      (scans.flatMap waitFor).filterMap (Call.written? Register.bootStage) = [] := by
    simp [List.filterMap_flatMap, waits]
  cases course <;>
    simp [Course.calls, Course.closing, Course.isAttended, opening, List.filterMap_cons, List.filterMap_append,
      Call.written?, deaf, waits, replies]

/-- The stages that were marked since tell the course only. -/
theorem filterMap_tells (made : List Call) :
    (made.filter Call.tells).filterMap (Call.written? Register.bootStage) =
      made.filterMap (Call.written? Register.bootStage) := by
  rw [List.filterMap_filter]
  congr 1
  funext call
  split
  · rfl
  · rename_i quiet
    cases call with
    | writeRegister register value =>
        have elsewhere : register ≠ Register.bootStage := fun same => quiet (beq_iff_eq.mpr same)
        rw [Call.written?, if_neg elsewhere]
    | _ => rfl

variable [Timeline σ]

/-- What a run leaves in the registers. Recovery decides on the count, the session on the
boot source, and the course of the run on the stages. -/
theorem run_registers {config : Config} {patience : Nat} {registry : Registry} {before after : Recorded σ}
    {session : Session} {recovery : RecoveryState} {mark : UInt8} (found : recovery.HeldBy before)
    (marked : held before Register.biosBoot = some mark)
    (ran : run config patience registry before = some (session, after)) :
    held after Register.bootSource = some ((frontSource session.registry).code |||
      UInt8.ofNat (max 1 (min session.selection 15))) ∧
    held after Register.bootCount = some (if Recovery.clauseNumber recovery ≤ 3 then
      recovery.bootCount &&& 0xf0 else recovery.bootCount) ∧
    held after Register.biosBoot = some (if recovery.bootCount &&& Field.testHappy ≠ 0 then mark
      else mark ||| Field.biosHappy) ∧
    (∃ made, after.calls = before.calls ++ made ∧
      made.filterMap (Call.written? Register.bootStage) =
        if session.splashShown then [Stage.splash, Stage.splashOff] else []) ∧
    Undisturbed held writtenRegisters before after ∧
    (session.operatorChoice = false → ∃ decision : Recovery.Decision,
      (Recovery.clauses.find? (·.applies recovery)).map (·.decide recovery) = some decision ∧
      session.selection = decision.position ∧ session.rule = some decision.rule) := by
  obtain ⟨source, counted, happy⟩ := run_held found marked ran
  obtain ⟨first, clears⟩ := Recovery.ofState_clauses recovery
  refine ⟨source, ?_, happy, ?_, ?_, fun own => ⟨_, first, ?_⟩⟩
  · rw [counted]
    simp only [clears]
    rfl
  · obtain ⟨made, _, course, continued, told, _, follows⟩ := run_follows ran
    refine ⟨made, continued, ?_⟩
    rw [← filterMap_tells, told, course.stages, follows.shown]
  · exact run_keeps (spares_undisturbed _) (registers_undisturbed _) config patience registry
      (List.Subset.refl _) _ _ _ ran
  · have happyFound := found.undisturbed (Diagnostics.markHappy_keeps before) (by decide)
    have decided : decision before = .ofState recovery := by
      rw [decision, Diagnostics.readRecoveryState_answer happyFound]
    have ends := (run_finishes ran).1
    rw [decided] at ends
    cases ends with
    | kept splashShown restarted => exact ⟨rfl, rfl⟩
    | chosen listed splashShown restarted => cases own

section

open Scripted

/-- What such a board has in its registers. -/
def failingState : RecoveryState where
  resetCause := .watchdog
  lastStage := Stage.payload
  bootSource := 0x22
  bootCount := 1

/-- The third disk is chosen after a recovery that goes on waiting for the second. -/
theorem run_registers_third :
    let before : Recorded Board := { platform := failingBoard 0x22 [⟨50, 0x86⟩, ⟨100, 0x04⟩] }
    failingState.HeldBy before ∧ held before Register.biosBoot = some 0 ∧
    ∃ (session : Session) (after : Recorded Board), run {} 20 threeDisks before = some (session, after) ∧
      session.operatorChoice = true ∧ held after Register.bootSource = some 0x23 ∧
      held after Register.bootCount = some 1 ∧ held after Register.biosBoot = some Field.biosHappy ∧
      ∃ made, after.calls = before.calls ++ made ∧
        made.filterMap (Call.written? Register.bootStage) = [Stage.splash, Stage.splashOff] := by
  intro before
  have found : failingState.HeldBy before := ⟨⟨1, rfl, rfl⟩, rfl, rfl, rfl⟩
  have marked : held before Register.biosBoot = some 0 := rfl
  have told : (run {} 20 threeDisks before).map (fun (session, _) =>
      (session.operatorChoice, session.splashShown, session.selection,
        frontSource session.registry)) = some (true, true, 3, .sata) := by
    decide +kernel
  obtain ⟨⟨session, after⟩, ran, same⟩ := Option.map_eq_some_iff.mp told
  simp only [Prod.mk.injEq] at same
  obtain ⟨source, counted, happy, ⟨made, continued, staged⟩, -, -⟩ := run_registers found marked ran
  rw [same.2.2.1, same.2.2.2] at source
  rw [same.2.1] at staged
  exact ⟨found, marked, session, after, ran, same.1, source, counted.trans (by decide), happy.trans (by decide),
    made, continued, staged⟩

end

end BootFlow.Menu
