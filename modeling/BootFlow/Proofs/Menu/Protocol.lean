import BootFlow.Proofs.Menu.Course
import BootFlow.Proofs.Menu.Headless
import BootFlow.Proofs.Menu.Registers

namespace BootFlow

open Clock Console Keyboard Logging Machine Recorded Registers Waiting

/-! The protocol that every run of the menu keeps with console and machine. -/

namespace Call

def isWait : Call → Bool
  | .beginInputWait | .endInputWait => true
  | _ => false

/-- Calls that put the splash or the device list on the screen. -/
def draws : Call → Bool
  | .showSplash _ | .clear | .status _ => true
  | _ => false

/-- Calls that freeze the splash, restart the platform or take the splash away. -/
def closes : Call → Bool
  | .showPaused | .reset | .hideSplash => true
  | _ => false

/-- Calls that a run makes where the menu is not offered. -/
def isHeadless : Call → Bool
  | .writeRegister register _ => [Register.biosBoot, Register.bootCount, Register.bootSource].contains register
  | .readRegister .. | .print _ | .printPlatformInfo | .hideSplash => true
  | _ => false

theorem tells_of_isWait (call : Call) (waits : call.isWait = true) : call.tells = true := by
  cases call <;> first | rfl | cases waits

theorem tells_of_draws (call : Call) (drawn : call.draws = true) : call.tells = true := by
  cases call <;> first | rfl | cases drawn

end Call

namespace Menu

theorem filter_typed {selected : Call → Bool} (deaf : ∀ scan, selected (.pollKey scan) = false)
    (keys : List UInt8) : (typed keys).filter selected = [] := by
  simp [typed, List.filter_map, Function.comp_def, deaf]

namespace Course

/-- What a run tells up to the end of its splash. -/
def body (label : String) (course : Course) : List Call :=
  course.calls label ++ if course.isAttended then [.writeRegister Register.bootStage Stage.splashOff] else []

def waits : Course → Nat
  | .unattended => 0
  | .passed .. => 1
  | .paused .. => 2
  | .listed _ _ _ _ replies => replies.length + 1

variable (course : Course) (label : String)

theorem body_closing : course.calls label ++ course.closing = course.body label ++ [.hideSplash] := by
  rw [body, closing, List.append_assoc]

theorem filter_waits :
    (course.body label).filter Call.isWait =
      (List.replicate course.waits [.beginInputWait, .endInputWait]).flatten := by
  have deaf (keys : List UInt8) : (typed keys).filter Call.isWait = [] := filter_typed (fun _ => rfl) keys
  have single (scan : Option UInt8) : (waitFor scan).filter Call.isWait = [.beginInputWait, .endInputWait] := by
    simp [waitFor, List.filter_cons, deaf, Call.isWait]
  have replies (scans : List (Option UInt8)) : (scans.flatMap waitFor).filter Call.isWait =
      (List.replicate scans.length [.beginInputWait, .endInputWait]).flatten := by
    induction scans with
    | nil => rfl
    | cons scan scans ih =>
        rw [List.flatMap_cons, List.filter_append, single, ih, List.length_cons, List.replicate_succ,
          List.flatten_cons]
  cases course <;>
    simp [body, calls, isAttended, opening, waits, deaf, single, replies, Call.isWait, List.replicate_succ]

theorem filter_draws :
    ∃ prompt, (course.body label).filter Call.draws <+: [.showSplash label, .clear, .status prompt] := by
  have deaf (keys : List UInt8) : (typed keys).filter Call.draws = [] := filter_typed (fun _ => rfl) keys
  have single (scan : Option UInt8) : (waitFor scan).filter Call.draws = [] := by
    simp [waitFor, deaf, Call.draws]
  have replies (scans : List (Option UInt8)) : (scans.flatMap waitFor).filter Call.draws = [] := by
    simp [List.filter_flatMap, single]
  cases course with
  | listed ahead first again prompt scans =>
      refine ⟨prompt, ?_⟩
      simp [body, calls, isAttended, opening, List.filter_cons, deaf, single, replies, Call.draws]
  | _ => exact ⟨"", by simp [body, calls, isAttended, opening, List.filter_cons, deaf, single, Call.draws]⟩

theorem filter_closes :
    (course.body label).filter Call.closes = if course.restarts then [.showPaused, .reset] else [] := by
  have deaf (keys : List UInt8) : (typed keys).filter Call.closes = [] := filter_typed (fun _ => rfl) keys
  have single (scan : Option UInt8) : (waitFor scan).filter Call.closes = [] := by
    simp [waitFor, deaf, Call.closes]
  have replies (scans : List (Option UInt8)) : (scans.flatMap waitFor).filter Call.closes = [] := by
    simp [List.filter_flatMap, single]
  cases course <;>
    simp [body, calls, isAttended, restarts, opening, List.filter_cons, deaf, single, replies, Call.closes]

end Course

theorem calls_finish {σ : Type} [Timeline σ] [Registers σ] [Console σ] (session : Session) (decided : Recorded σ) :
    ∃ earlier, (finish session decided).2.calls = earlier ++ [.hideSplash] := by
  simp only [finish, Action.bind_apply]
  split
  · exact ⟨_, calls_hideSplash _⟩
  · exact ⟨_, calls_hideSplash _⟩

section

variable {σ : Type} [Timeline σ] [Registers σ] [Keyboard σ] [Clock σ] [Console σ] [Machine σ] [Logging σ]

theorem run_body {config : Config} {patience : Nat} {registry : Registry} {before after : Recorded σ}
    {session : Session} (ran : run config patience registry before = some (session, after)) :
    ∃ front decided course, after.calls = before.calls ++ front ++ [.hideSplash] ∧
      front.filter Call.tells = course.body config.menuKey.label ∧
      after = (finish session decided).2 ∧ Follows config patience before decided session course := by
  obtain ⟨made, decided, course, continued, told, finished, follows⟩ := run_follows ran
  rw [course.body_closing] at told
  obtain ⟨earlier, closed⟩ := calls_finish session decided
  rw [← finished, continued] at closed
  rcases List.eq_nil_or_concat' made with rfl | ⟨front, last, rfl⟩
  · simp at told
  · rw [← List.append_assoc, List.append_singleton_inj] at closed
    obtain ⟨-, rfl⟩ := closed
    rw [List.filter_append, List.filter_cons_of_pos rfl, List.filter_nil, List.append_singleton_inj] at told
    exact ⟨front, decided, course, by rw [continued, List.append_assoc], told.1, finished, follows⟩

end

theorem count_front {front : List Call} {course : Course} {label : String}
    (told : front.filter Call.tells = course.body label) {call : Call} (closes : call.closes = true) :
    front.count call = (if course.restarts then [.showPaused, .reset] else []).count call := by
  have tells : call.tells = true := by cases call <;> first | rfl | cases closes
  rw [← course.filter_closes label, ← told, List.count_filter closes, List.count_filter tells]

section

variable {σ : Type} [Registers σ] [Console σ] [Logging σ]

/-- A run without the offer of the menu. -/
def headless (config : Config) (registry : Registry) : Action σ Session := do
  Diagnostics.markHappy
  let session ← selectByRecovery registry
  let _ ← offered config
  let session ← leave .autoselect session
  finish session
  return session

theorem headless_keeps {relation : σ → σ → Prop} [IsPreorder σ relation] (output : SparesOutput relation)
    (registers : SparesRegisters relation [Register.biosBoot, Register.bootCount, Register.bootSource])
    (hides : (hideSplash : Action σ Unit).Keeps relation) (config : Config) (registry : Registry) :
    (headless config registry : Action σ Session).Keeps relation := by
  intro before
  let happy := (Diagnostics.markHappy before).2
  let session := (selectByRecovery registry happy).1
  have unsplashed : session.splashShown = false := by
    rw [show session = _ from selectByRecovery_answer registry happy]
    rfl
  have finishes : (finish session : Action σ Unit).Keeps relation :=
    finish_keeps registers hides session (by simp) fun shown => absurd (unsplashed.symm.trans shown) (by decide)
  have marks := markHappy_keeps output registers (by simp) before
  have selects := selectByRecovery_keeps output registers registry (by simp) (by simp) happy
  have asks := offered_keeps output registers config (selectByRecovery registry happy).2
  have leaves := leave_keeps output .autoselect session (offered config (selectByRecovery registry happy).2).2
  exact IsTrans.trans _ _ _ marks (IsTrans.trans _ _ _ selects (IsTrans.trans _ _ _ asks
    (IsTrans.trans _ _ _ leaves (finishes _))))

variable [RegisterFile σ] [RegistersApart σ] [Keyboard σ] [Clock σ] [Machine σ]

/-- The patience for a run does not matter where nobody attends it. -/
theorem run_headless {config : Config} {before : σ} (unattended : Unattended config before) (registry : Registry)
    (patience : Nat) : run config patience registry before = some (headless config registry before) := by
  let happy := (Diagnostics.markHappy before).2
  let chosen := selectByRecovery registry happy
  have alone : Unattended config chosen.2 :=
    (unattended.undisturbed (Diagnostics.markHappy_keeps before) (by decide)).undisturbed
      (selectByRecovery_keeps (output_undisturbed _) (registers_undisturbed [Register.bootCount, Register.bootSource])
        registry (by simp) (by simp) happy) (by decide)
  have skipped := (offered_unattended alone).1
  have stays : autoselect config patience registry happy =
      some (leave .autoselect chosen.1 (offered config chosen.2).2) := by
    change (if (offered config chosen.2).1 then _ else _ : Waiting σ Session) _ = _
    rw [skipped]
    rfl
  simp only [run, Waiting.bind_apply, perform_apply, Option.bind_some]
  change (autoselect config patience registry happy).bind _ = _
  rw [stays]
  rfl

end

theorem headless_answer {σ : Type} [Registers σ] [Console σ] [Logging σ] (config : Config) (registry : Registry)
    (before : σ) : (headless config registry before).1 = recovered registry (decision before) :=
  selectByRecovery_answer registry (Diagnostics.markHappy before).2

theorem filter_told {selected : Call → Bool} (telling : ∀ call, selected call = true → call.tells = true)
    (front : List Call) : front.filter selected = (front.filter Call.tells).filter selected := by
  rw [List.filter_filter]
  congr 1
  funext call
  cases chosen : selected call with
  | false => rfl
  | true => rw [telling call chosen, Bool.and_self]

theorem headless_calls {σ : Type} [Timeline σ] [Registers σ] [Console σ] [Logging σ] (config : Config) (registry : Registry) :
    (headless config registry : Action (Recorded σ) Session).Keeps (Extends fun call => call.isHeadless = true) := by
  have output : SparesOutput (σ := Recorded σ) (Extends fun call => call.isHeadless = true) :=
    { emits := emit_keeps
      prints := fun text => Extends.keeps (calls_print text) rfl
      identifies := Extends.keeps calls_printPlatformInfo rfl }
  have registers : SparesRegisters (σ := Recorded σ) (Extends fun call => call.isHeadless = true)
      [Register.biosBoot, Register.bootCount, Register.bootSource] :=
    { looks := fun register =>
        Extends.keeps_answered (.readRegister register) (calls_readRegister register) fun _ => rfl
      writes := fun value _ among =>
        Extends.keeps (calls_writeRegister _ value) (List.contains_iff_mem.mpr among) }
  exact headless_keeps output registers (Extends.keeps calls_hideSplash rfl) config registry

section

variable {σ : Type} [Registers σ] [RegisterFile σ] [Keyboard σ] [Clock σ] [Console σ] [Machine σ] [Logging σ]
  [RegistersAlone σ]

/-- Boards with the same registers come out of a run that nobody attends with the same registers. -/
theorem headless_held {config : Config} {registry : Registry} {before other : σ} {recovery : RecoveryState}
    {mark : UInt8} (found : recovery.HeldBy before) (marked : held before Register.biosBoot = some mark)
    (unattended : Unattended config before) (same : Undisturbed held [] before other) :
    (headless config registry other).1 = (headless config registry before).1 ∧
      ∀ register, (held before register).isSome →
        held (headless config registry other).2 register = held (headless config registry before).2 register := by
  have otherFound : recovery.HeldBy other := found.undisturbed same (by decide)
  have otherMarked : held other Register.biosBoot = some mark := same _ _ (by simp) marked
  have answers {state : σ} (found : recovery.HeldBy state) :
      (headless config registry state).1 = recovered registry (.ofState recovery) := by
    have happyFound := found.undisturbed (Diagnostics.markHappy_keeps state) (by decide)
    rw [headless_answer, decision, Diagnostics.readRecoveryState_answer happyFound]
  have ran {state : σ} (unattended : Unattended config state) : run config 0 registry state =
      some ((headless config registry state).1, (headless config registry state).2) :=
    run_headless unattended registry 0
  have ends := run_held found marked (ran unattended)
  have otherEnds := run_held otherFound otherMarked (ran (unattended.undisturbed same (by simp)))
  have kept (state : σ) : Undisturbed held [Register.biosBoot, Register.bootCount, Register.bootSource] state
      (headless config registry state).2 :=
    headless_keeps (output_undisturbed _) (registers_undisturbed _) (spares_undisturbed _).hides config registry state
  rw [answers found] at ends
  rw [answers otherFound] at otherEnds
  refine ⟨(answers otherFound).trans (answers found).symm, fun register present => ?_⟩
  by_cases written : register ∈ [Register.biosBoot, Register.bootCount, Register.bootSource]
  · simp only [List.mem_cons, List.not_mem_nil, or_false] at written
    rcases written with rfl | rfl | rfl
    · rw [otherEnds.2.2, ends.2.2]
    · rw [otherEnds.2.1, ends.2.1]
    · rw [otherEnds.1, ends.1]
  · obtain ⟨value, stored⟩ := Option.isSome_iff_exists.mp present
    rw [kept before _ _ written stored, kept other _ _ written (same _ _ (by simp) stored)]

/-- Every run keeps the protocol: waits are closed before the next one starts, the splash comes
before the list and goes last, and a restart is asked for from a paused splash only. Where the
menu is not offered the registers alone decide what comes of a run. -/
theorem run_protocol [Timeline σ] (config : Config) (registry : Registry) (before : Recorded σ) :
    (∀ patience session after, run config patience registry before = some (session, after) →
      ∃ front, after.calls = before.calls ++ front ++ [.hideSplash] ∧ .hideSplash ∉ front ∧
        (∃ waits, front.filter Call.isWait =
          (List.replicate waits [.beginInputWait, .endInputWait]).flatten) ∧
        (∃ prompt, front.filter Call.draws <+: [.showSplash config.menuKey.label, .clear, .status prompt]) ∧
        front.count .showPaused = (if session.restarted then 1 else 0) ∧
        front.count .reset = (if session.restarted then 1 else 0) ∧
        (session.restarted = true → session.operatorChoice = false ∧
          ∃ ahead key frozen shown decided,
            front.filter Call.tells = opening config.menuKey.label ahead ++ waitFor (some ScanCode.f1) ++
              .showPaused :: (waitFor key ++ [.reset, .writeRegister Register.bootStage Stage.splashOff]) ∧
            frozen.told = before.told ++ opening config.menuKey.label ahead ++ waitFor (some ScanCode.f1) ∧
            splashActive frozen = true ∧
            paused patience shown (move .awaitMenuKey .paused frozen).2 = some (session, decided) ∧
            after = (finish session decided).2)) ∧
    (∀ (recovery : RecoveryState) (mark : UInt8), recovery.HeldBy before →
      held before Register.biosBoot = some mark → Unattended config before →
      ∃ session after, (∀ patience, run config patience registry before = some (session, after)) ∧
        (∃ made, after.calls = before.calls ++ made ∧ ∀ call ∈ made, call.isHeadless = true) ∧
        ∀ other : Recorded σ, Undisturbed held [] before other →
          ∃ otherAfter, (∀ patience, run config patience registry other = some (session, otherAfter)) ∧
            ∀ register, (held before register).isSome → held otherAfter register = held after register) := by
  constructor
  · intro patience session after ran
    obtain ⟨front, decided, course, continued, told, finished, follows⟩ := run_body ran
    have closes {call : Call} (closing : call.closes = true) := count_front told closing
    refine ⟨front, continued, ?_, ?_, ?_, ?_, ?_, fun restarts => ?_⟩
    · rw [← List.count_eq_zero, closes rfl]
      cases course.restarts <;> rfl
    · refine ⟨course.waits, ?_⟩
      rw [filter_told Call.tells_of_isWait, told, course.filter_waits]
    · rw [filter_told Call.tells_of_draws, told]
      exact course.filter_draws _
    · rw [closes rfl, follows.restarted]
      cases course.restarts <;> rfl
    · rw [closes rfl, follows.restarted]
      cases course.restarts <;> rfl
    · rw [follows.restarted] at restarts
      cases course with
      | paused ahead key =>
          obtain ⟨frozen, shown, active, heard, pauses⟩ := follows.frozen ahead key rfl
          refine ⟨Bool.eq_false_iff.mpr fun chose => Bool.false_ne_true (follows.operator chose),
            ahead, key, frozen, shown, decided, ?_, heard, active, pauses, finished⟩
          rw [told, Course.body, Course.calls, Course.isAttended]
          simp
      | _ => cases restarts
  · intro recovery mark found marked unattended
    have ran {state : Recorded σ} (unattended : Unattended config state) (patience : Nat) :
        run config patience registry state =
          some ((headless config registry state).1, (headless config registry state).2) :=
      run_headless unattended registry patience
    refine ⟨(headless config registry before).1, (headless config registry before).2, ran unattended,
      headless_calls config registry before, fun other same => ?_⟩
    obtain ⟨session, registers⟩ :
        (headless config registry other).1 = (headless config registry before).1 ∧ _ :=
      headless_held found marked unattended same
    exact ⟨(headless config registry other).2,
      fun patience => session ▸ ran (unattended.undisturbed same (by simp)) patience, registers⟩

end

section

open Scripted

/-- A splash that is paused with F1 ends in a restart. With the menu disabled the same board
hears no key: it comes to what it comes to without a keyboard. -/
theorem run_protocol_paused :
    let before : Recorded Board := { platform := failingBoard 0x22 [⟨50, ScanCode.f1⟩, ⟨100, ScanCode.enter⟩] }
    let silent : Recorded Board := { platform := failingBoard 0x22 [] }
    (∃ (session : Session) (after : Recorded Board), run {} 20 threeDisks before = some (session, after) ∧
      session.restarted = true ∧
      ∃ front, after.calls = before.calls ++ front ++ [.hideSplash] ∧ front.count .reset = 1) ∧
    failingState.HeldBy before ∧ held before Register.biosBoot = some 0 ∧
    Unattended { menuEnabled := false } before ∧ Undisturbed held [] before silent ∧
    ∃ (session : Session) (after silentAfter : Recorded Board),
      run { menuEnabled := false } 0 threeDisks before = some (session, after) ∧
      run { menuEnabled := false } 0 threeDisks silent = some (session, silentAfter) ∧
      held silentAfter Register.bootSource = held after Register.bootSource := by
  intro before silent
  have found : failingState.HeldBy before := ⟨⟨1, rfl, rfl⟩, rfl, rfl, rfl⟩
  have marked : held before Register.biosBoot = some 0 := rfl
  have unattended : Unattended { menuEnabled := false } before := .inl rfl
  have same : Undisturbed held [] before silent := fun _ _ _ stored => stored
  refine ⟨?_, found, marked, unattended, same, ?_⟩
  · have told : (run {} 20 threeDisks before).map (fun (session, _) => session.restarted) = some true := by
      decide +kernel
    obtain ⟨⟨session, after⟩, ran, restarted⟩ := Option.map_eq_some_iff.mp told
    obtain ⟨front, continued, _, _, _, _, resets, _⟩ := (run_protocol {} threeDisks before).1 20 session after ran
    rw [show session.restarted = true from restarted] at resets
    exact ⟨session, after, ran, restarted, front, continued, resets⟩
  · obtain ⟨session, after, ran, _, others⟩ :=
      (run_protocol { menuEnabled := false } threeDisks before).2 failingState 0 found marked unattended
    obtain ⟨silentAfter, silentRan, registers⟩ := others silent same
    exact ⟨session, after, silentAfter, ran 0, silentRan 0, registers _ rfl⟩

end

end Menu

end BootFlow
