import BootFlow.Proofs.Menu.Calls
import BootFlow.Proofs.Menu.Rounds

namespace BootFlow

open Clock Console Keyboard Logging Machine Recorded Registers Waiting

/-! The course of a run, call by call: the keys that it heard, the waits for them, what it
showed, and the stages that it marked. -/

variable {σ : Type}

/-- Reads, idles and printed text do not tell the course of a run. -/
def Call.tells : Call → Bool
  | .pollKey scan => scan.isSome
  | .writeRegister register _ => register == Register.bootStage
  | .readRegister .. | .readClock _ | .idle _ | .print _ | .printPlatformInfo => false
  | _ => true

def Recorded.told (recorded : Recorded σ) : List Call :=
  recorded.calls.filter Call.tells

theorem Recorded.told_of_call {before after : Recorded σ} {call : Call}
    (made : after.calls = before.calls ++ [call]) (telling : call.tells = true) :
    after.told = before.told ++ [call] := by
  rw [told, told, made, List.filter_append, List.filter_cons_of_pos telling, List.filter_nil]

/-- Nothing is told between the two. -/
def Untold (before after : Recorded σ) : Prop :=
  after.told = before.told

instance : IsPreorder (Recorded σ) Untold where
  refl _ := rfl
  trans _ _ _ first second := Eq.trans second first

theorem Untold.of_call {before after : Recorded σ} {call : Call} (made : after.calls = before.calls ++ [call])
    (quiet : call.tells = false) : Untold before after := by
  rw [Untold, told, told, made, List.filter_append, List.filter_cons_of_neg (by simp [quiet]), List.filter_nil,
    List.append_nil]

/-- Keys that were heard. -/
def typed (keys : List UInt8) : List Call :=
  keys.map fun scan => .pollKey (some scan)

theorem filterMap_typed {β : Type} {selected : Call → Option β} (deaf : ∀ scan, selected (.pollKey scan) = none)
    (keys : List UInt8) : (typed keys).filterMap selected = [] := by
  simp [typed, List.filterMap_map, deaf]

theorem typed_append (first second : List UInt8) : typed (first ++ second) = typed first ++ typed second :=
  List.map_append

variable [Timeline σ]

section

variable [Clock σ]

theorem now_untold : (now : Action (Recorded σ) Nat).Keeps Untold := fun recorded =>
  .of_call (calls_now recorded) rfl

theorem idle_untold (budget : Option UInt32) : (idle budget : Action (Recorded σ) Unit).Keeps Untold :=
  fun recorded => .of_call (calls_idle budget recorded) rfl

namespace Keystroke

variable [Keyboard σ]

/-- The key that a look at the keyboard found. -/
def Turn.key? : Turn → Option UInt8
  | .key scan => some scan
  | .timeUp | .idled => none

omit [Clock σ] in
theorem told_pollKey (recorded : Recorded σ) :
    (pollKey recorded).2.told = recorded.told ++ typed (pollKey recorded).1.toList := by
  have polled := calls_pollKey recorded
  cases scan : (pollKey recorded).1 with
  | none =>
      rw [scan] at polled
      exact (Untold.of_call polled rfl).trans (List.append_nil _).symm
  | some scan =>
      rw [scan] at polled
      exact told_of_call polled rfl

theorem told_turn (deadline : Option Deadline) (recorded : Recorded σ) :
    (turn deadline recorded).2.told = recorded.told ++ typed (turn deadline recorded).1.key?.toList := by
  have polled := told_pollKey recorded
  simp only [turn, Action.bind_apply]
  cases heard : (pollKey recorded).1 with
  | some scan =>
      rw [heard] at polled
      exact polled
  | none =>
      rw [heard] at polled
      cases deadline with
      | none => exact (idle_untold none (pollKey recorded).2).trans polled
      | some deadline =>
          have waited := Deadline.idleOnce_keeps now_untold idle_untold deadline (pollKey recorded).2
          simp only [Action.bind_apply, Action.pure_apply]
          split <;> exact Eq.trans waited polled

theorem told_awaitBy {deadline : Option Deadline} {patience : Nat} {before after : Recorded σ}
    {scan : Option UInt8} (ended : awaitBy deadline patience before = some (scan, after)) :
    after.told = before.told ++ typed scan.toList := by
  induction patience generalizing before with
  | zero => cases ended
  | succ patience ih =>
      have rest := perform_bind_eq_some.mp ended
      have told := told_turn deadline before
      cases turned : (turn deadline before).1 with
      | key scan =>
          rw [turned] at told rest
          cases rest
          exact told
      | timeUp =>
          rw [turned] at told rest
          cases rest
          exact told
      | idled =>
          rw [turned] at told rest
          rw [ih rest, told]
          exact congrArg (· ++ _) (List.append_nil _)

theorem told_await {patience : Nat} {timeout : Timeout} {before after : Recorded σ} {scan : Option UInt8}
    (ended : await patience timeout before = some (scan, after)) :
    after.told = before.told ++ typed scan.toList := by
  cases timeout with
  | forever => exact told_awaitBy ended
  | millis count =>
      have rest := perform_bind_eq_some.mp ended
      rw [told_awaitBy rest]
      exact congrArg (· ++ _) (Deadline.after_keeps now_untold count before)

theorem told_drainUpTo {patience keys : Nat} {before after : Recorded σ}
    (ended : drainUpTo patience keys before = some ((), after)) :
    ∃ ahead, after.told = before.told ++ typed ahead := by
  induction keys generalizing before with
  | zero => cases ended
  | succ keys ih =>
      obtain ⟨scan, middle, awaited, rest⟩ := bind_eq_some.mp ended
      have told := told_await awaited
      cases scan with
      | none =>
          cases rest
          exact ⟨[], told⟩
      | some scan =>
          obtain ⟨ahead, later⟩ := ih rest
          refine ⟨scan :: ahead, ?_⟩
          rw [later, told, List.append_assoc, ← typed_append]
          rfl

end Keystroke

end

namespace Menu

/-- A wait for a key, with the key if one came. -/
def waitFor (scan : Option UInt8) : List Call :=
  .beginInputWait :: (typed scan.toList ++ [.endInputWait])

/-- What comes before the wait for the first key: keys that were typed ahead, and the splash. -/
def opening (label : String) (ahead : List UInt8) : List Call :=
  .writeRegister Register.bootStage Stage.splash :: (typed ahead ++ [.showSplash label])

/-- How a run can go on from the decision of recovery. -/
inductive Course
  /-- The menu is not offered. -/
  | unattended
  /-- The first key, if there is one, leads nowhere. -/
  | passed (ahead : List UInt8) (first : Option UInt8)
  | paused (ahead : List UInt8) (key : Option UInt8)
  | listed (ahead : List UInt8) (first : UInt8) (again : List UInt8) (prompt : String)
      (replies : List (Option UInt8))
  deriving DecidableEq, Repr

namespace Course

def calls (label : String) : Course → List Call
  | .unattended => []
  | .passed ahead first => opening label ahead ++ waitFor first
  | .paused ahead key =>
      opening label ahead ++ waitFor (some ScanCode.f1) ++ .showPaused :: (waitFor key ++ [.reset])
  | .listed ahead first again prompt replies =>
      opening label ahead ++ waitFor (some first) ++ typed again ++ [.clear, .status prompt] ++
        replies.flatMap waitFor

def isAttended : Course → Bool
  | .unattended => false
  | .passed .. | .paused .. | .listed .. => true

def restarts : Course → Bool
  | .paused .. => true
  | .unattended | .passed .. | .listed .. => false

/-- An operator chooses from the list only. -/
def isListed : Course → Bool
  | .listed .. => true
  | .unattended | .passed .. | .paused .. => false

/-- How a run ends. -/
def closing (course : Course) : List Call :=
  (if course.isAttended then [.writeRegister Register.bootStage Stage.splashOff] else []) ++ [.hideSplash]

end Course

theorem untold_registers [Registers σ] : SparesRegisters (σ := Recorded σ) Untold
    [Register.biosBoot, Register.bootCount, Register.bootSource] where
  looks register recorded := .of_call (calls_readRegister register recorded) rfl
  writes value register among recorded := by
    have elsewhere : register ≠ Register.bootStage := fun same => absurd (same ▸ among) (by decide)
    exact .of_call (calls_writeRegister register value recorded) (beq_eq_false_iff_ne.mpr elsewhere)

theorem told_reply [Clock σ] {escapeFrom : Deadline} {count : Nat} {scan : UInt8} {answer : Reply}
    {heard replied : Recorded σ} (replies : reply escapeFrom count scan heard = (answer, replied)) :
    replied.told = heard.told :=
  (reply_keeps now_untold escapeFrom count scan).of_eq replies

variable [Console σ]

theorem untold_output [Logging σ] : SparesOutput (σ := Recorded σ) Untold where
  emits _ _ _ := rfl
  prints text recorded := .of_call (calls_print text recorded) rfl
  identifies recorded := .of_call (calls_printPlatformInfo recorded) rfl

theorem told_finish [Registers σ] (session : Session) (decided : Recorded σ) :
    (finish session decided).2.told =
      decided.told ++ (if session.splashShown then [.writeRegister Register.bootStage Stage.splashOff] else []) ++
        [.hideSplash] := by
  have noted : (recordSelection session.registry session.selection decided).2.told = decided.told :=
    (untold_registers (σ := σ)).writes _ (by simp) decided
  have hidden (recorded : Recorded σ) : (hideSplash recorded).2.told = recorded.told ++ [.hideSplash] :=
    told_of_call (calls_hideSplash recorded) rfl
  have staged (recorded : Recorded σ) : (Diagnostics.writeStage Stage.splashOff recorded).2.told =
      recorded.told ++ [.writeRegister Register.bootStage Stage.splashOff] :=
    told_of_call (calls_writeRegister _ _ recorded) rfl
  simp only [finish, Action.bind_apply]
  split
  · rw [Action.bind_apply, hidden, staged, noted]
  · rw [hidden, noted, List.append_nil]

theorem told_leave [Logging σ] (source : Phase) (session : Session) (before : Recorded σ) :
    (leave source session before).2.told = before.told :=
  leave_keeps untold_output source session before

variable [Clock σ]

theorem told_showDevices [Logging σ] (config : Config) (session : Session) (before : Recorded σ) :
    ∃ prompt, (showDevices config session before).2.told = before.told ++ [.clear, .status prompt] := by
  let cleared := (clear before).2
  let titled := (print "Select boot device:\n\n" cleared).2
  let listed := (printCandidates "" 1 session.registry.candidates titled).2
  let count := Text.decimal session.registry.candidates.length
  let prompt := "Hit 1 - " ++ count ++ " or F1 - F" ++ count ++ " to boot or ESC to continue"
  let prompted := (status prompt listed).2
  have clears : cleared.told = before.told ++ [.clear] := told_of_call (calls_clear before) rfl
  have lists : listed.told = cleared.told :=
    (printCandidates_keeps untold_output _ _ _ titled).trans (untold_output.prints _ cleared)
  have prompts : prompted.told = listed.told ++ [.status prompt] := told_of_call (calls_status prompt listed) rfl
  have waits : (showDevices config session before).2.told = prompted.told :=
    (Deadline.after_keeps now_untold config.escapeDebounce _).trans (untold_output.emits _ _ prompted)
  exact ⟨prompt, by rw [waits, prompts, lists, clears, List.append_assoc]; rfl⟩

variable [Keyboard σ]

theorem told_awaitKey {patience : Nat} {timeout : Timeout} {before after : Recorded σ} {scan : Option UInt8}
    (ended : awaitKey patience timeout before = some (scan, after)) :
    after.told = before.told ++ waitFor scan := by
  obtain ⟨heard, awaited, rfl⟩ := awaitKey_parts ended
  have begun := told_of_call (calls_beginInputWait before) rfl
  have left := told_of_call (calls_endInputWait heard) rfl
  rw [left, Keystroke.told_await awaited, begun, waitFor]
  simp

/-- Neither flag changes. -/
def Session.Agrees (first second : Session) : Prop :=
  second.splashShown = first.splashShown ∧ second.restarted = first.restarted

theorem told_awaitSelection [Logging σ] {config : Config} {patience keys : Nat} {escapeFrom : Deadline}
    {session chosen : Session} {before after : Recorded σ}
    (ended : awaitSelection config patience escapeFrom session keys before = some (chosen, after)) :
    session.Agrees chosen ∧
      ∃ replies : List (Option UInt8), after.told = before.told ++ replies.flatMap waitFor := by
  have printed (text : String) (recorded : Recorded σ) : (print text recorded).2.told = recorded.told :=
    untold_output.prints text recorded
  induction keys generalizing before with
  | zero => cases ended
  | succ keys ih =>
      have round := awaitSelection_round ended
      cases round with
      | silent awaited => exact ⟨⟨rfl, rfl⟩, [none], by simpa using told_awaitKey awaited⟩
      | @kept scan _ _ awaited replies =>
          exact ⟨⟨rfl, rfl⟩, [some scan], by simpa [printed, told_reply replies] using told_awaitKey awaited⟩
      | @chosen scan position _ _ awaited replies =>
          have chooses := choose_keeps (σ := Recorded σ) untold_output session position
          refine ⟨⟨rfl, rfl⟩, [some scan], ?_⟩
          rw [chooses, printed, told_reply replies, told_awaitKey awaited]
          simp
      | @ignored scan _ _ _ _ awaited replies rest =>
          obtain ⟨agrees, later, onwards⟩ := ih rest
          refine ⟨agrees, some scan :: later, ?_⟩
          rw [onwards, told_reply replies, told_awaitKey awaited, List.flatMap_cons, List.append_assoc]

variable [Logging σ]

theorem told_deviceList {config : Config} {patience : Nat} {session chosen : Session} {before after : Recorded σ}
    (ended : deviceList config patience session before = some (chosen, after)) :
    session.Agrees chosen ∧ ∃ again prompt, ∃ replies : List (Option UInt8),
      after.told = before.told ++ typed again ++ [.clear, .status prompt] ++ replies.flatMap waitFor := by
  obtain ⟨drained, left, drains, awaited, rfl⟩ := deviceList_parts ended
  obtain ⟨again, ahead⟩ := Keystroke.told_drainUpTo drains
  obtain ⟨prompt, prompted⟩ := told_showDevices config session drained
  obtain ⟨agrees, replies, replied⟩ := told_awaitSelection awaited
  have moved := move_keeps (σ := Recorded σ) untold_output .deviceList .awaitSelection
    (showDevices config session drained).2
  refine ⟨agrees, again, prompt, replies, ?_⟩
  rw [told_leave, replied, moved, prompted, ahead]

variable [Machine σ]

theorem told_paused {patience : Nat} {session chosen : Session} {before after : Recorded σ}
    (ended : paused patience session before = some (chosen, after)) :
    chosen = { session with restarted := true } ∧
      ∃ key, after.told = before.told ++ .showPaused :: (waitFor key ++ [.reset]) := by
  have rest := perform_bind_eq_some.mp ended
  obtain ⟨key, heard, awaited, rest⟩ := bind_eq_some.mp rest
  have leaves := perform_bind_eq_some.mp rest
  obtain ⟨rfl, rfl⟩ := perform_eq_some.mp leaves
  have frozen := told_of_call (calls_showPaused before) rfl
  have restarts : (restart heard).2.told = heard.told ++ [.reset] :=
    told_of_call (calls_reset (emit .info "Rebooting." heard).2) rfl
  refine ⟨rfl, key, ?_⟩
  rw [told_leave, restarts, told_awaitKey awaited, frozen]
  simp

/-- The run goes this course to this session. A splash that was paused was active. -/
structure Follows (config : Config) (patience : Nat) (before after : Recorded σ) (chosen : Session)
    (course : Course) : Prop where
  told : after.told = before.told ++ course.calls config.menuKey.label
  shown : chosen.splashShown = course.isAttended
  restarted : chosen.restarted = course.restarts
  operator : chosen.operatorChoice = true → course.isListed = true
  frozen : ∀ ahead key, course = .paused ahead key → ∃ frozen shown, splashActive frozen = true ∧
    frozen.told = before.told ++ opening config.menuKey.label ahead ++ waitFor (some ScanCode.f1) ∧
    paused patience shown (move .awaitMenuKey .paused frozen).2 = some (chosen, after)

theorem phaseOfKey_paused {config : Config} {splash : Bool} {scan : Option UInt8}
    (pauses : phaseOfKey config splash scan = .paused) : scan = some ScanCode.f1 ∧ splash = true := by
  unfold phaseOfKey at pauses
  split at pauses
  · cases pauses
  · split at pauses
    · rename_i frozen
      exact ⟨congrArg some frozen.1, frozen.2⟩
    · split at pauses <;> cases pauses

theorem phaseOfKey_deviceList {config : Config} {splash : Bool} {scan : Option UInt8}
    (lists : phaseOfKey config splash scan = .deviceList) : ∃ key, scan = some key := by
  cases scan with
  | none => cases lists
  | some key => exact ⟨key, rfl⟩

/-- No operator has done anything in the session yet. -/
structure Session.Untouched (session : Session) : Prop where
  running : session.restarted = false
  own : session.operatorChoice = false

theorem awaitMenuKey_follows {config : Config} {patience : Nat} {session chosen : Session}
    {before opened after : Recorded σ} {ahead : List UInt8} (untouched : session.Untouched)
    (shown : session.splashShown = true) (opens : opened.told = before.told ++ opening config.menuKey.label ahead)
    (ended : awaitMenuKey config patience session opened = some (chosen, after)) :
    ∃ course, Follows config patience before after chosen course := by
  have own : session.operatorChoice ≠ true := by simp [untouched.own]
  obtain ⟨first, heard, awaited, rest⟩ := bind_eq_some.mp ended
  obtain ⟨_, _, looks, goes⟩ := bind_eq_some.mp rest
  cases looks
  have hears := told_awaitKey awaited
  rw [opens] at hears
  have moved (target : Phase) : (move .awaitMenuKey target heard).2.told = heard.told :=
    move_keeps untold_output _ _ heard
  cases phase : phaseOfKey config (splashActive heard) first <;> simp only [phase] at goes
  case paused =>
    obtain ⟨rfl, active⟩ := phaseOfKey_paused phase
    have pauses := perform_bind_eq_some.mp goes
    obtain ⟨rfl, key, told⟩ := told_paused pauses
    refine ⟨.paused ahead key, ?_, shown, rfl, fun chose => absurd chose own, ?_⟩
    · rw [told, moved, hears, Course.calls]
      simp
    · rintro _ _ ⟨rfl⟩
      exact ⟨heard, session, active, hears, pauses⟩
  case deviceList =>
    obtain ⟨key, rfl⟩ := phaseOfKey_deviceList phase
    have lists := perform_bind_eq_some.mp goes
    obtain ⟨agrees, again, prompt, replies, told⟩ := told_deviceList lists
    refine ⟨.listed ahead key again prompt replies, ?_, agrees.1.trans shown, agrees.2.trans untouched.running,
      fun _ => rfl, nofun⟩
    rw [told, moved, hears, Course.calls]
    simp
  all_goals
    obtain ⟨rfl, rfl⟩ := perform_eq_some.mp goes
    refine ⟨.passed ahead first, ?_, shown, untouched.running, fun chose => absurd chose own, nofun⟩
    rw [told_leave, hears, List.append_assoc]
    rfl

variable [Registers σ]

theorem countdown_follows {config : Config} {patience : Nat} {session chosen : Session} {before after : Recorded σ}
    (untouched : session.Untouched) (ended : countdown config patience session before = some (chosen, after)) :
    ∃ course, Follows config patience before after chosen course := by
  have rest := perform_bind_eq_some.mp ended
  obtain ⟨_, drained, drains, rest⟩ := bind_eq_some.mp rest
  have rest := perform_bind_eq_some.mp rest
  have rest := perform_bind_eq_some.mp rest
  obtain ⟨ahead, typedAhead⟩ := Keystroke.told_drainUpTo drains
  have staged : (Diagnostics.writeStage Stage.splash before).2.told =
      before.told ++ [.writeRegister Register.bootStage Stage.splash] :=
    told_of_call (calls_writeRegister _ _ before) rfl
  have listed : (listCandidates session before).2.told = (Diagnostics.writeStage Stage.splash before).2.told :=
    (printCandidates_keeps untold_output _ _ _ _).trans (untold_output.prints _ _)
  have raised : (raiseSplash config drained).2.told = drained.told ++ [.showSplash config.menuKey.label] := by
    unfold raiseSplash
    cases config.menuMessage with
    | none => exact told_of_call (calls_showSplash _ drained) rfl
    | some message =>
        have printed : (print message drained).2.told = drained.told := untold_output.prints message drained
        exact (told_of_call (calls_showSplash _ (print message drained).2) rfl).trans (by rw [printed])
  have quiet := move_keeps (σ := Recorded σ) untold_output .countdown .awaitMenuKey (raiseSplash config drained).2
  have opens : (move .countdown .awaitMenuKey (raiseSplash config drained).2).2.told =
      before.told ++ opening config.menuKey.label ahead := by
    rw [quiet, raised, typedAhead, listed, staged, opening]
    simp
  have shown : Session.Untouched { session with splashShown := true } := ⟨untouched.running, untouched.own⟩
  exact awaitMenuKey_follows shown rfl opens rest

theorem offer_follows {config : Config} {patience : Nat} {session chosen : Session} {before after : Recorded σ}
    (untouched : session.Untouched) (unsplashed : session.splashShown = false)
    (ended : offer config patience session before = some (chosen, after)) :
    ∃ course, Follows config patience before after chosen course := by
  have rest := perform_bind_eq_some.mp ended
  have asked : (offered config before).2.told = before.told := offered_keeps untold_output untold_registers config before
  split at rest
  · have rest := perform_bind_eq_some.mp rest
    have moved : (move .autoselect .countdown (offered config before).2).2.told = before.told :=
      (move_keeps untold_output _ _ _).trans asked
    obtain ⟨course, follows⟩ := countdown_follows untouched rest
    exact ⟨course, moved ▸ follows.told, follows.shown, follows.restarted, follows.operator, moved ▸ follows.frozen⟩
  · obtain ⟨rfl, rfl⟩ := perform_eq_some.mp rest
    refine ⟨.unattended, ?_, unsplashed, untouched.running, fun chose => ?_, nofun⟩
    · rw [told_leave, asked]
      exact (List.append_nil _).symm
    · exact absurd (untouched.own.symm.trans chose) (by decide)

theorem run_follows {config : Config} {patience : Nat} {registry : Registry} {before after : Recorded σ}
    {session : Session} (ran : run config patience registry before = some (session, after)) :
    ∃ made decided course, after.calls = before.calls ++ made ∧
      made.filter Call.tells = course.calls config.menuKey.label ++ course.closing ∧
      after = (finish session decided).2 ∧ Follows config patience before decided session course := by
  obtain ⟨made, continued, -⟩ := run_continues config patience registry _ _ _ ran
  obtain ⟨decided, autoselects, rfl⟩ := run_parts ran
  have offers := perform_bind_eq_some.mp autoselects
  let happy := (Diagnostics.markHappy before).2
  have marked : happy.told = before.told :=
    markHappy_keeps (σ := Recorded σ) untold_output untold_registers (by simp) before
  have recorded : (selectByRecovery registry happy).2.told = happy.told :=
    selectByRecovery_keeps untold_output untold_registers registry (by simp) (by simp) happy
  have recovers := selectByRecovery_answer registry happy
  obtain ⟨course, offered⟩ := offer_follows (by rw [recovers]; exact ⟨rfl, rfl⟩) (by rw [recovers]; rfl) offers
  have same : (selectByRecovery registry happy).2.told = before.told := recorded.trans marked
  have follows : Follows config patience before decided session course :=
    ⟨same ▸ offered.told, offered.shown, offered.restarted, offered.operator, same ▸ offered.frozen⟩
  refine ⟨made, decided, course, continued, ?_, rfl, follows⟩
  have closed := told_finish session decided
  rw [follows.told, offered.shown, Recorded.told, continued, List.filter_append, List.append_assoc, List.append_assoc] at closed
  exact List.append_cancel_left closed

end Menu

end BootFlow
