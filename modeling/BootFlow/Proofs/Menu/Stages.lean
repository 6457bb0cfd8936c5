import BootFlow.Proofs.Menu.Selection
import BootFlow.Proofs.Menu.Steps

namespace BootFlow.Menu

open Clock Console Keyboard Logging Machine Registers Waiting

/-! A run of the menu falls into what it does by itself, up to the phase that the first key
leads to, and what an operator makes of it there. Only the device list lets one choose. -/

variable {σ : Type} [Keyboard σ] [Clock σ] [Console σ] [Machine σ] [Logging σ]

/-- Goes to the phase that the first key leads to. -/
def heed (config : Config) (session : Session) (scan : Option UInt8) : Action σ (Session × Phase) := do
  match phaseOfKey config (splashActive (← get)) scan with
  | .paused =>
      move .awaitMenuKey .paused
      return (session, .paused)
  | .deviceList =>
      move .awaitMenuKey .deviceList
      return (session, .deviceList)
  | _ => return (← leave .awaitMenuKey session, .done)

/-- What is left of the menu in a phase that the first key leads to. -/
def proceed (config : Config) (patience : Nat) (session : Session) : Phase → Waiting σ Session
  | .paused => paused patience session
  | .deviceList => deviceList config patience session
  | _ => return session

theorem awaitMenuKey_eq (config : Config) (patience : Nat) (session : Session) :
    (awaitMenuKey config patience session : Waiting σ Session) = (do
      let scan ← awaitKey patience (.millis config.menuWait)
      let (session, phase) ← perform (heed config session scan)
      proceed config patience session phase) := by
  refine bind_congr fun scan => funext fun state => ?_
  have waits : (get : Waiting σ σ) state = some (state, state) := rfl
  have looks : (get : Action σ σ) state = (state, state) := rfl
  simp only [Waiting.bind_apply, waits, Option.bind_some, perform_apply, heed, Action.bind_apply, looks]
  cases phaseOfKey config (splashActive state) scan <;> rfl

theorem paused_answer (patience : Nat) (session : Session) :
    (paused patience session : Waiting σ Session).Answers fun chosen =>
      chosen = { session with restarted := true } :=
  .after fun _ => .after fun _ => .after fun _ => .perform fun _ => rfl

omit [Keyboard σ] [Clock σ] [Machine σ] in
theorem heed_answer (config : Config) (session : Session) (scan : Option UInt8) (state : σ) :
    (heed config session scan state).1.1 = session := by
  have looks : (get : Action σ σ) state = (state, state) := rfl
  simp only [heed, Action.bind_apply, looks]
  cases phaseOfKey config (splashActive state) scan <;> rfl

omit [Keyboard σ] [Clock σ] [Machine σ] in
theorem heed_unpaused {state : σ} (hidden : splashActive state = false) (config : Config) (session : Session)
    (scan : Option UInt8) : (heed config session scan state).1.2 ≠ .paused := by
  have looks : (get : Action σ σ) state = (state, state) := rfl
  simp only [heed, Action.bind_apply, looks, hidden]
  cases scan with
  | none => exact nofun
  | some scan =>
      simp only [phaseOfKey, Bool.false_eq_true, and_false, if_false]
      by_cases opens : scan = ScanCode.enter ∨ config.menuKey.isPressed scan
      · rw [if_pos opens]
        exact nofun
      · rw [if_neg opens]
        exact nofun

variable [Registers σ]

/-- A run up to the phase that the first key leads to, or to the end where the menu is not
offered. -/
def untilKey (config : Config) (patience : Nat) (registry : Registry) : Waiting σ (Session × Phase) := do
  perform Diagnostics.markHappy
  let session ← perform (selectByRecovery registry)
  if ← perform (offered config) then
    perform (move .autoselect .countdown)
    perform (listCandidates session)
    Keystroke.drain patience
    perform (raiseSplash config)
    perform (move .countdown .awaitMenuKey)
    let scan ← awaitKey patience (.millis config.menuWait)
    perform (heed config { session with splashShown := true } scan)
  else
    return (← perform (leave .autoselect session), .done)

theorem run_eq (config : Config) (patience : Nat) (registry : Registry) :
    (run config patience registry : Waiting σ Session) = (do
      let (session, phase) ← untilKey config patience registry
      let session ← proceed config patience session phase
      perform (finish session)
      return session) := by
  simp only [run, autoselect, countdown, awaitMenuKey_eq, untilKey, bind_assoc]
  refine bind_congr fun _ => bind_congr fun session => bind_congr fun offered => ?_
  cases offered with
  | false => simp only [Bool.false_eq_true, if_false, bind_assoc, pure_bind, proceed]
  | true => simp only [if_true, bind_assoc]

section

variable {relation : σ → σ → Prop} [IsPreorder σ relation]

omit [Keyboard σ] [Clock σ] [Machine σ] [Registers σ] in
theorem heed_keeps (output : SparesOutput relation) (config : Config) (session : Session) (scan : Option UInt8) :
    (heed config session scan : Action σ (Session × Phase)).Keeps relation := by
  have looks : (get : Action σ σ).Keeps relation := fun state => refl state
  refine looks.bind fun state => ?_
  split
  · exact (move_keeps output _ _).bind fun _ => .pure _
  · exact (move_keeps output _ _).bind fun _ => .pure _
  · exact (leave_keeps output _ _).bind fun _ => .pure _

omit [Machine σ] in
theorem untilKey_keeps (waits : SparesWaits relation) {written : List UInt16}
    (registers : SparesRegisters relation written) (config : Config) (patience : Nat) (registry : Registry)
    (all : writtenRegisters ⊆ written) :
    (untilKey config patience registry : Waiting σ (Session × Phase)).Keeps relation := by
  have output := waits.toSparesOutput
  have counts : Register.bootCount ∈ written := all (by decide)
  have hands : Register.bootSource ∈ written := all (by decide)
  have stages : Register.bootStage ∈ written := all (by decide)
  refine (Keeps.perform (markHappy_keeps output registers (all (by decide)))).bind fun _ =>
    (Keeps.perform (selectByRecovery_keeps output registers registry counts hands)).bind fun session =>
      (Keeps.perform (offered_keeps output registers config)).bind fun offered => ?_
  cases offered with
  | false => exact (Keeps.perform (leave_keeps output _ _)).bind fun _ => .pure _
  | true =>
      exact (Keeps.perform (move_keeps output _ _)).bind fun _ =>
        (Keeps.perform (listCandidates_keeps output registers session stages)).bind fun _ =>
          (drain_keeps waits patience).bind fun _ =>
            (Keeps.perform (raiseSplash_keeps waits.toSparesScreen config)).bind fun _ =>
              (Keeps.perform (move_keeps output _ _)).bind fun _ =>
                (awaitKey_keeps waits patience _).bind fun scan => .perform (heed_keeps output config _ scan)

end

omit [Machine σ] in
/-- Where no splash is ever seen, none can be paused. -/
theorem untilKey_unpaused (hidden : ∀ state : σ, splashActive state = false) (config : Config) (patience : Nat)
    (registry : Registry) :
    (untilKey config patience registry : Waiting σ (Session × Phase)).Answers fun answer =>
      answer.2 ≠ .paused := by
  refine .after fun _ => .after fun session => .after fun offered => ?_
  cases offered with
  | false => exact .after fun _ => .pure nofun
  | true =>
      exact .after fun _ => .after fun _ => .after fun _ => .after fun _ => .after fun _ => .after fun scan =>
        .perform fun state => heed_unpaused (hidden state) config _ scan

omit [Machine σ] in
/-- Up to the first key only recovery has made a choice. -/
theorem untilKey_recovers {config : Config} {patience : Nat} {registry : Registry} {before opened : σ}
    {session : Session} {phase : Phase}
    (ended : untilKey config patience registry before = some ((session, phase), opened)) :
    ∃ splashShown, session = { recovered registry (decision before) with splashShown } := by
  have rest := perform_bind_eq_some.mp ended
  obtain ⟨selected, _, selects, rest⟩ := bind_eq_some.mp rest
  obtain ⟨answered, rfl⟩ := perform_eq_some.mp selects
  rw [selectByRecovery_answer] at answered
  obtain ⟨_, _, _, rest⟩ := bind_eq_some.mp rest
  split at rest
  · obtain ⟨_, _, _, rest⟩ := bind_eq_some.mp rest
    obtain ⟨_, _, _, rest⟩ := bind_eq_some.mp rest
    obtain ⟨_, _, _, rest⟩ := bind_eq_some.mp rest
    obtain ⟨_, _, _, rest⟩ := bind_eq_some.mp rest
    obtain ⟨_, _, _, rest⟩ := bind_eq_some.mp rest
    obtain ⟨scan, heard, _, goes⟩ := bind_eq_some.mp rest
    obtain ⟨heeded, _⟩ := perform_eq_some.mp goes
    have unchanged := heed_answer config { selected with splashShown := true } scan heard
    rw [← heeded, answered] at unchanged
    exact ⟨true, unchanged⟩
  · obtain ⟨_, _, leaves, finished⟩ := bind_eq_some.mp rest
    obtain ⟨rfl, _⟩ := perform_eq_some.mp leaves
    cases finished
    exact ⟨false, answered⟩

theorem run_chooses {config : Config} {patience : Nat} {registry : Registry} {before after : σ}
    {session : Session} (ran : run config patience registry before = some (session, after))
    (chosen : session.operatorChoice = true) :
    ∃ (splashShown : Bool) (opened left : σ),
      let offered := { recovered registry (decision before) with splashShown }
      untilKey config patience registry before = some ((offered, .deviceList), opened) ∧
      deviceList config patience offered opened = some (session, left) ∧
      after = (finish session left).2 := by
  rw [run_eq] at ran
  obtain ⟨⟨offered, phase⟩, opened, opens, rest⟩ := bind_eq_some.mp ran
  obtain ⟨_, left, proceeds, rest⟩ := bind_eq_some.mp rest
  have answered := perform_bind_eq_some.mp rest
  cases answered
  obtain ⟨splashShown, rfl⟩ := untilKey_recovers opens
  cases phase with
  | deviceList => exact ⟨splashShown, opened, left, opens, proceeds, rfl⟩
  | paused =>
      have unchosen := paused_answer _ _ _ _ _ proceeds
      rw [unchosen] at chosen
      cases chosen
  | autoselect | countdown | awaitMenuKey | awaitSelection | done =>
      cases proceeds
      cases chosen

end BootFlow.Menu
