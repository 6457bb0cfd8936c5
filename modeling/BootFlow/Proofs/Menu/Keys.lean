import BootFlow.Proofs.Menu.Stages

namespace BootFlow

open Clock Console Keyboard Logging Machine Registers Waiting

/-! An operator chooses by pressing a key. So what can be chosen depends on the keys that the
keyboard has. -/

variable {σ : Type} [Keyboard σ] [Clock σ]

def HeardAmong (keys : UInt8 → Prop) (scan : Option UInt8) : Prop :=
  ∀ code, scan = some code → keys code

/-- The keyboard has these keys only. -/
def KeysAmong (σ : Type) [Keyboard σ] (keys : UInt8 → Prop) : Prop :=
  (pollKey : Action σ (Option UInt8)).Answers (HeardAmong keys)

variable {keys : UInt8 → Prop} (polls : KeysAmong σ keys)

include polls

namespace Keystroke

theorem turn_hears (deadline : Option Deadline) :
    (turn deadline : Action σ Turn).Answers fun turned => ∀ code, turned = .key code → keys code := by
  intro state code turned
  simp only [turn, Action.bind_apply] at turned
  cases heard : (pollKey state).1 with
  | some scan =>
      rw [heard] at turned
      cases turned
      exact polls state code heard
  | none =>
      rw [heard] at turned
      cases deadline with
      | none => cases turned
      | some deadline =>
          simp only [Action.bind_apply, Action.pure_apply] at turned
          split at turned <;> cases turned

theorem awaitBy_hears (deadline : Option Deadline) (patience : Nat) :
    (awaitBy deadline patience : Waiting σ (Option UInt8)).Answers (HeardAmong keys) := by
  induction patience with
  | zero => exact .outOfPatience
  | succ patience ih =>
      refine .bind (.perform (turn_hears polls deadline)) fun turned among => ?_
      cases turned with
      | key scan =>
          refine .pure ?_
          rintro _ ⟨rfl⟩
          exact among scan rfl
      | timeUp => exact .pure nofun
      | idled => exact ih

theorem await_hears (patience : Nat) (timeout : Timeout) :
    (await patience timeout : Waiting σ (Option UInt8)).Answers (HeardAmong keys) := by
  cases timeout with
  | forever => exact awaitBy_hears polls none patience
  | millis count => exact .after fun deadline => awaitBy_hears polls (some deadline) patience

end Keystroke

namespace Menu

variable [Console σ]

theorem awaitKey_hears (patience : Nat) (timeout : Timeout) :
    (awaitKey patience timeout : Waiting σ (Option UInt8)).Answers (HeardAmong keys) :=
  .after fun _ => .bind (Keystroke.await_hears polls patience timeout) fun _ among => .after fun _ => .pure among

omit polls [Keyboard σ] [Console σ] in
theorem reply_chooses (escapeFrom : Deadline) (count : Nat) (scan : UInt8) :
    (reply escapeFrom count scan : Action σ Reply).Answers fun reply => ∀ position, reply = .choose position →
      scan ≠ ScanCode.enter ∧ position = ScanCode.position (ScanCode.digitOfFunctionKey scan) := by
  intro state position chooses
  obtain ⟨other, _, _, same⟩ := reply_choose_iff.mp chooses
  exact ⟨other, same⟩

/-- How a session is left that is not paused: as it is, or with the position that one of the keys
gives. -/
inductive Session.Replied (keys : UInt8 → Prop) (session : Session) : Session → Prop
  | kept : Replied keys session session
  | chosen {scan : UInt8} (among : keys scan) (other : scan ≠ ScanCode.enter) :
      Replied keys session
        { session with
          registry := session.registry.promote (ScanCode.position (ScanCode.digitOfFunctionKey scan))
          selection := ScanCode.position (ScanCode.digitOfFunctionKey scan)
          rule := none
          operatorChoice := true }

theorem awaitSelection_replied (config : Config) (patience : Nat) (escapeFrom : Deadline) (session : Session)
    (rounds : Nat) :
    (awaitSelection config patience escapeFrom session rounds : Waiting σ Session).Answers
      (session.Replied keys) := by
  induction rounds with
  | zero => exact .outOfPatience
  | succ rounds ih =>
      refine .bind (awaitKey_hears polls patience _) fun scan among => ?_
      cases scan with
      | none => exact .pure .kept
      | some scan =>
          refine .bind (.perform (reply_chooses escapeFrom _ scan)) fun reply chooses => ?_
          cases reply with
          | keep => exact .after fun _ => .pure .kept
          | choose position =>
              obtain ⟨other, rfl⟩ := chooses position rfl
              refine .after fun _ => .perform fun state => ?_
              rw [choose_answer]
              exact .chosen (among scan rfl) other
          | ignore => exact ih

variable [Logging σ]

theorem deviceList_replied (config : Config) (patience : Nat) (session : Session) :
    (deviceList config patience session : Waiting σ Session).Answers (session.Replied keys) :=
  .after fun _ => .after fun _ => .after fun _ =>
    .bind (awaitSelection_replied polls _ _ _ session _) fun _ replied => .perform fun _ => replied

variable [Registers σ]

/-- A run that the first key does not pause leaves what recovery selected, or what one of the
keys chose. -/
theorem run_replied [Machine σ] {config : Config} {patience : Nat} {registry : Registry} {before after : σ}
    {session : Session} (ran : run config patience registry before = some (session, after))
    (unpaused : ∀ offered phase opened,
      untilKey config patience registry before = some ((offered, phase), opened) → phase ≠ .paused) :
    ∃ splashShown, { recovered registry (decision before) with splashShown }.Replied keys session := by
  rw [run_eq] at ran
  obtain ⟨⟨offered, phase⟩, opened, opens, rest⟩ := bind_eq_some.mp ran
  obtain ⟨_, left, proceeds, rest⟩ := bind_eq_some.mp rest
  obtain ⟨_, _, _, answered⟩ := bind_eq_some.mp rest
  cases answered
  obtain ⟨splashShown, rfl⟩ := untilKey_recovers opens
  refine ⟨splashShown, ?_⟩
  cases phase with
  | paused => exact absurd rfl (unpaused _ _ _ opens)
  | deviceList => exact deviceList_replied polls _ _ _ _ _ _ proceeds
  | autoselect | countdown | awaitMenuKey | awaitSelection | done =>
      cases proceeds
      exact .kept

end Menu

end BootFlow
