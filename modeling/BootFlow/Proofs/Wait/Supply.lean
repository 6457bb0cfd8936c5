import BootFlow.Proofs.Wait.Keystroke

namespace BootFlow

open Clock Keyboard Waiting

/-! Where only so many keys are left and the clock goes on, a wait with a deadline ends, and
whoever waits again after each key does not wait for ever. -/

/-- A keyboard of which it can be known that no more than so many keys are left, beside a clock
that goes forward as long as that is known. -/
class KeySupply (σ : Type) [Keyboard σ] [Clock σ] where
  /-- No more than so many keys are left. -/
  Within : Nat → σ → Prop
  poll_within {keys : Nat} {state : σ} (within : Within keys state) : Within keys (pollKey state).2
  poll_spends {keys : Nat} {state : σ} (within : Within keys state) {scan : UInt8}
    (heard : (pollKey state).1 = some scan) : ∃ fewer < keys, Within fewer (pollKey state).2
  now_within {keys : Nat} {state : σ} (within : Within keys state) : Within keys (now state).2
  idle_within (budget : Option UInt32) {keys : Nat} {state : σ} (within : Within keys state) :
    Within keys (idle budget state).2
  now_le_now {keys : Nat} {state : σ} (within : Within keys state) : (now state).1 ≤ (now (now state).2).1
  now_le_poll {keys : Nat} {state : σ} (within : Within keys state) : (now state).1 ≤ (now (pollKey state).2).1
  now_lt_idle (budget : UInt32) {keys : Nat} {state : σ} (within : Within keys state) :
    (now state).1 < (now (idle (some budget) state).2).1

def Supplied {σ : Type} [Keyboard σ] [Clock σ] [KeySupply σ] (before after : σ) : Prop :=
  ∀ keys, KeySupply.Within keys before → KeySupply.Within keys after

namespace Keystroke

variable {σ : Type} [Keyboard σ] [Clock σ] [KeySupply σ] {keys : Nat} {before after : σ}

instance : IsPreorder σ Supplied where
  refl _ _ within := within
  trans _ _ _ first second keys within := second keys (first keys within)

/-- How a look at the keyboard can go while no more than so many keys are left. -/
inductive Uses (deadline : Deadline) (keys : Nat) (before : σ) : Turn → σ → Prop
  | key {scan : UInt8} {fewer : Nat} {after : σ} (spent : fewer < keys) (within : KeySupply.Within fewer after) :
      Uses deadline keys before (.key scan) after
  | timeUp {after : σ} (within : KeySupply.Within keys after) : Uses deadline keys before .timeUp after
  | idled {after : σ} (within : KeySupply.Within keys after)
      (closer : deadline.endMillis - (now after).1 < deadline.endMillis - (now before).1) :
      Uses deadline keys before .idled after

theorem turn_uses (deadline : Deadline) (within : KeySupply.Within keys before) :
    Uses deadline keys before (turn (some deadline) before).1 (turn (some deadline) before).2 := by
  have polled := KeySupply.poll_within within
  simp only [turn, Action.bind_apply]
  cases heard : (pollKey before).1 with
  | some scan =>
      obtain ⟨fewer, spent, left⟩ := KeySupply.poll_spends within heard
      exact .key spent left
  | none =>
      have looked := KeySupply.now_within polled
      by_cases passed : deadline.endMillis ≤ (now (pollKey before).2).1
      · simp only [Action.bind_apply, Deadline.idleOnce_passed passed]
        exact .timeUp looked
      · have lookedAgain := KeySupply.now_within looked
        simp only [Action.bind_apply, Deadline.idleOnce_ahead passed]
        refine .idled (KeySupply.idle_within _ lookedAgain) ?_
        have onPoll := KeySupply.now_le_poll within
        have onLook := KeySupply.now_le_now polled
        have onLookAgain := KeySupply.now_le_now looked
        have onIdle := KeySupply.now_lt_idle (deadline.left (now (now (pollKey before).2).2).1) lookedAgain
        dsimp only [Action.pure_apply]
        omega

theorem awaitBy_returns {deadline : Deadline} (within : KeySupply.Within keys before) :
    Returns (awaitBy (some deadline)) before := by
  -- By induction on the time that is left: each turn but the last one uses some of it up.
  generalize left : deadline.endMillis - (now before).1 = rest
  induction rest using Nat.strongRecOn generalizing before with
  | ind rest ih =>
      have uses := turn_uses deadline within
      refine .of_succ (.perform_bind ?_)
      generalize turn (some deadline) before = turned at uses
      obtain ⟨answer, middle⟩ := turned
      cases uses with
      | key _ _ => exact .pure _ _
      | timeUp _ => exact .pure _ _
      | idled within closer => exact ih _ (left ▸ closer) within rfl

theorem awaitBy_spends {deadline : Deadline} {patience : Nat} {scan : Option UInt8}
    (within : KeySupply.Within keys before)
    (ended : awaitBy (some deadline) patience before = some (scan, after)) :
    ∃ fewer, fewer + scan.toList.length ≤ keys ∧ KeySupply.Within fewer after := by
  induction patience generalizing before with
  | zero => cases ended
  | succ patience ih =>
      have uses := turn_uses deadline within
      rw [awaitBy_succ] at ended
      generalize turn (some deadline) before = turned at uses ended
      obtain ⟨answer, middle⟩ := turned
      cases uses with
      | key spent left =>
          cases ended
          exact ⟨_, spent, left⟩
      | timeUp within =>
          cases ended
          exact ⟨keys, Nat.le_refl _, within⟩
      | idled within _ => exact ih within ended

theorem await_returns (millis : UInt32) (within : KeySupply.Within keys before) :
    Returns (fun patience => await patience (.millis millis)) before :=
  .perform_bind (awaitBy_returns (KeySupply.now_within within))

theorem await_spends {patience : Nat} {millis : UInt32} {scan : Option UInt8} (within : KeySupply.Within keys before)
    (ended : await patience (.millis millis) before = some (scan, after)) :
    ∃ fewer, fewer + scan.toList.length ≤ keys ∧ KeySupply.Within fewer after := by
  have rest := perform_bind_eq_some.mp ended
  exact awaitBy_spends (KeySupply.now_within within) rest

theorem drain_returns (within : KeySupply.Within keys before) : Returns drain before := by
  suffices rounds : ReturnsInRounds drainUpTo before from rounds.returns
  induction keys using Nat.strongRecOn generalizing before with
  | ind keys ih =>
      refine .of_succ (.bind (await_returns 0 within) fun scan middle settles => ?_)
      obtain ⟨patience, ended⟩ := settles.ends
      obtain ⟨fewer, spent, left⟩ := await_spends within ended
      cases scan with
      | none => exact (Returns.pure _ _).inRounds
      | some scan =>
          -- A key was heard, so there is one less for the other rounds.
          exact ih fewer spent left

end Keystroke

end BootFlow
