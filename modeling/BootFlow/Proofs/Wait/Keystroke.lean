import BootFlow.Proofs.Wait.Deadline
import BootFlow.Wait

namespace BootFlow.Keystroke

open Clock Keyboard Waiting

/-! A wait for a key looks at the keyboard and the clock, and idles. -/

theorem awaitBy_succ {σ : Type} [Keyboard σ] [Clock σ] (deadline : Option Deadline) (patience : Nat)
    (state : σ) :
    awaitBy deadline (patience + 1) state =
      match (turn deadline state).1 with
      | .key scan => some (some scan, (turn deadline state).2)
      | .timeUp => some (none, (turn deadline state).2)
      | .idled => awaitBy deadline patience (turn deadline state).2 := by
  simp only [awaitBy, Waiting.bind_apply, perform_apply, Option.bind_some]
  cases (turn deadline state).1 <;> rfl

variable {σ : Type} [Keyboard σ] [Clock σ] {relation : σ → σ → Prop} [IsPreorder σ relation]
  (polls : (pollKey : Action σ (Option UInt8)).Keeps relation)
  (reads : (now : Action σ Nat).Keeps relation)
  (idles : ∀ budget, (idle budget : Action σ Unit).Keeps relation)

include polls reads idles

theorem turn_keeps (deadline : Option Deadline) : (turn deadline : Action σ Turn).Keeps relation := by
  refine polls.bind fun scan => ?_
  cases scan with
  | some scan => exact .pure _
  | none =>
      cases deadline with
      | none => exact (idles none).bind fun _ => .pure _
      | some deadline =>
          exact (Deadline.idleOnce_keeps reads idles deadline).bind fun passed => .pure _

theorem awaitBy_keeps (deadline : Option Deadline) (patience : Nat) :
    (awaitBy deadline patience : Waiting σ (Option UInt8)).Keeps relation := by
  induction patience with
  | zero => exact .outOfPatience
  | succ patience ih =>
      refine .bind (.perform (turn_keeps polls reads idles deadline)) fun turn => ?_
      cases turn with
      | key scan => exact .pure _
      | timeUp => exact .pure _
      | idled => exact ih

theorem await_keeps (patience : Nat) (timeout : Timeout) :
    (await patience timeout : Waiting σ (Option UInt8)).Keeps relation := by
  cases timeout with
  | forever => exact awaitBy_keeps polls reads idles none patience
  | millis count =>
      exact .bind (.perform (Deadline.after_keeps reads count)) fun deadline =>
        awaitBy_keeps polls reads idles (some deadline) patience

theorem drainUpTo_keeps (patience keys : Nat) :
    (drainUpTo patience keys : Waiting σ Unit).Keeps relation := by
  induction keys with
  | zero => exact .outOfPatience
  | succ keys ih =>
      refine .bind (await_keeps polls reads idles patience (.millis 0)) fun scan => ?_
      cases scan with
      | some scan => exact ih
      | none => exact .pure _

theorem drain_keeps (patience : Nat) : (drain patience : Waiting σ Unit).Keeps relation :=
  drainUpTo_keeps polls reads idles patience patience

end BootFlow.Keystroke
