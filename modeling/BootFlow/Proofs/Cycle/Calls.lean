import BootFlow.Boot
import BootFlow.Proofs.Wait.Deadline

namespace BootFlow

open Clock Console Launcher Logging Machine Recorded Registers Waiting

/-! Whatever happens in a boot cycle, it makes calls of a few kinds only. It
polls no key, maps no drive, and changes no register but those of the boot
stage and the status light. -/

def Call.inCycle : Call → Bool
  | .writeRegister register _ =>
      [Register.bootStage, Register.ledDuty, Register.ledRate].contains register
  | .readClock _ | .idle _ | .print _ | .post _ | .reset | .halt => true
  | call => call.isAttempt

namespace Cycle

variable {σ : Type}

/-- What extends a record by calls of a boot cycle. -/
abbrev Continues : Recorded σ → Recorded σ → Prop := Extends fun call => call.inCycle = true

variable [Timeline σ]

theorem print_keeps [Console σ] (text : String) :
    (print text : Action (Recorded σ) Unit).Keeps Continues :=
  Extends.keeps (calls_print text) rfl

theorem post_keeps [Machine σ] (code : UInt8) :
    (post code : Action (Recorded σ) Unit).Keeps Continues :=
  Extends.keeps (calls_post code) rfl

theorem now_keeps [Clock σ] : (now : Action (Recorded σ) Nat).Keeps Continues :=
  Extends.keeps_answered .readClock calls_now fun _ => rfl

theorem idle_keeps [Clock σ] (budget : Option UInt32) :
    (idle budget : Action (Recorded σ) Unit).Keeps Continues :=
  Extends.keeps (calls_idle budget) rfl

theorem launch_keeps [Console σ] [Launcher σ] (cycle : Cycle) (entry : Entry) :
    (cycle.launch entry : Action (Recorded σ) Bool).Keeps Continues := by
  cases entry with
  | halt => exact .pure _
  | floppy =>
      exact (print_keeps _).bind fun _ =>
        .bind (Extends.keeps (calls_bootFloppy _) rfl) fun _ => .pure _
  | hardDisk id =>
      exact (print_keeps _).bind fun _ =>
        .bind (Extends.keeps (calls_bootHardDisk id) rfl) fun _ => .pure _
  | cdRom drive =>
      exact (print_keeps _).bind fun _ =>
        .bind (Extends.keeps (calls_bootCdRom drive) rfl) fun _ => .pure _
  | cbfs file =>
      exact (print_keeps _).bind fun _ =>
        .bind (Extends.keeps (calls_bootCbfs file) rfl) fun _ => .pure _
  | rom vector =>
      exact (print_keeps _).bind fun _ =>
        .bind (Extends.keeps (calls_bootRom vector) rfl) fun _ => .pure _

theorem announce_keeps [Registers σ] [Machine σ] [Logging σ] (entry : Entry) (position : Nat) :
    (announce entry position : Action (Recorded σ) Unit).Keeps Continues := by
  have stage : (Diagnostics.writeStage Stage.payload : Action (Recorded σ) Unit).Keeps Continues :=
    Extends.keeps (calls_writeRegister _ _) rfl
  exact (post_keeps _).bind fun _ => (post_keeps _).bind fun _ => (post_keeps _).bind fun _ =>
    (post_keeps _).bind fun _ => stage.bind fun _ => emit_keeps _ _

theorem attemptEntry_keeps [Registers σ] [Console σ] [Machine σ] [Launcher σ] [Logging σ]
    (cycle : Cycle) (entry : Entry) (position : Nat) :
    (cycle.attemptEntry entry position : Action (Recorded σ) Bool).Keeps Continues := by
  refine (announce_keeps entry position).bind fun _ => (cycle.launch_keeps entry).bind fun _ => ?_
  exact .ite (fun _ => (emit_keeps _ _).bind fun _ => .pure _) fun _ => .pure _

theorem bootFail_keeps [Clock σ] [Console σ] [Machine σ] [Logging σ] (cycle : Cycle)
    (patience : Nat) :
    (cycle.bootFail patience : Waiting (Recorded σ) BootError).Keeps Continues := by
  have announces : (announceFailure : Action (Recorded σ) Unit).Keeps Continues :=
    (post_keeps _).bind fun _ => emit_keeps _ _
  have parks : (park : Action (Recorded σ) Unit).Keeps Continues :=
    (print_keeps _).bind fun _ => Extends.keeps calls_halt rfl
  have retries (millis : UInt32) : (announceRetry millis : Action (Recorded σ) Deadline).Keeps Continues :=
    (print_keeps _).bind fun _ => Deadline.after_keeps now_keeps millis
  have restarts : (restart : Action (Recorded σ) Unit).Keeps Continues :=
    (print_keeps _).bind fun _ => Extends.keeps calls_reset rfl
  refine (Keeps.perform announces).bind fun _ => ?_
  cases cycle.retry with
  | never => exact (Keeps.perform parks).bind fun _ => .pure _
  | after millis =>
      refine (Keeps.perform (retries millis)).bind fun deadline => ?_
      have awaits : (deadline.await patience : Waiting (Recorded σ) Unit).Keeps Continues :=
        deadline.await_keeps now_keeps idle_keeps patience
      exact awaits.bind fun _ => (Keeps.perform restarts).bind fun _ => .pure _

variable [Registers σ] [Clock σ] [Console σ] [Machine σ] [Launcher σ] [Logging σ]

theorem attempt_keeps (cycle : Cycle) (patience position : Nat) :
    (cycle.attempt patience position : Waiting (Recorded σ) BootError).Keeps Continues := by
  unfold attempt
  cases cycle.sequence.entries[position]? with
  | none => exact cycle.bootFail_keeps patience
  | some entry =>
      refine (Keeps.perform (cycle.attemptEntry_keeps entry position)).bind fun returned => ?_
      cases returned with
      | true => exact .pure _
      | false => exact cycle.bootFail_keeps patience

theorem start_keeps (cycle : Cycle) (patience : Nat) :
    (cycle.start patience : Waiting (Recorded σ) (BootError × Nat)).Keeps Continues := by
  have lights : (lightStatus : Action (Recorded σ) Unit).Keeps Continues :=
    .bind (Extends.keeps (calls_writeRegister _ _) rfl) fun _ =>
      Extends.keeps (calls_writeRegister _ _) rfl
  exact (Keeps.perform lights).bind fun _ => (cycle.attempt_keeps patience _).bind fun _ => .pure _

theorem advance_keeps (cycle : Cycle) (patience cursor : Nat) :
    (cycle.advance patience cursor : Waiting (Recorded σ) (BootError × Nat)).Keeps Continues :=
  (Keeps.perform (post_keeps _)).bind fun _ => (cycle.attempt_keeps patience _).bind fun _ => .pure _

theorem advanceWhileRetryable_keeps (cycle : Cycle) (patience : Nat) (outcome : BootError × Nat)
    (advances : Nat) :
    (cycle.advanceWhileRetryable patience outcome advances :
      Waiting (Recorded σ) (BootError × Nat)).Keeps Continues := by
  induction advances generalizing outcome with
  | zero => exact .pure _
  | succ advances ih =>
      unfold advanceWhileRetryable
      split
      · exact (cycle.advance_keeps patience _).bind fun outcome => ih outcome
      · exact .pure _

theorem enter_keeps (cycle : Cycle) (patience cursor : Nat) (entrance : Entrance) :
    (cycle.enter patience cursor entrance : Waiting (Recorded σ) (BootError × Nat)).Keeps Continues := by
  cases entrance with
  | attempt position => exact (cycle.attempt_keeps patience position).bind fun _ => .pure _
  | start => exact cycle.start_keeps patience
  | advance => exact cycle.advance_keeps patience cursor
  | untilHandoff =>
      exact (cycle.start_keeps patience).bind fun outcome =>
        cycle.advanceWhileRetryable_keeps patience outcome _

end Cycle

end BootFlow
