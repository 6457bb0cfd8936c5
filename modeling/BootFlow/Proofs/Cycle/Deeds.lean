import BootFlow.Boot
import BootFlow.Proofs.Wait.Deadline

namespace BootFlow

open Clock Console Launcher Logging Machine Registers Waiting

/-! What a boot cycle does to the machine is told by its deeds, which are all its calls but
the texts it prints, its looks at the clock and its idles. What an attempt does depends on
the entry at its position and on nothing else. -/

/-- The call that boots an entry. The stop mark has none. -/
def Cycle.attemptCall? (cycle : Cycle) : Entry → Option Call
  | .floppy => some (.bootFloppy cycle.checkFloppySignature)
  | .hardDisk id => some (.bootHardDisk id)
  | .cdRom drive => some (.bootCdRom drive)
  | .cbfs file => some (.bootCbfs file)
  | .rom vector => some (.bootRom vector)
  | .halt => none

/-- How a cycle ends that nothing took over. -/
def RetryPolicy.lastCall : RetryPolicy → Call
  | .after _ => .reset
  | .never => .halt

def Call.isDeed : Call → Bool
  | .print _ => false
  | call => !call.isQuiet

namespace Recorded

variable {σ : Type} {before after : Recorded σ} {call : Call}

def deeds (recorded : Recorded σ) : List Call :=
  recorded.calls.filter Call.isDeed

theorem deeds_untold (made : after.calls = before.calls ++ [call]) (untold : call.isDeed = false) :
    after.deeds = before.deeds := by
  have nothing : [call].filter Call.isDeed = [] := by simp [untold]
  rw [deeds, made, List.filter_append, nothing, List.append_nil, deeds]

theorem deeds_done (made : after.calls = before.calls ++ [call]) (deed : call.isDeed = true) :
    after.deeds = before.deeds ++ [call] := by
  have itself : [call].filter Call.isDeed = [call] := by simp [deed]
  rw [deeds, made, List.filter_append, itself, deeds]

theorem filter_isDeed {trace more : List Call} (continued : after.calls = before.calls ++ trace)
    (did : after.deeds = before.deeds ++ more) : trace.filter Call.isDeed = more := by
  rw [deeds, continued, List.filter_append] at did
  exact List.append_cancel_left did

end Recorded

/-- A selection may as well be made after one that leaves out none of the selected. -/
theorem Call.filter_filter {told selected : Call → Bool} (trace : List Call)
    (telling : ∀ call, selected call = true → told call = true) :
    (trace.filter told).filter selected = trace.filter selected := by
  rw [List.filter_filter]
  refine List.filter_congr fun call _ => ?_
  cases chosen : selected call with
  | false => rfl
  | true => rw [telling call chosen]; rfl

namespace Cycle

variable {σ : Type}

section

variable [Clock σ] [Console σ] [Machine σ] [Logging σ] {cycle : Cycle} {before after : σ}

theorem bootFail_never (patience : Nat) (before : σ) (retry : cycle.retry = .never) :
    cycle.bootFail patience before =
      some (.sequenceExhausted, (park (announceFailure before).2).2) := by
  simp only [bootFail, retry, Waiting.bind_apply, perform_apply, Option.bind_some,
    Waiting.pure_apply]

theorem bootFail_after {millis : UInt32} (patience : Nat) (before : σ)
    (retry : cycle.retry = .after millis) :
    cycle.bootFail patience before =
      ((announceRetry millis (announceFailure before).2).1.await patience
        (announceRetry millis (announceFailure before).2).2).map
          fun waited => (.sequenceExhausted, (restart waited.2).2) := by
  simp only [bootFail, retry, Waiting.bind_apply, perform_apply, Option.bind_some,
    Waiting.pure_apply]
  cases (announceRetry millis (announceFailure before).2).1.await patience
    (announceRetry millis (announceFailure before).2).2 <;> rfl

theorem bootFail_error {patience : Nat} {error : BootError}
    (failed : cycle.bootFail patience before = some (error, after)) :
    error = .sequenceExhausted := by
  cases retry : cycle.retry with
  | never =>
      rw [bootFail_never patience before retry] at failed
      cases failed
      rfl
  | after millis =>
      rw [bootFail_after patience before retry] at failed
      obtain ⟨_, _, ended⟩ := Option.map_eq_some_iff.mp failed
      cases ended
      rfl

theorem bootFail_settles_after {millis : UInt32} {waited : σ} (retry : cycle.retry = .after millis)
    (awaited : Settles (announceRetry millis (announceFailure before).2).1.await
      (announceRetry millis (announceFailure before).2).2 () waited) :
    Settles cycle.bootFail before .sequenceExhausted (restart waited).2 := by
  obtain ⟨enough, settled⟩ := awaited
  refine ⟨enough, fun patience bound => ?_⟩
  rw [bootFail_after patience before retry, settled patience bound]
  rfl

theorem bootFail_settles [AdvancingClock σ] (cycle : Cycle) (before : σ) :
    ∃ after, Settles cycle.bootFail before .sequenceExhausted after := by
  cases retry : cycle.retry with
  | never => exact ⟨_, 0, fun patience _ => bootFail_never patience before retry⟩
  | after millis =>
      let announced := announceRetry millis (announceFailure before).2
      obtain ⟨waited, awaited⟩ := announced.1.await_settles announced.2
      exact ⟨_, bootFail_settles_after retry awaited⟩

end

theorem attemptEntry_returned [Registers σ] [Console σ] [Machine σ] [Launcher σ] [Logging σ]
    (cycle : Cycle) (entry : Entry) (position : Nat) (before : σ) :
    (cycle.attemptEntry entry position before).1 = (entry != .halt) := by
  cases entry <;> rfl

section

variable [Registers σ] [Clock σ] [Console σ] [Machine σ] [Launcher σ] [Logging σ]
  {cycle : Cycle} {position : Nat} {entry : Entry} {before : σ}

theorem attempt_entry (patience : Nat) (found : cycle.sequence.entries[position]? = some entry)
    (bootable : entry ≠ .halt) :
    cycle.attempt patience position before =
      some (.attemptReturned, (cycle.attemptEntry entry position before).2) := by
  have returned := cycle.attemptEntry_returned entry position before
  simp only [attempt, found, Waiting.bind_apply, perform_apply, Option.bind_some, returned,
    bne_iff_ne, ne_eq, bootable, not_false_eq_true, if_true, Waiting.pure_apply]

theorem attempt_halt (patience : Nat) (found : cycle.sequence.entries[position]? = some .halt) :
    cycle.attempt patience position before =
      cycle.bootFail patience (cycle.attemptEntry .halt position before).2 := by
  have returned := cycle.attemptEntry_returned .halt position before
  simp only [attempt, found, Waiting.bind_apply, perform_apply, Option.bind_some, returned,
    bne_self_eq_false, Bool.false_eq_true, if_false]

theorem attempt_behind (patience : Nat) (behind : cycle.sequence.entries[position]? = none) :
    cycle.attempt patience position before = cycle.bootFail patience before := by
  simp only [attempt, behind]

theorem attempt_returns [AdvancingClock σ] (cycle : Cycle) (position : Nat) (before : σ) :
    Returns (fun patience => cycle.attempt patience position) before := by
  have failing (state : σ) : Returns cycle.bootFail state := by
    obtain ⟨after, settles⟩ := cycle.bootFail_settles state
    exact ⟨.sequenceExhausted, after, settles⟩
  unfold attempt
  cases cycle.sequence.entries[position]? with
  | none => exact failing before
  | some entry =>
      apply Returns.perform_bind
      cases (cycle.attemptEntry entry position before).1 with
      | true => exact .pure _ _
      | false => exact failing _

end

/-- What goes before every attempt, at a stop mark too. -/
def announcement (entry : Entry) (position : Nat) : List Call :=
  [.post Progress.attemptBegin, .post (UInt8.ofNat position), .post entry.kind.code,
    .post Progress.attemptEnd, .writeRegister Register.bootStage Stage.payload]

def failure (cycle : Cycle) : List Call :=
  [.post Progress.bootFail, cycle.retry.lastCall]

/-- The call that boots what is at a position. -/
def attemptAt? (cycle : Cycle) (position : Nat) : Option Call :=
  cycle.sequence.entries[position]?.bind cycle.attemptCall?

/-- What an attempt at a position comes to. -/
def errorAt (cycle : Cycle) (position : Nat) : BootError :=
  if (cycle.attemptAt? position).isSome then .attemptReturned else .sequenceExhausted

/-- What an attempt at a position does. -/
def deedsAt (cycle : Cycle) (position : Nat) : List Call :=
  (cycle.sequence.entries[position]?.elim [] fun entry => announcement entry position) ++
    (cycle.attemptAt? position).elim cycle.failure fun call => [call]

theorem attemptCall?_eq_none {cycle : Cycle} {entry : Entry} :
    cycle.attemptCall? entry = none ↔ entry = .halt := by
  cases entry <;> simp [attemptCall?]

/-- A position is behind the entries, at a stop mark, or at an entry that can be tried. -/
theorem position_cases (cycle : Cycle) (position : Nat) :
    (cycle.sequence.entries[position]? = none ∧ cycle.attemptAt? position = none) ∨
      (cycle.sequence.entries[position]? = some .halt ∧ cycle.attemptAt? position = none) ∨
      ∃ entry call, cycle.sequence.entries[position]? = some entry ∧ entry ≠ .halt ∧
        cycle.attemptCall? entry = some call ∧ cycle.attemptAt? position = some call := by
  cases found : cycle.sequence.entries[position]? with
  | none => exact .inl ⟨rfl, by simp [attemptAt?, found]⟩
  | some entry =>
      cases boots : cycle.attemptCall? entry with
      | none =>
          cases attemptCall?_eq_none.mp boots
          exact .inr (.inl ⟨rfl, by simp [attemptAt?, found, boots]⟩)
      | some call =>
          have bootable : entry ≠ .halt := fun mark => by
            rw [attemptCall?_eq_none.mpr mark] at boots
            cases boots
          exact .inr (.inr ⟨entry, call, rfl, bootable, boots, by simp [attemptAt?, found, boots]⟩)

section

variable [Timeline σ] {position : Nat} {cycle : Cycle}

section

variable [Registers σ] [Machine σ] [Logging σ]

theorem calls_announce (entry : Entry) (position : Nat) (before : Recorded σ) :
    (announce entry position before).2.calls = before.calls ++ announcement entry position := by
  simp only [announce, announcement, Diagnostics.writeStage, Action.bind_apply, Recorded.calls_emit,
    Recorded.calls_writeRegister, Recorded.calls_post, List.append_assoc, List.cons_append,
    List.nil_append]

theorem deeds_announce (entry : Entry) (position : Nat) (before : Recorded σ) :
    (announce entry position before).2.deeds = before.deeds ++ announcement entry position := by
  rw [Recorded.deeds, calls_announce, List.filter_append]
  rfl

end

theorem deeds_print_then [Console σ] {action : Action (Recorded σ) Unit} {call : Call}
    (made : ∀ recorded, (action recorded).2.calls = recorded.calls ++ [call])
    (deed : call.isDeed = true) (text : String) (before : Recorded σ) :
    (action (print text before).2).2.deeds = before.deeds ++ [call] := by
  rw [Recorded.deeds_done (made _) deed, Recorded.deeds_untold (Recorded.calls_print text before) rfl]

theorem deeds_launch [Console σ] [Launcher σ] (cycle : Cycle) (entry : Entry) (before : Recorded σ) :
    (cycle.launch entry before).2.deeds = before.deeds ++ (cycle.attemptCall? entry).toList := by
  cases entry with
  | floppy => exact deeds_print_then (Recorded.calls_bootFloppy _) rfl _ before
  | hardDisk id => exact deeds_print_then (Recorded.calls_bootHardDisk id) rfl _ before
  | cdRom drive => exact deeds_print_then (Recorded.calls_bootCdRom drive) rfl _ before
  | cbfs file => exact deeds_print_then (Recorded.calls_bootCbfs file) rfl _ before
  | rom vector => exact deeds_print_then (Recorded.calls_bootRom vector) rfl _ before
  | halt => exact (List.append_nil _).symm

section

variable [Registers σ] [Console σ] [Machine σ] [Launcher σ] [Logging σ]

theorem calls_attemptEntry (cycle : Cycle) (entry : Entry) (position : Nat) (before : Recorded σ) :
    (cycle.attemptEntry entry position before).2.calls =
      (cycle.launch entry (announce entry position before).2).2.calls := by
  cases entry <;> rfl

theorem deeds_attemptEntry (cycle : Cycle) (entry : Entry) (position : Nat) (before : Recorded σ) :
    (cycle.attemptEntry entry position before).2.deeds =
      before.deeds ++ announcement entry position ++ (cycle.attemptCall? entry).toList := by
  rw [Recorded.deeds, calls_attemptEntry, ← Recorded.deeds, deeds_launch, deeds_announce]

end

theorem calls_lightStatus [Registers σ] (before : Recorded σ) :
    (lightStatus before).2.calls = before.calls ++
      [.writeRegister Register.ledDuty Field.ledGreenBlink,
        .writeRegister Register.ledRate Field.ledTwoHertz] := by
  simp [lightStatus, Action.bind_apply]

theorem deeds_lightStatus [Registers σ] (before : Recorded σ) :
    (lightStatus before).2.deeds = before.deeds ++
      [.writeRegister Register.ledDuty Field.ledGreenBlink,
        .writeRegister Register.ledRate Field.ledTwoHertz] := by
  rw [Recorded.deeds, calls_lightStatus, List.filter_append]
  rfl

theorem deeds_await [Clock σ] {deadline : Deadline} {patience : Nat} {before after : Recorded σ}
    (waited : deadline.await patience before = some ((), after)) : after.deeds = before.deeds := by
  have extended : Recorded.Extends (fun call => call.isQuiet = true) before after :=
    deadline.await_keeps (fun recorded => .of_call (Recorded.calls_now recorded) rfl)
      (fun _ recorded => .of_call (Recorded.calls_idle _ recorded) rfl) patience _ _ _ waited
  refine extended.filter_calls fun call quiet => ?_
  cases call <;> first | rfl | cases quiet

theorem deeds_announceFailure [Machine σ] [Logging σ] (before : Recorded σ) :
    (announceFailure before).2.deeds = before.deeds ++ [.post Progress.bootFail] :=
  Recorded.deeds_done (Recorded.calls_post Progress.bootFail before) rfl

theorem deeds_announceRetry [Clock σ] [Console σ] (millis : UInt32) (before : Recorded σ) :
    (announceRetry millis before).2.deeds = before.deeds := by
  refine (Recorded.deeds_untold (Recorded.calls_now _) rfl).trans ?_
  exact Recorded.deeds_untold (Recorded.calls_print _ before) rfl

theorem deeds_bootFail [Clock σ] [Console σ] [Machine σ] [Logging σ] {patience : Nat}
    {error : BootError} {before after : Recorded σ}
    (failed : cycle.bootFail patience before = some (error, after)) :
    after.deeds = before.deeds ++ cycle.failure := by
  have announced := deeds_announceFailure before
  cases retry : cycle.retry with
  | never =>
      rw [bootFail_never patience before retry] at failed
      cases failed
      have parked := deeds_print_then Recorded.calls_halt rfl "No bootable device.\n" (announceFailure before).2
      refine parked.trans ?_
      rw [announced, List.append_assoc, failure, retry]
      rfl
  | after millis =>
      rw [bootFail_after patience before retry] at failed
      obtain ⟨⟨_, waited⟩, awaited, ended⟩ := Option.map_eq_some_iff.mp failed
      cases ended
      refine (deeds_print_then Recorded.calls_reset rfl "Rebooting.\n" waited).trans ?_
      rw [deeds_await awaited, deeds_announceRetry, announced, List.append_assoc, failure, retry]
      rfl

section

variable [Registers σ] [Clock σ] [Console σ] [Machine σ] [Launcher σ] [Logging σ]

/-- An attempt that came to an end did what its position asks for, and nothing else. -/
theorem deeds_attempt {patience : Nat} {error : BootError} {before after : Recorded σ}
    (attempted : cycle.attempt patience position before = some (error, after)) :
    error = cycle.errorAt position ∧ after.deeds = before.deeds ++ cycle.deedsAt position := by
  rcases cycle.position_cases position with
    ⟨behind, untried⟩ | ⟨halts, untried⟩ | ⟨entry, call, found, bootable, boots, tried⟩
  · rw [attempt_behind patience behind] at attempted
    rw [bootFail_error attempted, deeds_bootFail attempted]
    simp [errorAt, deedsAt, behind, untried]
  · rw [attempt_halt patience halts] at attempted
    rw [bootFail_error attempted, deeds_bootFail attempted, deeds_attemptEntry]
    simp [errorAt, deedsAt, halts, untried, attemptCall?]
  · rw [attempt_entry patience found bootable] at attempted
    cases attempted
    rw [deeds_attemptEntry, boots]
    simp [errorAt, deedsAt, found, tried]

end

end

end Cycle

end BootFlow
