import BootFlow.Proofs.Cycle.Calls
import BootFlow.Proofs.Cycle.Milestones
import BootFlow.Proofs.Sequence.Stop

namespace BootFlow

open Clock Console Launcher Logging Machine Registers Waiting

/-! A cycle that nothing takes over passes its entries one by one up to the
first stop mark, or all of them, and then fails. Where it stands is the cursor
plus the entries that are still to come before the mark. -/

namespace Cycle

variable {σ : Type} [Registers σ] [Clock σ] [Console σ] [Machine σ] [Launcher σ] [Logging σ]
  {cycle : Cycle}

/-- Attempts the entry at a position and goes on from there. -/
def runFrom (cycle : Cycle) (patience position advances : Nat) : Waiting σ (BootError × Nat) := do
  cycle.advanceWhileRetryable patience (← cycle.attempt patience position, position) advances

theorem advanceWhileRetryable_exhausted (patience cursor advances : Nat) (state : σ) :
    cycle.advanceWhileRetryable patience (.sequenceExhausted, cursor) advances state =
      some ((.sequenceExhausted, cursor), state) := by
  cases advances <;> rfl

theorem advanceWhileRetryable_returned (patience cursor advances : Nat) (state : σ) :
    cycle.advanceWhileRetryable patience (.attemptReturned, cursor) (advances + 1) state =
      cycle.runFrom patience (cursor + 1) advances (post Progress.advance state).2 := by
  simp only [advanceWhileRetryable, advance, runFrom, BootError.retryable, reduceIte,
    Waiting.bind_apply, perform_apply, Option.bind_some, Option.bind_assoc, Waiting.pure_apply]

theorem runUntilHandoff_apply (patience : Nat) (state : σ) :
    cycle.runUntilHandoff patience state =
      cycle.runFrom patience initialCursor cycle.sequence.entries.length (lightStatus state).2 := by
  simp only [runUntilHandoff, start, runFrom, Waiting.bind_apply, perform_apply, Option.bind_some,
    Option.bind_assoc, Waiting.pure_apply]

theorem runFrom_entry {position : Nat} {entry : Entry}
    (found : cycle.sequence.entries[position]? = some entry) (bootable : entry ≠ .halt)
    (patience advances : Nat) (state : σ) :
    cycle.runFrom patience position (advances + 1) state =
      cycle.runFrom patience (position + 1) advances
        (post Progress.advance (cycle.attemptEntry entry position state).2).2 := by
  rw [← advanceWhileRetryable_returned, runFrom, Waiting.bind_apply,
    attempt_entry patience found bootable, Option.bind_some]

theorem runFrom_failing {position patience : Nat} {before failing : σ}
    (fails : cycle.attempt patience position before = cycle.bootFail patience failing)
    (advances : Nat) :
    cycle.runFrom patience position advances before =
      (cycle.bootFail patience failing).map fun ended => ((ended.1, position), ended.2) := by
  rw [runFrom, Waiting.bind_apply, fails]
  cases failed : cycle.bootFail patience failing with
  | none => rfl
  | some ended =>
      obtain ⟨error, after⟩ := ended
      cases bootFail_error failed
      rw [Option.bind_some, advanceWhileRetryable_exhausted]
      rfl

end Cycle

namespace Cycle

variable {σ : Type} [Timeline σ]

variable [Registers σ] [Clock σ] [Console σ] [Machine σ] [Launcher σ] [Logging σ]

/-- At the stop mark and behind the last entry the failure path begins, with
nothing attempted. -/
theorem attempt_stopped (cycle : Cycle) {position : Nat} (before : Recorded σ)
    (stopped : ∀ entry, cycle.sequence.entries[position]? = some entry → entry = .halt) :
    ∃ failing : Recorded σ, failing.milestones = before.milestones ∧
      ∀ patience, cycle.attempt patience position before = cycle.bootFail patience failing := by
  cases found : cycle.sequence.entries[position]? with
  | none => exact ⟨before, rfl, fun patience => attempt_behind patience found⟩
  | some entry =>
      cases stopped entry found
      have shown := Sequence.position_le_capacity found
      refine ⟨(cycle.attemptEntry .halt position before).2, ?_, fun patience => attempt_halt patience found⟩
      rw [milestones_attemptEntry cycle .halt shown]
      exact List.append_nil _

/-- The run from a position passes the entries that are still to come, one turn
for each, and fails behind them. -/
theorem runFrom_passes (cycle : Cycle) (coming : List Entry) (position advances : Nat)
    (before : Recorded σ)
    (bootable : ∀ entry ∈ coming, entry ≠ .halt)
    (here : ∀ index entry, coming[index]? = some entry →
      cycle.sequence.entries[position + index]? = some entry)
    (stopped : ∀ entry, cycle.sequence.entries[position + coming.length]? = some entry → entry = .halt)
    (enough : coming.length ≤ advances) :
    ∃ failing : Recorded σ, failing.milestones = before.milestones ++ coming.flatMap cycle.passed ∧
      ∀ patience, cycle.runFrom patience position advances before =
        (cycle.bootFail patience failing).map
          fun ended => ((ended.1, position + coming.length), ended.2) := by
  -- On the entries to come: the position and the advances left move along with them.
  induction coming generalizing position advances before with
  | nil =>
      obtain ⟨failing, unchanged, fails⟩ := cycle.attempt_stopped before stopped
      refine ⟨failing, ?_, fun patience => runFrom_failing (fails patience) advances⟩
      rw [unchanged, List.flatMap_nil, List.append_nil]
  | cons entry coming ih =>
      obtain ⟨advances, rfl⟩ := Nat.exists_eq_add_of_le' (Nat.le_of_add_left_le enough)
      have found : cycle.sequence.entries[position]? = some entry := here 0 entry rfl
      have shown := Sequence.position_le_capacity found
      let attempted := (cycle.attemptEntry entry position before).2
      let advanced := (post Progress.advance attempted).2
      have passes : advanced.milestones = before.milestones ++ cycle.passed entry := by
        rw [milestones_advance, milestones_attemptEntry cycle entry shown, List.append_assoc, passed]
      have behind : position + 1 + coming.length = position + (coming.length + 1) := by omega
      obtain ⟨failing, reached, fails⟩ := ih (position + 1) advances advanced
        (fun entry member => bootable entry (List.mem_cons_of_mem _ member))
        (fun index entry comes => by
          have there := here (index + 1) entry comes
          rwa [show position + 1 + index = position + (index + 1) by omega])
        (by rwa [behind])
        (Nat.le_of_succ_le_succ enough)
      refine ⟨failing, ?_, fun patience => ?_⟩
      · rw [reached, passes, List.append_assoc, List.flatMap_cons]
      · rw [runFrom_entry found (bootable entry (List.mem_cons_self ..)), fails patience, behind]
        rfl

theorem runUntilHandoff_passes (cycle : Cycle) (before : Recorded σ) :
    ∃ failing : Recorded σ,
      failing.milestones = before.milestones ++
        cycle.sequence.tried.flatMap cycle.passed ∧
      ∀ patience, cycle.runUntilHandoff patience before =
        (cycle.bootFail patience failing).map
          fun ended => ((ended.1, cycle.sequence.stop), ended.2) := by
  have length := cycle.sequence.length_tried
  obtain ⟨failing, reached, fails⟩ := cycle.runFrom_passes cycle.sequence.tried initialCursor
    cycle.sequence.entries.length (lightStatus before).2
    (fun entry member => Sequence.bootable_of_mem_tried member)
    (fun index entry comes => by
      obtain ⟨before, _⟩ := List.getElem?_eq_some_iff.mp comes
      rw [length] at before
      rwa [Sequence.tried, List.getElem?_take_of_lt before, ← Nat.zero_add index] at comes)
    (fun entry found => by
      rw [length, initialCursor, Nat.zero_add] at found
      exact Sequence.entry_stop found)
    (by rw [length]; exact cycle.sequence.stop_le_length)
  refine ⟨failing, by rw [reached, milestones_lightStatus], fun patience => ?_⟩
  rw [runUntilHandoff_apply, fails patience, length, initialCursor, Nat.zero_add]

section

variable {cycle : Cycle} {entries : List Entry}

theorem attempts_passed (cycle : Cycle) (entries : List Entry) :
    (entries.flatMap cycle.passed).filter Call.isAttempt = entries.filterMap cycle.attemptCall? := by
  induction entries with
  | nil => rfl
  | cons entry entries ih =>
      have first : (cycle.passed entry).filter Call.isAttempt = (cycle.attemptCall? entry).toList := by
        cases entry <;> rfl
      rw [List.flatMap_cons, List.filter_append, ih, first, List.filterMap_cons]
      cases cycle.attemptCall? entry <;> rfl

theorem length_attempts (cycle : Cycle) (bootable : ∀ entry ∈ entries, entry ≠ .halt) :
    (entries.filterMap cycle.attemptCall?).length = entries.length := by
  induction entries with
  | nil => rfl
  | cons entry entries ih =>
      have first : (cycle.attemptCall? entry).isSome := by
        cases entry with
        | halt => exact absurd rfl (bootable .halt (List.mem_cons_self ..))
        | floppy | hardDisk | cdRom | cbfs | rom => rfl
      obtain ⟨call, attempts⟩ := Option.isSome_iff_exists.mp first
      have rest := ih fun entry member => bootable entry (List.mem_cons_of_mem _ member)
      rw [List.filterMap_cons_some attempts, List.length_cons, rest, List.length_cons]

theorem advances_passed (cycle : Cycle) (entries : List Entry) :
    (entries.flatMap cycle.passed).count (.post Progress.advance) = entries.length := by
  induction entries with
  | nil => rfl
  | cons entry entries ih =>
      have first : (cycle.passed entry).count (.post Progress.advance) = 1 := by
        cases entry <;> rfl
      rw [List.flatMap_cons, List.count_append, ih, first, List.length_cons, Nat.add_comm]

/-- Passing entries neither fails the cycle nor ends it. -/
theorem count_passed {call : Call} (attempts : call.isAttempt = false)
    (advances : call ≠ .post Progress.advance) : (entries.flatMap cycle.passed).count call = 0 := by
  refine List.count_eq_zero.mpr fun member => ?_
  obtain ⟨entry, _, made⟩ := List.mem_flatMap.mp member
  rcases List.mem_append.mp made with attempted | advanced
  · have attempt := isAttempt_of_attemptCall? (Option.mem_toList.mp attempted)
    rw [attempts] at attempt
    cases attempt
  · exact advances (List.mem_singleton.mp advanced)

end

/-- All that a cycle which came to its end has done, as far as milestones tell. -/
theorem runUntilHandoff_trace {cycle : Cycle} {patience : Nat} {before after : Recorded σ}
    {outcome : BootError × Nat}
    (ended : cycle.runUntilHandoff patience before = some (outcome, after)) :
    ∃ trace, after.calls = before.calls ++ trace ∧
      trace.filter Call.isMilestone = cycle.sequence.tried.flatMap cycle.passed ++
        [.post Progress.bootFail, cycle.retry.lastCall] := by
  obtain ⟨trace, continued, _⟩ := cycle.enter_keeps patience initialCursor .untilHandoff _ _ _ ended
  obtain ⟨failing, passes, fails⟩ := cycle.runUntilHandoff_passes before
  rw [fails patience] at ended
  obtain ⟨⟨error, _⟩, failed, same⟩ := Option.map_eq_some_iff.mp ended
  cases same
  have reached := milestones_bootFail failed
  rw [passes, Recorded.milestones, continued, List.filter_append, List.append_assoc] at reached
  exact ⟨trace, continued, List.append_cancel_left reached⟩

theorem runUntilHandoff_settles [AdvancingClock σ] (cycle : Cycle) (before : Recorded σ) :
    ∃ after, Settles cycle.runUntilHandoff before (.sequenceExhausted, cycle.sequence.stop) after := by
  obtain ⟨failing, _, fails⟩ := cycle.runUntilHandoff_passes before
  obtain ⟨after, enough, failed⟩ := cycle.bootFail_settles failing
  refine ⟨after, enough, fun patience bound => ?_⟩
  rw [fails patience, failed patience bound]
  rfl

theorem attempts_of_milestones {cycle : Cycle} {entries : List Entry} {trace : List Call}
    (told : trace.filter Call.isMilestone = entries.flatMap cycle.passed ++
      [.post Progress.bootFail, cycle.retry.lastCall]) :
    trace.filter Call.isAttempt = entries.filterMap cycle.attemptCall? := by
  have telling (call : Call) (attempt : call.isAttempt = true) : call.isMilestone = true := by
    cases call <;> first | rfl | cases attempt
  rw [← Call.filter_filter trace telling, told, List.filter_append, attempts_passed]
  cases cycle.retry <;> exact List.append_nil _

/-- On a platform that no attempt leaves, a cycle attempts the entries before
the stop mark one by one, each once and in order, and ends in the failure path. -/
theorem untilHandoff_exhausts [AdvancingClock σ] (sequence : Sequence) (config : Config)
    (cursor : Nat) (before : Recorded σ) :
    let cycle := Cycle.ofConfig sequence config
    let tried := sequence.tried
    ∃ (after : Recorded σ) (trace : List Call),
      Settles (fun patience => cycle.enter patience cursor .untilHandoff) before
        (.sequenceExhausted, sequence.stop) after ∧
      after.calls = before.calls ++ trace ∧
      trace.filter Call.isMilestone =
        tried.flatMap cycle.passed ++ [.post Progress.bootFail, config.retry.lastCall] ∧
      trace.filter Call.isAttempt = tried.filterMap cycle.attemptCall? ∧
      (trace.filter Call.isAttempt).length = sequence.stop ∧
      trace.count (.post Progress.advance) = sequence.stop ∧
      trace.count (.post Progress.bootFail) = 1 ∧
      trace.count .reset + trace.count .halt = 1 := by
  intro cycle tried
  obtain ⟨failing, _, fails⟩ := cycle.runUntilHandoff_passes before
  obtain ⟨after, enough, failed⟩ := cycle.bootFail_settles failing
  have settles : Settles (fun patience => cycle.enter patience cursor .untilHandoff) before
      (.sequenceExhausted, sequence.stop) after := by
    refine ⟨enough, fun patience bound => ?_⟩
    change cycle.runUntilHandoff patience before = _
    rw [fails patience, failed patience bound]
    rfl
  obtain ⟨_, ended⟩ := settles.ends
  obtain ⟨trace, continued, told⟩ := runUntilHandoff_trace ended
  have attempts : trace.filter Call.isAttempt = tried.filterMap cycle.attemptCall? :=
    attempts_of_milestones told
  have length : tried.length = sequence.stop := sequence.length_tried
  have counted (call : Call) (milestone : call.isMilestone = true) :
      trace.count call = (tried.flatMap cycle.passed).count call +
        [.post Progress.bootFail, config.retry.lastCall].count call := by
    rw [← List.count_filter milestone, told, List.count_append]
    rfl
  refine ⟨after, trace, settles, continued, told, attempts, ?_, ?_, ?_, ?_⟩
  · have bootable (entry : Entry) (member : entry ∈ tried) : entry ≠ .halt :=
      Sequence.bootable_of_mem_tried member
    rw [attempts, length_attempts cycle bootable, length]
  · rw [counted _ rfl, advances_passed, length]
    cases config.retry <;> rfl
  · rw [counted _ rfl, count_passed rfl (by decide)]
    cases config.retry <;> rfl
  · rw [counted .reset rfl, counted .halt rfl, count_passed rfl (by decide),
      count_passed rfl (by decide)]
    cases config.retry <;> rfl

theorem untilHandoff_exhausts_stopped :
    let entries : List Entry := [.hardDisk 7, .floppy, .halt, .hardDisk 8, .halt]
    let sequence : Sequence := { entries, floppySeen := true }
    let before : Recorded Scripted.Board := { platform := {} }
    ∃ (after : Recorded Scripted.Board) (trace : List Call),
      Settles (fun patience => (Cycle.ofConfig sequence {}).enter patience 5 .untilHandoff) before
        (.sequenceExhausted, 2) after ∧
      after.calls = trace ∧
      trace.filter Call.isMilestone =
        [.bootHardDisk 7, .post Progress.advance, .bootFloppy true, .post Progress.advance,
          .post Progress.bootFail, .reset] := by
  intro entries sequence before
  obtain ⟨after, trace, settles, continued, told, _⟩ :=
    untilHandoff_exhausts sequence {} 5 before
  exact ⟨after, trace, settles, continued, told⟩

end Cycle

end BootFlow
