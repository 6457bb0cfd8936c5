import BootFlow.Proofs.Cycle.Visits
import Mathlib.Data.List.Basic
import Mathlib.Data.List.Induction

namespace BootFlow

open Clock Console Launcher Logging Machine Registers Waiting

/-! The cursor is all that a cycle carries from one entrance to the next. In whatever order it
is entered, each entrance takes one turn: an attempt, or the failure path and the end. -/

namespace Cycle

/-- Where the last start put the cursor, and on from there by each advance since. -/
def cursorAfter (initial : Nat) (entrances : List Entrance) : Nat :=
  (if .start ∈ entrances then initialCursor else initial) +
    (entrances.reverse.takeWhile (· ≠ .start)).count .advance

theorem cursorAfter_concat (cycle : Cycle) (initial : Nat) (entrances : List Entrance)
    {entrance : Entrance} (single : entrance ≠ .untilHandoff) :
    cursorAfter initial (entrances ++ [entrance]) =
      cycle.moved (cursorAfter initial entrances) entrance := by
  cases entrance with
  | attempt position => simp [cursorAfter, moved]
  | start => simp [cursorAfter, moved]
  | advance => simp [cursorAfter, moved, Nat.add_assoc]
  | untilHandoff => exact absurd rfl single

theorem foldl_moved (cycle : Cycle) (initial : Nat) {entrances : List Entrance}
    (single : .untilHandoff ∉ entrances) :
    entrances.foldl cycle.moved initial = cursorAfter initial entrances := by
  induction entrances using List.reverseRecOn with
  | nil => rfl
  | append_singleton entrances entrance ih =>
      simp only [List.mem_append, List.mem_singleton, not_or] at single
      rw [List.foldl_append, ih single.1, cursorAfter_concat cycle initial entrances (Ne.symm single.2)]
      rfl

/-- One entrance that came back. -/
structure Turn where
  error : BootError
  cursor : Nat
  trace : List Call
  deriving DecidableEq, Repr

def Turn.outcome (turn : Turn) : BootError × Nat :=
  (turn.error, turn.cursor)

/-- A turn at a position tries the entry there and goes on, or it has nothing to try and ends the
cycle. -/
inductive TurnAt (cycle : Cycle) (position : Nat) (turn : Turn) : Prop
  | attempts {entry : Entry} {call : Call}
      (found : cycle.sequence.entries[position]? = some entry)
      (boots : cycle.attemptCall? entry = some call)
      (returned : turn.error = .attemptReturned)
      (once : turn.trace.filter Call.isAttempt = [call])
      (goesOn : turn.trace.filter Call.endsCycle = [])
  | fails (nothing : ∀ entry, cycle.sequence.entries[position]? = some entry → entry = .halt)
      (exhausted : turn.error = .sequenceExhausted)
      (untried : turn.trace.filter Call.isAttempt = [])
      (once : turn.trace.filter Call.endsCycle = [cycle.retry.lastCall])

theorem turnAt_of_runs {cycle : Cycle} {position : Nat} {turn : Turn}
    (came : turn.error = cycle.errorAt position) (runs : cycle.Runs [position] turn.trace) :
    cycle.TurnAt position turn := by
  have attempts : turn.trace.filter Call.isAttempt = (cycle.landmarksAt position).filter Call.isAttempt := by
    simpa using runs.filter fun call attempt => by simp [Call.isLandmark, attempt]
  have ends : turn.trace.filter Call.endsCycle = (cycle.landmarksAt position).filter Call.endsCycle := by
    simpa using runs.filter fun call ends => by simp [Call.isLandmark, ends]
  rcases cycle.position_cases position with
    ⟨behind, untried⟩ | ⟨halts, untried⟩ | ⟨entry, call, found, _, boots, tried⟩
  · refine .fails (by simp [behind]) ?_ ?_ ?_
    · simp [came, errorAt, untried]
    · simp [attempts, landmarksAt, behind, untried]
    · simp [ends, landmarksAt, behind, untried]
  · refine .fails (by simp [halts]) ?_ ?_ ?_
    · simp [came, errorAt, untried]
    · simp [attempts, landmarksAt, halts, untried]
    · simp [ends, landmarksAt, halts, untried]
  · have attempt := isAttempt_of_attemptCall? boots
    have goesOn := Call.endsCycle_of_isAttempt attempt
    refine .attempts found boots ?_ ?_ ?_
    · simp [came, errorAt, tried]
    · simp [attempts, landmarksAt, found, tried, attempt]
    · simp [ends, landmarksAt, found, tried, goesOn]

section

variable {σ : Type} [Timeline σ] [Registers σ] [Clock σ] [Console σ] [Machine σ] [Launcher σ]
  [Logging σ] [AdvancingClock σ]

theorem enter_takes_turn (cycle : Cycle) (cursor : Nat) {entrance : Entrance}
    (single : entrance ≠ .untilHandoff) (before : Recorded σ) :
    ∃ (turn : Turn) (after : Recorded σ),
      Settles (fun patience => cycle.enter patience cursor entrance) before turn.outcome after ∧
      after.calls = before.calls ++ turn.trace ∧
      turn.cursor = cycle.moved cursor entrance ∧
      cycle.TurnAt (entrance.position turn.cursor) turn := by
  obtain ⟨ended, after, settles⟩ := cycle.enter_returns cursor entrance before
  obtain ⟨_, entered⟩ := settles.ends
  obtain ⟨rfl, trace, continued, runs⟩ := enter_visits entered
  have visited : cycle.visited cursor entrance = [entrance.position (cycle.moved cursor entrance)] := by
    cases entrance <;> first | rfl | exact absurd rfl single
  rw [visited] at runs
  let moves := cycle.moved cursor entrance
  let turn : Turn := { error := cycle.errorAt (entrance.position moves), cursor := moves, trace }
  exact ⟨turn, after, settles, continued, rfl, turnAt_of_runs rfl runs⟩

theorem enterAll_takes_turns (cycle : Cycle) (initial : Nat) (entrances : List Entrance)
    (single : .untilHandoff ∉ entrances) (before : Recorded σ) :
    ∃ turns : List Turn, turns.length = entrances.length ∧
      (∀ count, ∃ after : Recorded σ,
        Settles (fun patience => cycle.enterAll patience initial (entrances.take count)) before
          ((turns.take count).map Turn.outcome) after ∧
        after.calls = before.calls ++ (turns.take count).flatMap Turn.trace) ∧
      ∀ index entrance turn, entrances[index]? = some entrance → turns[index]? = some turn →
        turn.cursor = (entrances.take (index + 1)).foldl cycle.moved initial ∧
        cycle.TurnAt (entrance.position turn.cursor) turn := by
  induction entrances generalizing initial before with
  | nil =>
      refine ⟨[], rfl, fun count => ⟨before, ?_, by simp⟩, by simp⟩
      rw [List.take_nil, List.take_nil]
      exact ⟨0, fun _ _ => rfl⟩
  | cons entrance later ih =>
      simp only [List.mem_cons, not_or] at single
      obtain ⟨turn, middle, settles, continued, moves, taken⟩ :=
        cycle.enter_takes_turn initial (Ne.symm single.1) before
      -- The later turns start from the cursor and the record that the first one leaves.
      obtain ⟨turns, length, ran, each⟩ := ih turn.cursor single.2 middle
      refine ⟨turn :: turns, by simp [length], fun count => ?_, fun index => ?_⟩
      · cases count with
        | zero => exact ⟨before, ⟨0, fun _ _ => rfl⟩, by simp⟩
        | succ count =>
            obtain ⟨after, rest, further⟩ := ran count
            refine ⟨after, ?_, by simp [further, continued]⟩
            exact settles.bind (rest.bind ⟨0, fun _ _ => rfl⟩)
      · cases index with
        | zero =>
            rintro _ _ ⟨⟩ ⟨⟩
            exact ⟨moves, taken⟩
        | succ index =>
            intro next nextTurn comes takes
            rw [moves] at each
            exact each index next nextTurn comes takes

/-- Each entrance comes back with the cursor where the last start and the advances since have put
it, and on its way it tried the one entry it was to try, or else ended the cycle once. -/
theorem entrances_take_turns (sequence : Sequence) (config : Config) (initial : Nat)
    (entrances : List Entrance) (single : .untilHandoff ∉ entrances) (before : Recorded σ) :
    let cycle := Cycle.ofConfig sequence config
    ∃ turns : List Turn, turns.length = entrances.length ∧
      (∀ count, ∃ after : Recorded σ,
        Settles (fun patience => cycle.enterAll patience initial (entrances.take count)) before
          ((turns.take count).map Turn.outcome) after ∧
        after.calls = before.calls ++ (turns.take count).flatMap Turn.trace) ∧
      ∀ index entrance turn, entrances[index]? = some entrance → turns[index]? = some turn →
        turn.cursor = cursorAfter initial (entrances.take (index + 1)) ∧
        cycle.TurnAt (entrance.position turn.cursor) turn := by
  intro cycle
  obtain ⟨turns, length, ran, each⟩ := cycle.enterAll_takes_turns initial entrances single before
  refine ⟨turns, length, ran, fun index entrance turn comes takes => ?_⟩
  have sofar : .untilHandoff ∉ entrances.take (index + 1) := fun member =>
    single (List.mem_of_mem_take member)
  rw [← foldl_moved cycle initial sofar]
  exact each index entrance turn comes takes

end

theorem entrances_take_turns_restarted :
    let entries : List Entry := [.hardDisk 7, .floppy, .halt]
    let sequence : Sequence := { entries, floppySeen := true }
    let cycle := Cycle.ofConfig sequence {}
    let entrances : List Entrance := [.advance, .attempt 9, .start, .advance]
    let before : Recorded Scripted.Board := { platform := {} }
    .untilHandoff ∉ entrances ∧
    ∃ first second third fourth : Turn, ∃ after : Recorded Scripted.Board,
      Settles (fun patience => cycle.enterAll patience 3 entrances) before
        [first.outcome, second.outcome, third.outcome, fourth.outcome] after ∧
      after.calls = first.trace ++ second.trace ++ third.trace ++ fourth.trace ∧
      (first.cursor = 4 ∧ cycle.TurnAt 4 first) ∧ (second.cursor = 4 ∧ cycle.TurnAt 9 second) ∧
      (third.cursor = 0 ∧ cycle.TurnAt 0 third) ∧ (fourth.cursor = 1 ∧ cycle.TurnAt 1 fourth) := by
  intro entries sequence cycle entrances before
  have single : .untilHandoff ∉ entrances := by decide
  obtain ⟨turns, length, ran, each⟩ := entrances_take_turns sequence {} 3 entrances single before
  obtain ⟨first, second, third, fourth, rfl⟩ := List.length_eq_four.mp length
  obtain ⟨after, settles, continued⟩ := ran 4
  obtain ⟨firstMoves, firstTaken⟩ := each 0 _ first rfl rfl
  obtain ⟨secondMoves, secondTaken⟩ := each 1 _ second rfl rfl
  obtain ⟨thirdMoves, thirdTaken⟩ := each 2 _ third rfl rfl
  obtain ⟨fourthMoves, fourthTaken⟩ := each 3 _ fourth rfl rfl
  have silent : before.calls = [] := rfl
  have traces : after.calls = first.trace ++ second.trace ++ third.trace ++ fourth.trace := by
    simpa [silent] using continued
  refine ⟨single, first, second, third, fourth, after, settles, traces, ⟨firstMoves, ?_⟩,
    ⟨secondMoves, secondTaken⟩, ⟨thirdMoves, ?_⟩, ⟨fourthMoves, ?_⟩⟩
  · rw [Entrance.position, firstMoves] at firstTaken
    exact firstTaken
  · rw [Entrance.position, thirdMoves] at thirdTaken
    exact thirdTaken
  · rw [Entrance.position, fourthMoves] at fourthTaken
    exact fourthTaken

end Cycle

end BootFlow
