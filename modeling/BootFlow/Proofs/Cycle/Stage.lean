import BootFlow.Proofs.Cycle.Visits
import Mathlib.Data.List.Basic

namespace BootFlow

open Clock Console Launcher Logging Machine Registers Waiting

/-! The next boot reads off the boot stage whether a payload was attempted. A cycle marks the
stage before it looks at what kind of entry it is going to boot, so a stop mark leaves the mark
as well, though nothing is attempted there. -/

/-- The payload mark, and the attempts that it stands for. -/
def Call.concernsPayload (call : Call) : Bool :=
  call == payloadMark || call.isAttempt

/-- Every mark has its own attempt right behind it, and every attempt its own mark. -/
def Call.Alternate (calls : List Call) : Prop :=
  ∃ attempts : List Call, (∀ call ∈ attempts, call.isAttempt = true) ∧
    calls.filter Call.concernsPayload = attempts.flatMap fun attempt => [payloadMark, attempt]

namespace Cycle

variable {cycle : Cycle}

/-- The mark that is left at a position, and the attempt that is made there. -/
def marksAt (cycle : Cycle) (position : Nat) : List Call :=
  cycle.sequence.entries[position]?.elim [] fun entry =>
    Call.payloadMark :: (cycle.attemptCall? entry).toList

theorem marks_landmarksAt (cycle : Cycle) (position : Nat) :
    (cycle.landmarksAt position).filter Call.concernsPayload = cycle.marksAt position := by
  have marked : Call.concernsPayload Call.payloadMark = true := rfl
  have ended : Call.concernsPayload cycle.retry.lastCall = false := by
    cases cycle.retry <;> rfl
  rcases cycle.position_cases position with
    ⟨behind, untried⟩ | ⟨halts, untried⟩ | ⟨entry, call, found, _, boots, tried⟩
  · simp [landmarksAt, marksAt, behind, untried, ended]
  · simp [landmarksAt, marksAt, halts, untried, marked, ended, attemptCall?]
  · have attempt : call.concernsPayload = true := by
      simp [Call.concernsPayload, isAttempt_of_attemptCall? boots]
    simp [landmarksAt, marksAt, found, boots, tried, marked, attempt]

theorem Runs.marks {positions : List Nat} {trace : List Call} (runs : cycle.Runs positions trace) :
    trace.filter Call.concernsPayload = positions.flatMap cycle.marksAt := by
  have told (call : Call) (concerns : call.concernsPayload = true) : call.isLandmark = true := by
    rw [Call.isLandmark, ← Call.concernsPayload, concerns, Bool.true_or]
  rw [runs.filter told, List.filter_flatMap]
  simp only [marks_landmarksAt]

theorem marksAt_cases (cycle : Cycle) (position : Nat) :
    (cycle.sequence.entries[position]? = some .halt ∧ cycle.marksAt position = [Call.payloadMark]) ∨
      (cycle.sequence.entries[position]? ≠ some .halt ∧
        cycle.marksAt position =
          (cycle.attemptAt? position).toList.flatMap fun attempt => [Call.payloadMark, attempt]) := by
  rcases cycle.position_cases position with
    ⟨behind, untried⟩ | ⟨halts, _⟩ | ⟨entry, call, found, bootable, boots, tried⟩
  · exact .inr ⟨by simp [behind], by simp [marksAt, behind, untried]⟩
  · exact .inl ⟨halts, by simp [marksAt, halts, attemptCall?]⟩
  · exact .inr ⟨by simp [found, bootable], by simp [marksAt, found, boots, tried]⟩

/-- Where marks and attempts alternate, there are as many of the one as of the other. -/
theorem count_alternating {attempts : List Call} (tried : ∀ call ∈ attempts, call.isAttempt = true) :
    (attempts.flatMap fun attempt => [Call.payloadMark, attempt]).count Call.payloadMark =
      (attempts.flatMap fun attempt => [Call.payloadMark, attempt]).countP Call.isAttempt := by
  induction attempts with
  | nil => rfl
  | cons attempt attempts ih =>
      have first : attempt.isAttempt = true := tried attempt (List.mem_cons_self ..)
      have other : attempt ≠ Call.payloadMark := by
        rintro rfl
        cases first
      have rest := ih fun call member => tried call (List.mem_cons_of_mem _ member)
      simp [rest, first, other]

theorem count_marks (cycle : Cycle) (positions : List Nat) :
    (positions.flatMap cycle.marksAt).count Call.payloadMark =
      (positions.flatMap cycle.marksAt).countP Call.isAttempt +
        positions.countP (cycle.sequence.entries[·]? == some .halt) := by
  induction positions with
  | nil => rfl
  | cons position positions ih =>
      rw [List.flatMap_cons, List.count_append, List.countP_append, List.countP_cons, ih]
      rcases cycle.marksAt_cases position with ⟨halts, marks⟩ | ⟨bootable, marks⟩
      · simp [halts, marks]
        omega
      · have tried : ∀ call ∈ (cycle.attemptAt? position).toList, call.isAttempt = true :=
          fun call member => isAttempt_of_attemptAt? (Option.mem_toList.mp member)
        rw [marks, count_alternating tried]
        simp [bootable]
        omega

theorem Runs.alternate_iff {positions : List Nat} {trace : List Call}
    (runs : cycle.Runs positions trace) :
    Call.Alternate trace ↔
      ∀ position ∈ positions, cycle.sequence.entries[position]? ≠ some .halt := by
  rw [Call.Alternate, runs.marks]
  constructor
  · rintro ⟨attempts, tried, alternating⟩ position visited halts
    -- The stop marks are what the marks are more than the attempts, and here they are as many.
    have counted := cycle.count_marks positions
    rw [alternating, count_alternating tried] at counted
    have never : positions.countP (cycle.sequence.entries[·]? == some .halt) = 0 := by omega
    simpa [halts] using List.countP_eq_zero.mp never position visited
  · intro bootable
    refine ⟨positions.filterMap cycle.attemptAt?, fun call member => ?_, ?_⟩
    · obtain ⟨_, _, attempts⟩ := List.mem_filterMap.mp member
      exact isAttempt_of_attemptAt? attempts
    · rw [List.filterMap_eq_flatMap_toList, List.flatMap_assoc]
      refine List.flatMap_congr fun position visited => ?_
      rcases cycle.marksAt_cases position with ⟨halts, _⟩ | ⟨_, marks⟩
      · exact absurd halts (bootable position visited)
      · exact marks

section

variable {σ : Type} [Timeline σ] [Registers σ] [Clock σ] [Console σ] [Machine σ] [Launcher σ]
  [Logging σ]

/-- A cycle marks the payload stage once at every entry that it visits, at a stop mark too. So the
marks and the attempts alternate if, and only if, it visits no stop mark. -/
theorem marks_every_visit (sequence : Sequence) (config : Config) {patience cursor : Nat}
    {entrances : List Entrance} {outcomes : List (BootError × Nat)} {before after : Recorded σ}
    (entered : (Cycle.ofConfig sequence config).enterAll patience cursor entrances before =
      some (outcomes, after)) :
    let cycle := Cycle.ofConfig sequence config
    let positions := cycle.route cursor entrances
    ∃ trace, after.calls = before.calls ++ trace ∧ cycle.Runs positions trace ∧
      trace.filter Call.concernsPayload = positions.flatMap cycle.marksAt ∧
      (Call.Alternate trace ↔ ∀ position ∈ positions, sequence.entries[position]? ≠ some .halt) := by
  intro cycle positions
  obtain ⟨trace, continued, runs⟩ := enterAll_visits entered
  exact ⟨trace, continued, runs, runs.marks, runs.alternate_iff⟩

end

theorem marks_every_visit_returning :
    let entries : List Entry := [.hardDisk 7, .floppy]
    let sequence : Sequence := { entries, floppySeen := true }
    let config : Config := { retry := .never }
    let before : Recorded Scripted.Board := { platform := {} }
    ∃ (patience : Nat) (outcomes : List (BootError × Nat)) (after : Recorded Scripted.Board)
        (trace : List Call),
      (Cycle.ofConfig sequence config).enterAll patience 0 [.start, .advance, .attempt 9] before =
        some (outcomes, after) ∧
      after.calls = trace ∧
      trace.filter Call.concernsPayload =
        [Call.payloadMark, .bootHardDisk 7, Call.payloadMark, .bootFloppy true] ∧
      Call.Alternate trace := by
  intro entries sequence config before
  obtain ⟨outcomes, after, settles⟩ :=
    (Cycle.ofConfig sequence config).enterAll_returns 0 [.start, .advance, .attempt 9] before
  obtain ⟨patience, entered⟩ := settles.ends
  obtain ⟨trace, continued, _, marks, alternate⟩ := marks_every_visit sequence config entered
  exact ⟨patience, outcomes, after, trace, entered, continued, marks, alternate.mpr (by decide)⟩

/-- A sequence that stops at once is marked as if a payload had been attempted. -/
theorem stop_mark_is_marked :
    ¬ ∀ (sequence : Sequence) (config : Config) (patience cursor : Nat) (entrances : List Entrance)
        (outcomes : List (BootError × Nat)) (before after : Recorded Scripted.Board)
        (trace : List Call),
      (Cycle.ofConfig sequence config).enterAll patience cursor entrances before =
        some (outcomes, after) →
      after.calls = before.calls ++ trace → Call.Alternate trace := by
  intro alternates
  let sequence : Sequence := { entries := [.halt, .hardDisk 0, .floppy], floppySeen := true }
  let before : Recorded Scripted.Board := { platform := {} }
  obtain ⟨outcomes, after, settles⟩ :=
    (Cycle.ofConfig sequence {}).enterAll_returns 0 [.untilHandoff] before
  obtain ⟨patience, entered⟩ := settles.ends
  obtain ⟨trace, continued, runs⟩ := enterAll_visits entered
  have alternate := alternates _ _ _ _ _ _ _ _ trace entered continued
  exact runs.alternate_iff.mp alternate 0 (by decide) rfl

end Cycle

end BootFlow
