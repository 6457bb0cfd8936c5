import BootFlow.Proofs.Cycle.Handoff

namespace BootFlow

open Clock Console Launcher Logging Machine Registers Waiting

/-! Whatever way a cycle is entered, it visits positions, and at each of them it leaves the
same landmarks: the mark in the boot stage register, the attempt, and the end. -/

namespace Call

/-- What tells a later boot that a payload was attempted. -/
def payloadMark : Call :=
  .writeRegister Register.bootStage Stage.payload

def endsCycle : Call → Bool
  | .reset | .halt => true
  | _ => false

def isLandmark (call : Call) : Bool :=
  call == payloadMark || call.isAttempt || call.endsCycle

theorem isDeed_of_isLandmark {call : Call} (landmark : call.isLandmark = true) :
    call.isDeed = true := by
  cases call <;> first | rfl | cases landmark

@[simp] theorem isAttempt_payloadMark : payloadMark.isAttempt = false := rfl

@[simp] theorem endsCycle_payloadMark : payloadMark.endsCycle = false := rfl

theorem endsCycle_of_isAttempt {call : Call} (attempt : call.isAttempt = true) :
    call.endsCycle = false := by
  cases call <;> first | rfl | cases attempt

end Call

namespace RetryPolicy

@[simp] theorem isAttempt_lastCall (retry : RetryPolicy) : retry.lastCall.isAttempt = false := by
  cases retry <;> rfl

@[simp] theorem endsCycle_lastCall (retry : RetryPolicy) : retry.lastCall.endsCycle = true := by
  cases retry <;> rfl

@[simp] theorem isLandmark_lastCall (retry : RetryPolicy) : retry.lastCall.isLandmark = true := by
  cases retry <;> rfl

end RetryPolicy

theorem Sequence.bootable_ahead {sequence : Sequence} {position : Nat}
    (ahead : position < sequence.stop) :
    ∃ entry, sequence.entries[position]? = some entry ∧ entry ≠ .halt := by
  have bound := Nat.lt_of_lt_of_le ahead sequence.stop_le_length
  refine ⟨sequence.entries[position], List.getElem?_eq_getElem bound, ?_⟩
  simpa using List.not_of_lt_findIdx ahead

namespace Cycle

variable {cycle : Cycle}

def landmarksAt (cycle : Cycle) (position : Nat) : List Call :=
  (cycle.sequence.entries[position]?.elim [] fun _ => [Call.payloadMark]) ++
    (cycle.attemptAt? position).elim [cycle.retry.lastCall] fun call => [call]

theorem announcement_landmarks (entry : Entry) (position : Nat) :
    (announcement entry position).filter Call.isLandmark = [Call.payloadMark] := rfl

theorem isAttempt_of_attemptAt? {position : Nat} {call : Call}
    (attempts : cycle.attemptAt? position = some call) : call.isAttempt = true := by
  obtain ⟨entry, _, boots⟩ := Option.bind_eq_some_iff.mp attempts
  exact isAttempt_of_attemptCall? boots

theorem landmarks_deedsAt (cycle : Cycle) (position : Nat) :
    (cycle.deedsAt position).filter Call.isLandmark = cycle.landmarksAt position := by
  have behind : ((cycle.attemptAt? position).elim cycle.failure fun call => [call]).filter
      Call.isLandmark = (cycle.attemptAt? position).elim [cycle.retry.lastCall] fun call => [call] := by
    cases attempts : cycle.attemptAt? position with
    | none =>
        have failing : Call.isLandmark (.post Progress.bootFail) = false := rfl
        simp [failure, failing]
    | some call => simp [Call.isLandmark, isAttempt_of_attemptAt? attempts]
  rw [deedsAt, List.filter_append, behind, landmarksAt]
  cases cycle.sequence.entries[position]? with
  | none => rfl
  | some entry => rw [Option.elim, announcement_landmarks, Option.elim]

theorem errorAt_ahead {position : Nat} (ahead : position < cycle.sequence.stop) :
    cycle.errorAt position = .attemptReturned := by
  obtain ⟨entry, found, bootable⟩ := Sequence.bootable_ahead ahead
  rcases cycle.position_cases position with ⟨behind, _⟩ | ⟨halts, _⟩ | ⟨_, _, _, _, _, tried⟩
  · simp [behind] at found
  · simp [halts, Ne.symm bootable] at found
  · simp [errorAt, tried]

theorem errorAt_stop (cycle : Cycle) : cycle.errorAt cycle.sequence.stop = .sequenceExhausted := by
  rcases cycle.position_cases cycle.sequence.stop with
    ⟨_, untried⟩ | ⟨_, untried⟩ | ⟨entry, _, found, bootable, _, _⟩
  · simp [errorAt, untried]
  · simp [errorAt, untried]
  · exact absurd (Sequence.entry_stop found) bootable

/-- What was done in visits of these positions, one after the other. -/
inductive Runs (cycle : Cycle) : List Nat → List Call → Prop
  | done : cycle.Runs [] []
  | visit {position : Nat} {positions : List Nat} {run later : List Call}
      (told : run.filter Call.isLandmark = cycle.landmarksAt position)
      (rest : cycle.Runs positions later) : cycle.Runs (position :: positions) (run ++ later)

namespace Runs

variable {positions others : List Nat} {trace more opening : List Call} {position : Nat}

theorem single (told : trace.filter Call.isLandmark = cycle.landmarksAt position) :
    cycle.Runs [position] trace := by
  simpa using Runs.visit told .done

theorem append (first : cycle.Runs positions trace) (second : cycle.Runs others more) :
    cycle.Runs (positions ++ others) (trace ++ more) := by
  induction first with
  | done => exact second
  | visit told _ ih =>
      rw [List.cons_append, List.append_assoc]
      exact .visit told ih

/-- What comes before a visit without being a landmark counts as a part of it. -/
theorem opened (unmarked : opening.filter Call.isLandmark = [])
    (runs : cycle.Runs (position :: positions) trace) :
    cycle.Runs (position :: positions) (opening ++ trace) := by
  cases runs with
  | visit told rest =>
      rw [← List.append_assoc]
      exact .visit (by rw [List.filter_append, unmarked, told, List.nil_append]) rest

theorem landmarks (runs : cycle.Runs positions trace) :
    trace.filter Call.isLandmark = positions.flatMap cycle.landmarksAt := by
  induction runs with
  | done => rfl
  | visit told _ ih => rw [List.filter_append, told, ih, List.flatMap_cons]

theorem filter {selected : Call → Bool} (runs : cycle.Runs positions trace)
    (told : ∀ call, selected call = true → call.isLandmark = true) :
    trace.filter selected = (positions.flatMap cycle.landmarksAt).filter selected := by
  rw [← Call.filter_filter trace told, runs.landmarks]

end Runs

variable {σ : Type}

/-- The later record continues the earlier one by visits of these positions. -/
def Visits (cycle : Cycle) (positions : List Nat) (before after : Recorded σ) : Prop :=
  ∃ trace, after.calls = before.calls ++ trace ∧ cycle.Runs positions trace

namespace Visits

variable {positions others : List Nat} {before middle after : Recorded σ} {position : Nat}

theorem nowhere (state : Recorded σ) : cycle.Visits [] state state :=
  ⟨[], (List.append_nil _).symm, .done⟩

theorem trans (first : cycle.Visits positions before middle)
    (second : cycle.Visits others middle after) :
    cycle.Visits (positions ++ others) before after := by
  obtain ⟨trace, toMiddle, runs⟩ := first
  obtain ⟨more, toAfter, moreRuns⟩ := second
  exact ⟨trace ++ more, by rw [toAfter, toMiddle, List.append_assoc], runs.append moreRuns⟩

theorem opened {opening : List Call} (made : middle.calls = before.calls ++ opening)
    (unmarked : opening.filter Call.isLandmark = [])
    (visits : cycle.Visits (position :: positions) middle after) :
    cycle.Visits (position :: positions) before after := by
  obtain ⟨trace, toAfter, runs⟩ := visits
  exact ⟨opening ++ trace, by rw [toAfter, made, List.append_assoc], runs.opened unmarked⟩

end Visits

/-- Where an entrance leaves the cursor. -/
def moved (cycle : Cycle) (cursor : Nat) : Entrance → Nat
  | .attempt _ => cursor
  | .start => initialCursor
  | .advance => cursor + 1
  | .untilHandoff => cycle.sequence.stop

/-- The position that an entrance comes to, from where it leaves the cursor. -/
def Entrance.position (cursor : Nat) : Entrance → Nat
  | .attempt position => position
  | .start | .advance | .untilHandoff => cursor

/-- What an entrance comes to. -/
def outcome (cycle : Cycle) (cursor : Nat) (entrance : Entrance) : BootError × Nat :=
  (cycle.errorAt (entrance.position (cycle.moved cursor entrance)), cycle.moved cursor entrance)

def visited (cycle : Cycle) (cursor : Nat) : Entrance → List Nat
  | .untilHandoff => List.range (cycle.sequence.stop + 1)
  | entrance => [entrance.position (cycle.moved cursor entrance)]

section

variable [Registers σ] [Clock σ] [Console σ] [Machine σ] [Launcher σ] [Logging σ]

/-- Enters a cycle several times, with the cursor where the last time left it. -/
def enterAll (cycle : Cycle) (patience cursor : Nat) :
    List Entrance → Waiting σ (List (BootError × Nat))
  | [] => return []
  | entrance :: later => do
      let outcome ← cycle.enter patience cursor entrance
      return outcome :: (← cycle.enterAll patience outcome.2 later)

section

variable [Timeline σ] {patience cursor position : Nat} {before after : Recorded σ}
  {ended : BootError × Nat}

theorem attempt_visits {error : BootError}
    (attempted : cycle.attempt patience position before = some (error, after)) :
    error = cycle.errorAt position ∧ cycle.Visits [position] before after := by
  obtain ⟨answered, did⟩ := deeds_attempt attempted
  obtain ⟨run, continued, _⟩ := cycle.attempt_keeps patience position _ _ _ attempted
  refine ⟨answered, run, continued, .single ?_⟩
  rw [← landmarks_deedsAt, ← Recorded.filter_isDeed continued did]
  exact (Call.filter_filter run fun _ => Call.isDeed_of_isLandmark).symm

/-- An attempt with the cursor given beside its answer. -/
theorem attempt_beside_visits
    (attempted : (do return (← cycle.attempt patience position, cursor)) before = some (ended, after)) :
    ended = (cycle.errorAt position, cursor) ∧ cycle.Visits [position] before after := by
  obtain ⟨error, middle, attempted, same⟩ := bind_eq_some.mp attempted
  cases same
  obtain ⟨rfl, visits⟩ := attempt_visits attempted
  exact ⟨rfl, visits⟩

theorem runFrom_stop {advances : Nat}
    (ran : cycle.runFrom patience cycle.sequence.stop advances before = some (ended, after)) :
    ended = (.sequenceExhausted, cycle.sequence.stop) ∧
      cycle.Visits (List.range' cycle.sequence.stop (cycle.sequence.stop - cycle.sequence.stop + 1))
        before after := by
  obtain ⟨error, middle, attempted, rest⟩ := bind_eq_some.mp ran
  obtain ⟨rfl, visits⟩ := attempt_visits attempted
  rw [errorAt_stop, advanceWhileRetryable_exhausted] at rest
  cases rest
  rw [Nat.sub_self]
  exact ⟨rfl, visits⟩

/-- Up to the stop every attempt comes back, and every advance makes one more visit. -/
theorem runFrom_visits {advances : Nat} (ahead : position ≤ cycle.sequence.stop)
    (enough : cycle.sequence.stop - position ≤ advances)
    (ran : cycle.runFrom patience position advances before = some (ended, after)) :
    ended = (.sequenceExhausted, cycle.sequence.stop) ∧
      cycle.Visits (List.range' position (cycle.sequence.stop - position + 1)) before after := by
  -- On the advances that are left, which never run out before the stop is reached.
  induction advances generalizing position before with
  | zero =>
      obtain rfl : position = cycle.sequence.stop := by omega
      exact runFrom_stop ran
  | succ advances ih =>
      rcases Nat.eq_or_lt_of_le ahead with rfl | further
      · exact runFrom_stop ran
      · obtain ⟨error, middle, attempted, rest⟩ := bind_eq_some.mp ran
        obtain ⟨rfl, first⟩ := attempt_visits attempted
        rw [errorAt_ahead further, advanceWhileRetryable_returned] at rest
        obtain ⟨answered, later⟩ := ih further (by omega) rest
        have left : cycle.sequence.stop - position = cycle.sequence.stop - (position + 1) + 1 := by
          omega
        rw [List.range'_succ] at later
        have advanced := later.opened (Recorded.calls_post Progress.advance middle) rfl
        rw [left, List.range'_succ, List.range'_succ]
        exact ⟨answered, first.trans advanced⟩

theorem enter_visits {entrance : Entrance}
    (entered : cycle.enter patience cursor entrance before = some (ended, after)) :
    ended = cycle.outcome cursor entrance ∧ cycle.Visits (cycle.visited cursor entrance) before after := by
  have lit := calls_lightStatus before
  cases entrance with
  | attempt position => exact attempt_beside_visits entered
  | start =>
      obtain ⟨answered, visits⟩ := attempt_beside_visits entered
      exact ⟨answered, visits.opened lit rfl⟩
  | advance =>
      obtain ⟨answered, visits⟩ := attempt_beside_visits entered
      exact ⟨answered, visits.opened (Recorded.calls_post Progress.advance before) rfl⟩
  | untilHandoff =>
      change cycle.runUntilHandoff patience before = _ at entered
      rw [runUntilHandoff_apply] at entered
      obtain ⟨rfl, visits⟩ := runFrom_visits (Nat.zero_le _) cycle.sequence.stop_le_length entered
      rw [Nat.sub_zero, List.range'_succ] at visits
      refine ⟨?_, ?_⟩
      · rw [outcome, Entrance.position, moved, errorAt_stop]
      · rw [visited, List.range_eq_range', List.range'_succ]
        exact visits.opened lit rfl

/-- The positions that are visited when a cycle is entered several times. -/
def route (cycle : Cycle) (cursor : Nat) : List Entrance → List Nat
  | [] => []
  | entrance :: later =>
      cycle.visited cursor entrance ++ cycle.route (cycle.moved cursor entrance) later

theorem enterAll_visits {entrances : List Entrance} {outcomes : List (BootError × Nat)}
    (entered : cycle.enterAll patience cursor entrances before = some (outcomes, after)) :
    cycle.Visits (cycle.route cursor entrances) before after := by
  induction entrances generalizing cursor before outcomes with
  | nil =>
      cases entered
      exact .nowhere _
  | cons entrance later ih =>
      obtain ⟨ended, middle, first, rest⟩ := bind_eq_some.mp entered
      obtain ⟨others, _, second, same⟩ := bind_eq_some.mp rest
      cases same
      obtain ⟨rfl, visits⟩ := enter_visits first
      exact visits.trans (ih second)

end

theorem enter_returns [Timeline σ] [AdvancingClock σ] (cycle : Cycle) (cursor : Nat) (entrance : Entrance)
    (before : Recorded σ) : Returns (fun patience => cycle.enter patience cursor entrance) before := by
  have attempts (position cursor : Nat) (state : Recorded σ) :
      Returns (fun patience => do return (← cycle.attempt patience position, cursor)) state :=
    (cycle.attempt_returns position state).bind fun _ _ _ => .pure _ _
  cases entrance with
  | attempt position => exact attempts position cursor before
  | start => exact .perform_bind (attempts initialCursor initialCursor _)
  | advance => exact .perform_bind (attempts (cursor + 1) (cursor + 1) _)
  | untilHandoff =>
      obtain ⟨after, settles⟩ := cycle.runUntilHandoff_settles before
      exact ⟨_, after, settles⟩

theorem enterAll_returns [Timeline σ] [AdvancingClock σ] (cycle : Cycle) (cursor : Nat)
    (entrances : List Entrance) (before : Recorded σ) :
    Returns (fun patience => cycle.enterAll patience cursor entrances) before := by
  induction entrances generalizing cursor before with
  | nil => exact .pure _ _
  | cons entrance later ih =>
      refine (cycle.enter_returns cursor entrance before).bind fun ended middle _ => ?_
      exact (ih ended.2 middle).bind fun _ _ _ => .pure _ _

end

end Cycle

end BootFlow
