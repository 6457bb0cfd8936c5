import BootFlow.Recovery

namespace BootFlow.Recovery

/-! The rules of recovery as a list, in which the first that applies decides. -/

structure Clause where
  applies : RecoveryState → Bool
  decide : RecoveryState → Decision

def clauses : List Clause :=
  [{ applies := fun state => state.lastStage < Stage.payload
     decide := fun _ => ⟨1, .noPayloadAttempt⟩ },
   { applies := fun state => Stage.osDriver ≤ state.lastStage
     decide := fun _ => ⟨1, .osReached⟩ },
   { applies := fun state => state.resetCause ≠ .software ∧ state.resetCause ≠ .watchdog
     decide := fun _ => ⟨1, .notRecoverable⟩ },
   { applies := fun state => state.failureCount < threshold
     decide := fun state => ⟨state.lastPosition.toNat, .waiting state.failureCount⟩ },
   { applies := fun _ => true
     decide := fun state => ⟨state.lastPosition.toNat + 1, .failed⟩ }]

/-- Which clause decides, counted from one. -/
def clauseNumber (state : RecoveryState) : Nat :=
  clauses.findIdx (·.applies state) + 1

theorem isRecoverable_iff (cause : ResetCause) :
    cause.isRecoverable = true ↔ ¬(cause ≠ .software ∧ cause ≠ .watchdog) := by
  cases cause <;> simp [ResetCause.isRecoverable]

/-- The decision is that of the first clause, and the first three clauses clear the count. -/
theorem ofState_clauses (state : RecoveryState) :
    (clauses.find? (·.applies state)).map (·.decide state) = some (.ofState state) ∧
      ((Decision.ofState state).clearsCount = true ↔ clauseNumber state ≤ 3) := by
  simp only [clauses, clauseNumber, List.find?_cons, List.findIdx_cons, Decision.clearsCount,
    Decision.ofState, Rule.ofState]
  by_cases unattempted : state.lastStage < Stage.payload
  · simp [unattempted]
  by_cases reached : Stage.osDriver ≤ state.lastStage
  · simp [unattempted, reached]
  by_cases recoverable : state.resetCause.isRecoverable = true
  · have caused := (isRecoverable_iff _).mp recoverable
    by_cases few : state.failureCount < threshold
    · simp [unattempted, reached, recoverable, caused, few]
    · simp [unattempted, reached, recoverable, caused, few]
  · have caused : state.resetCause ≠ .software ∧ state.resetCause ≠ .watchdog :=
      Decidable.not_not.mp fun other => recoverable ((isRecoverable_iff _).mpr other)
    simp [unattempted, reached, recoverable, caused]

end BootFlow.Recovery
