import BootFlow.Proofs.Cycle.Deeds

namespace BootFlow

open Clock Console Launcher Logging Machine Registers Waiting

/-! How far a boot cycle comes can be read off its milestones: the attempts, the
advances from one entry to the next, and the end, where the failure is shown
and the platform restarted or parked. -/

def Call.isMilestone : Call → Bool
  | .post code => code == Progress.advance || code == Progress.bootFail
  | .reset | .halt => true
  | call => call.isAttempt

theorem Call.isDeed_of_isMilestone {call : Call} (milestone : call.isMilestone = true) :
    call.isDeed = true := by
  cases call <;> first | rfl | cases milestone

namespace Recorded

variable {σ : Type} {before after : Recorded σ}

def milestones (recorded : Recorded σ) : List Call :=
  recorded.calls.filter Call.isMilestone

theorem milestones_of_deeds {more : List Call} (did : after.deeds = before.deeds ++ more) :
    after.milestones = before.milestones ++ more.filter Call.isMilestone := by
  have among (recorded : Recorded σ) : recorded.deeds.filter Call.isMilestone = recorded.milestones :=
    Call.filter_filter recorded.calls fun _ => Call.isDeed_of_isMilestone
  rw [← among after, did, List.filter_append, among before]

end Recorded

/-- What tells of one entry that comes back: its attempt, and the advance from it. -/
def Cycle.passed (cycle : Cycle) (entry : Entry) : List Call :=
  (cycle.attemptCall? entry).toList ++ [.post Progress.advance]

namespace Cycle

variable {σ : Type} [Timeline σ] {position : Nat}

theorem isAttempt_of_attemptCall? {cycle : Cycle} {entry : Entry} {call : Call}
    (attempts : cycle.attemptCall? entry = some call) : call.isAttempt = true := by
  cases entry <;> cases attempts <;> rfl

/-- The diagnostic port also shows the position and the kind of an entry. Neither
looks like an advance or a failure, as long as the entries fit their capacity. -/
theorem announcement_not_milestones (entry : Entry) (bounded : position ≤ Sequence.capacity) :
    (announcement entry position).filter Call.isMilestone = [] := by
  have shown : ∀ small ≤ Sequence.capacity, Call.isMilestone (.post (UInt8.ofNat small)) = false := by
    decide
  have kindShown : Call.isMilestone (.post entry.kind.code) = false := by
    cases entry <;> rfl
  have framed : Call.isMilestone (.post Progress.attemptBegin) = false ∧
      Call.isMilestone (.post Progress.attemptEnd) = false := ⟨rfl, rfl⟩
  have written : Call.isMilestone (.writeRegister Register.bootStage Stage.payload) = false := rfl
  simp [announcement, shown position bounded, kindShown, framed, written]

theorem milestones_attemptEntry [Registers σ] [Console σ] [Machine σ] [Launcher σ] [Logging σ]
    (cycle : Cycle) (entry : Entry) (bounded : position ≤ Sequence.capacity) (before : Recorded σ) :
    (cycle.attemptEntry entry position before).2.milestones =
      before.milestones ++ (cycle.attemptCall? entry).toList := by
  have did := cycle.deeds_attemptEntry entry position before
  rw [List.append_assoc] at did
  rw [Recorded.milestones_of_deeds did, List.filter_append, announcement_not_milestones entry bounded,
    List.nil_append]
  cases entry <;> rfl

theorem milestones_bootFail [Clock σ] [Console σ] [Machine σ] [Logging σ] {cycle : Cycle}
    {patience : Nat} {error : BootError} {before after : Recorded σ}
    (failed : cycle.bootFail patience before = some (error, after)) :
    after.milestones = before.milestones ++ [.post Progress.bootFail, cycle.retry.lastCall] := by
  rw [Recorded.milestones_of_deeds (deeds_bootFail failed), failure]
  cases cycle.retry <;> rfl

theorem milestones_lightStatus [Registers σ] (before : Recorded σ) :
    (lightStatus before).2.milestones = before.milestones := by
  rw [Recorded.milestones_of_deeds (deeds_lightStatus before)]
  exact List.append_nil _

theorem milestones_advance [Machine σ] (before : Recorded σ) :
    (post Progress.advance before).2.milestones = before.milestones ++ [.post Progress.advance] :=
  Recorded.milestones_of_deeds (Recorded.deeds_done (Recorded.calls_post Progress.advance before) rfl)

end Cycle

end BootFlow
