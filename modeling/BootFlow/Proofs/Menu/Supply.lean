import BootFlow.Proofs.Menu.Rounds
import BootFlow.Proofs.Menu.Stages
import BootFlow.Proofs.Wait.Supply

namespace BootFlow.Menu

open Clock Console Keyboard KeySupply Logging Machine Registers Waiting

/-! While no more than so many keys are left, every part of the menu but a pause comes to its end:
each wait has a deadline, and what goes round again has used up a key. -/

variable {σ : Type} [Keyboard σ] [Clock σ] [KeySupply σ] [Console σ] [Logging σ]
  (waits : SparesWaits (σ := σ) Supplied) {keys : Nat} {before after : σ}

include waits

theorem awaitKey_returns_within (millis : UInt32) (within : Within keys before) :
    Returns (fun patience => awaitKey patience (.millis millis)) before := by
  have begun := waits.begins before keys within
  exact .perform_bind (.bind (Keystroke.await_returns millis begun) fun _ _ _ => .perform_bind (.pure _ _))

theorem awaitKey_spends_within {patience : Nat} {millis : UInt32} {scan : Option UInt8} (within : Within keys before)
    (ended : awaitKey patience (.millis millis) before = some (scan, after)) :
    ∃ fewer, fewer + scan.toList.length ≤ keys ∧ Within fewer after := by
  obtain ⟨heard, awaited, rfl⟩ := awaitKey_parts ended
  obtain ⟨fewer, spent, left⟩ := Keystroke.await_spends (waits.begins before keys within) awaited
  exact ⟨fewer, spent, waits.ends heard fewer left⟩

theorem awaitSelection_returns_within {config : Config} {escapeFrom : Deadline} {session : Session}
    (within : Within keys before) :
    ReturnsInRounds (fun patience => awaitSelection config patience escapeFrom session) before := by
  induction keys using Nat.strongRecOn generalizing before with
  | ind keys ih =>
      refine .of_succ (.bind (awaitKey_returns_within waits _ within) fun scan heard settles => ?_)
      obtain ⟨patience, awaited⟩ := settles.ends
      obtain ⟨fewer, spent, left⟩ := awaitKey_spends_within waits within awaited
      cases scan with
      | none => exact (Returns.pure _ _).inRounds
      | some scan =>
          let count := session.registry.candidates.length
          have replied := reply_keeps waits.reads escapeFrom count scan heard fewer left
          refine .bind (.perform (reply escapeFrom count scan) heard) fun answer middle settles => ?_
          obtain ⟨_, ended⟩ := settles.ends
          obtain ⟨_, rfl⟩ := perform_eq_some.mp ended
          cases answer with
          | keep =>
              have ends (state : σ) :
                  Returns (fun _ => (do perform (print "\n"); return session : Waiting σ Session)) state :=
                .perform_bind (.pure _ _)
              exact (ends _).inRounds
          | choose position =>
              have ends (state : σ) : Returns
                  (fun _ => (do perform (print "\n"); perform (choose session position) : Waiting σ Session)) state :=
                .perform_bind (.perform _ _)
              exact (ends _).inRounds
          | ignore =>
              -- Only a key that is passed over leads to another round.
              exact ih fewer spent replied

theorem deviceList_returns_within {config : Config} {session : Session} (within : Within keys before) :
    Returns (fun patience => deviceList config patience session) before := by
  refine .bind (Keystroke.drain_returns within) fun _ drained settles => .perform_bind (.perform_bind ?_)
  obtain ⟨patience, ended⟩ := settles.ends
  have left := drain_keeps waits patience _ _ _ ended keys within
  have listed := listing_keeps waits.toSparesScreen config session drained keys left
  exact .bind (awaitSelection_returns_within waits listed).returns fun _ _ _ => .perform _ _

variable [Registers σ] (registers : SparesRegisters (σ := σ) Supplied writtenRegisters)

include registers

theorem untilKey_returns_within (config : Config) (registry : Registry) (within : Within keys before) :
    Returns (fun patience => untilKey config patience registry) before := by
  have output := waits.toSparesOutput
  have marked := markHappy_keeps output registers (by decide) before keys within
  have selected := selectByRecovery_keeps output registers registry (by decide) (by decide) _ keys marked
  have asked := offered_keeps output registers config _ keys selected
  refine .perform_bind (.perform_bind (.perform_bind ?_))
  split
  · have moved := move_keeps output .autoselect .countdown _ keys asked
    refine .perform_bind (.perform_bind ?_)
    have listed := listCandidates_keeps output registers
      (selectByRecovery registry (Diagnostics.markHappy before).2).1 (by decide) _ keys moved
    refine .bind (Keystroke.drain_returns listed) fun _ drained settles => .perform_bind (.perform_bind ?_)
    obtain ⟨patience, ended⟩ := settles.ends
    have left := drain_keeps waits patience _ _ _ ended keys listed
    have raised := raiseSplash_keeps waits.toSparesScreen config drained keys left
    have opened := move_keeps output .countdown .awaitMenuKey _ keys raised
    exact .bind (awaitKey_returns_within waits _ opened) fun scan heard _ => .perform _ _
  · exact .perform_bind (.pure _ _)

/-- A run comes to its end where the first key does not pause it. -/
theorem run_returns_within [Machine σ] (config : Config) (registry : Registry) (within : Within keys before)
    (unpaused : ∀ patience session phase opened,
      untilKey config patience registry before = some ((session, phase), opened) → phase ≠ .paused) :
    Returns (fun patience => run config patience registry) before := by
  simp only [run_eq]
  refine .bind (untilKey_returns_within waits registers config registry within)
    fun (session, phase) opened settles => ?_
  obtain ⟨patience, ended⟩ := settles.ends
  have left := untilKey_keeps waits registers config patience registry (List.Subset.refl _) _ _ _ ended keys within
  refine .bind ?_ fun session decided _ => .perform_bind (.pure _ _)
  cases phase with
  | paused => exact absurd rfl (unpaused _ _ _ _ ended)
  | deviceList => exact deviceList_returns_within waits left
  | autoselect | countdown | awaitMenuKey | awaitSelection | done => exact .pure _ _

end BootFlow.Menu
