import BootFlow.Proofs.Menu.Handover
import BootFlow.Proofs.Menu.Supply
import BootFlow.Proofs.Scripted.Time

namespace BootFlow.Menu

open Console Keyboard Logging Machine Registers Scripted Scripted.Board Waiting

/-! A run on a board with a prepared keyboard comes to its end, and soon, unless somebody
freezes the splash and presses no key after that. -/

theorem awaitKey_spends {patience : Nat} {millis : UInt32} {before after : Board} {scan : Option UInt8}
    (ended : awaitKey patience (.millis millis) before = some (scan, after)) :
    Spends scan.toList.length millis.toNat before after := by
  obtain ⟨heard, awaited, rfl⟩ := awaitKey_parts ended
  exact await_spends awaited

theorem awaitKey_returns {board : Board} (ticks : 1 ≤ board.step) {timeout : Timeout}
    (ends : timeout = .forever → board.keys ≠ []) : Returns (fun patience => awaitKey patience timeout) board :=
  .perform_bind (.bind (await_returns ticks ends) fun _ _ _ => .perform_bind (.pure _ _))

theorem awaitSelection_spends {config : Config} {patience keys : Nat} {escapeFrom : Deadline}
    {session chosen : Session} {before after : Board}
    (ended : awaitSelection config patience escapeFrom session keys before = some (chosen, after)) :
    Spends 0 ((before.keys.length + 1) * config.selectionTimeout.toNat) before after := by
  have output := still_display.toSparesOutput
  have quiet {scan : UInt8} {answer : Reply} {heard replied : Board}
      (replies : reply escapeFrom session.registry.candidates.length scan heard = (answer, replied)) :
      Still heard replied :=
    (reply_keeps still_display.reads escapeFrom _ scan).of_eq replies
  induction keys generalizing before with
  | zero => cases ended
  | succ keys ih =>
      have once : config.selectionTimeout.toNat ≤ (before.keys.length + 1) * config.selectionTimeout.toNat :=
        Nat.le_mul_of_pos_left _ (Nat.succ_pos _)
      have round := awaitSelection_round ended
      cases round with
      | silent awaited => exact (awaitKey_spends awaited).weaken (Nat.zero_le _) once
      | kept awaited replies =>
          have still := (quiet replies).trans (output.prints "\n" _)
          exact ((awaitKey_spends awaited).trans still.spends).weaken (Nat.zero_le _) once
      | @chosen _ position _ replied awaited replies =>
          have chooses := choose_keeps output session position (print "\n" replied).2
          have still := (quiet replies).trans ((output.prints "\n" replied).trans chooses)
          exact ((awaitKey_spends awaited).trans still.spends).weaken (Nat.zero_le _) once
      | @ignored _ heard _ _ _ awaited replies rest =>
          -- The key that is passed over pays for the next wait.
          have waits := awaitKey_spends awaited
          have again := ih rest
          have fewer : heard.keys.length + 1 ≤ before.keys.length := waits.typed
          rw [(quiet replies).keys] at again
          refine (waits.trans ((quiet replies).spends.trans again)).weaken (Nat.zero_le _) ?_
          calc
            _ = (heard.keys.length + 1 + 1) * config.selectionTimeout.toNat := by
              rw [Nat.zero_add, Nat.succ_mul (heard.keys.length + 1), Nat.add_comm]
            _ ≤ _ := Nat.mul_le_mul_right _ (Nat.succ_le_succ fewer)

theorem deviceList_spends {config : Config} {patience : Nat} {session chosen : Session} {before after : Board}
    (ended : deviceList config patience session before = some (chosen, after)) :
    Spends 0 ((before.keys.length + 1) * config.selectionTimeout.toNat) before after := by
  obtain ⟨drained, selects, drains, awaited, rfl⟩ := deviceList_parts ended
  have drains := drainUpTo_spends drains
  have listed := listing_keeps still_display.screen config session drained
  have awaits := awaitSelection_spends awaited
  have left := leave_keeps still_display.toSparesOutput .awaitSelection chosen selects
  rw [listed.keys] at awaits
  refine (drains.trans (listed.spends.trans (awaits.trans left.spends))).weaken (Nat.zero_le _) ?_
  have fewer : drained.keys.length + 1 ≤ before.keys.length + 1 := Nat.succ_le_succ drains.typed
  simpa only [Nat.zero_add, Nat.add_zero] using Nat.mul_le_mul_right _ fewer

theorem deviceList_returns {config : Config} {session : Session} {board : Board} (ticks : 1 ≤ board.step) :
    Returns (fun patience => deviceList config patience session) board :=
  deviceList_returns_within supplied_waits ⟨ticks, Nat.le_refl _⟩

theorem awaitKey_forever {patience : Nat} {before after : Board} {scan : Option UInt8}
    (ended : awaitKey patience .forever before = some (scan, after)) : before.keys ≠ [] := by
  intro silent
  obtain ⟨heard, awaited, _⟩ := awaitKey_parts ended
  cases (awaitBy_starves silent patience).symm.trans awaited

theorem paused_hears {patience : Nat} {session chosen : Session} {before after : Board}
    (ended : paused patience session before = some (chosen, after)) : before.keys ≠ [] := by
  have rest := perform_bind_eq_some.mp ended
  obtain ⟨_, heard, awaited, _⟩ := bind_eq_some.mp rest
  exact awaitKey_forever awaited

theorem paused_returns {session : Session} {board : Board} (ticks : 1 ≤ board.step) (keys : board.keys ≠ []) :
    Returns (fun patience => paused patience session) board :=
  .perform_bind (.bind (awaitKey_returns ticks fun _ => keys) fun _ _ _ => .perform_bind (.perform _ _))

theorem proceed_spends {config : Config} {patience : Nat} {session chosen : Session} {phase : Phase}
    {before after : Board} (ended : proceed config patience session phase before = some (chosen, after))
    (running : chosen.restarted = false) :
    Spends 0 ((before.keys.length + 1) * config.selectionTimeout.toNat) before after := by
  cases phase with
  | paused =>
      have restarts := paused_answer _ _ _ _ _ ended
      rw [restarts] at running
      cases running
  | deviceList => exact deviceList_spends ended
  | autoselect | countdown | awaitMenuKey | awaitSelection | done =>
      cases ended
      exact (Still.spends ⟨rfl, rfl, rfl⟩).weaken (Nat.le_refl _) (Nat.zero_le _)

theorem proceed_returns {config : Config} {session : Session} {phase : Phase} {board : Board}
    (ticks : 1 ≤ board.step) (keys : phase = .paused → board.keys ≠ []) :
    Returns (fun patience => proceed config patience session phase) board := by
  cases phase with
  | paused => exact paused_returns ticks (keys rfl)
  | deviceList => exact deviceList_returns ticks
  | autoselect | countdown | awaitMenuKey | awaitSelection | done => exact .pure _ _

theorem offered_still (config : Config) (registry : Registry) (board : Board) :
    Still board (offered config (selectByRecovery registry (Diagnostics.markHappy board).2).2).2 := by
  have output := still_display.toSparesOutput
  have registers := still_registers writtenRegisters
  have marks := markHappy_keeps output registers (by decide) board
  have selects := selectByRecovery_keeps output registers registry (by decide) (by decide)
    (Diagnostics.markHappy board).2
  exact marks.trans (selects.trans (offered_keeps output registers config _))

theorem listed_still (session : Session) (board : Board) :
    Still board (listCandidates session (move .autoselect .countdown board).2).2 := by
  have output := still_display.toSparesOutput
  have moves := move_keeps output .autoselect .countdown board
  exact moves.trans (listCandidates_keeps output (still_registers writtenRegisters) session (by decide) _)

theorem raised_still (config : Config) (board : Board) :
    Still board (move .countdown .awaitMenuKey (raiseSplash config board).2).2 :=
  (raiseSplash_keeps still_display.screen config board).trans (move_keeps still_display.toSparesOutput _ _ _)

theorem untilKey_spends {config : Config} {patience : Nat} {registry : Registry} {before middle : Board}
    {session : Session} {phase : Phase}
    (ended : untilKey config patience registry before = some ((session, phase), middle)) :
    Spends 0 config.menuWait.toNat before middle := by
  have output := still_display.toSparesOutput
  have rest := perform_bind_eq_some.mp ended
  obtain ⟨recovered, decided, selects, rest⟩ := bind_eq_some.mp rest
  obtain ⟨_, rfl⟩ := perform_eq_some.mp selects
  obtain ⟨attended, asked, asks, rest⟩ := bind_eq_some.mp rest
  obtain ⟨_, rfl⟩ := perform_eq_some.mp asks
  have asks := offered_still config registry before
  split at rest
  · have rest := perform_bind_eq_some.mp rest
    have rest := perform_bind_eq_some.mp rest
    obtain ⟨_, drained, drains, rest⟩ := bind_eq_some.mp rest
    have rest := perform_bind_eq_some.mp rest
    have rest := perform_bind_eq_some.mp rest
    obtain ⟨scan, heard, awaited, goes⟩ := bind_eq_some.mp rest
    have lists := asks.trans (listed_still recovered _)
    have drains := drainUpTo_spends drains
    have raises := raised_still config drained
    have awaits := awaitKey_spends awaited
    obtain ⟨_, rfl⟩ := perform_eq_some.mp goes
    have goes := heed_keeps output config { recovered with splashShown := true } scan heard
    have opens := lists.spends.trans (drains.trans raises.spends)
    refine (opens.trans (awaits.trans goes.spends)).weaken (Nat.zero_le _) (Nat.le_of_eq ?_)
    simp only [Nat.zero_add, Nat.add_zero]
  · have leaves : (do return (← perform (leave .autoselect recovered), Phase.done) :
        Waiting Board (Session × Phase)).Keeps Still :=
      (Keeps.perform (leave_keeps output _ _)).bind fun _ => .pure _
    exact (asks.trans (leaves _ _ _ rest)).spends.weaken (Nat.le_refl _) (Nat.zero_le _)

theorem untilKey_returns {config : Config} {registry : Registry} {board : Board} (ticks : 1 ≤ board.step) :
    Returns (fun patience => untilKey config patience registry) board :=
  untilKey_returns_within supplied_waits (supplied_registers writtenRegisters) config registry
    ⟨ticks, Nat.le_refl _⟩

theorem run_spends {config : Config} {patience : Nat} {registry : Registry} {session : Session}
    {before after : Board} (ran : run config patience registry before = some (session, after))
    (running : session.restarted = false) :
    Spends 0 (config.menuWait.toNat + (before.keys.length + 1) * config.selectionTimeout.toNat) before after := by
  rw [run_eq] at ran
  obtain ⟨⟨first, phase⟩, middle, opened, rest⟩ := bind_eq_some.mp ran
  obtain ⟨chosen, decided, proceeds, rest⟩ := bind_eq_some.mp rest
  have answered := perform_bind_eq_some.mp rest
  cases answered
  have opens := untilKey_spends opened
  have goes := proceed_spends proceeds running
  have closes := finish_keeps (still_registers writtenRegisters) still_display.hides session (by decide)
    (fun _ => by decide) decided
  refine (opens.trans (goes.trans closes.spends)).weaken (Nat.zero_le _) (Nat.add_le_add_left ?_ _)
  exact Nat.mul_le_mul_right _ (Nat.succ_le_succ opens.typed)

/-- A frozen splash waits for a key for ever, and nothing else in the menu does. -/
theorem run_returns_iff {config : Config} {registry : Registry} {board : Board} (ticks : 1 ≤ board.step) :
    Returns (fun patience => run config patience registry) board ↔
      ¬∃ session frozen,
        Settles (fun patience => untilKey config patience registry) board (session, .paused) frozen ∧
          frozen.keys = [] := by
  constructor
  · rintro ⟨session, after, enough, ran⟩ ⟨first, frozen, ⟨more, heard⟩, silent⟩
    -- With patience enough for both, the run would have to go on from the frozen splash.
    have ended : run config (max enough more) registry board = some (session, after) :=
      ran _ (Nat.le_max_left _ _)
    rw [run_eq] at ended
    obtain ⟨⟨_, _⟩, middle, opened, rest⟩ := bind_eq_some.mp ended
    cases (heard _ (Nat.le_max_right _ _)).symm.trans opened
    obtain ⟨_, _, pauses, _⟩ := bind_eq_some.mp rest
    exact paused_hears pauses silent
  · intro heard
    simp only [run_eq]
    refine .bind (untilKey_returns ticks) fun (session, phase) middle settles => ?_
    obtain ⟨patience, opened⟩ := settles.ends
    have ticks : 1 ≤ middle.step := (untilKey_spends opened).step ▸ ticks
    refine .bind (proceed_returns ticks ?_) fun _ _ _ => .perform_bind (.pure _ _)
    rintro rfl silent
    exact heard ⟨session, middle, settles, silent⟩

/-- A run comes to its end unless the splash is frozen when there is no key left. Unless it
restarts the platform, the wait for the first key and one wait for each key and a last one are
all the time that it takes, and what was typed ahead takes none of it. -/
theorem run_in_time (config : Config) (registry : Registry) {board : Board} (ticks : 1 ≤ board.step) :
    (Returns (fun patience => run config patience registry) board ↔
      ¬∃ session frozen,
        Settles (fun patience => untilKey config patience registry) board (session, .paused) frozen ∧
          frozen.keys = []) ∧
    (∀ patience session after, run config patience registry board = some (session, after) →
      session.restarted = false →
      after.now ≤ board.now +
        (config.menuWait.toNat + (board.keys.length + 1) * config.selectionTimeout.toNat)) ∧
    ∃ drained, Settles Keystroke.drain board () drained ∧ drained.now = board.now := by
  refine ⟨run_returns_iff ticks, fun _ _ _ ran running => (run_spends ran running).within, ?_⟩
  obtain ⟨_, drained, settles⟩ := drain_returns ticks
  obtain ⟨patience, ended⟩ := settles.ends
  have drains := drainUpTo_spends ended
  exact ⟨drained, settles, Nat.le_antisymm drains.within drains.forward⟩

/-- An operator who takes a tenth of a second to pick the third disk is done in time. -/
theorem run_in_time_third :
    let board : Board := failingBoard 0x22 [⟨50, 0x86⟩, ⟨100, 0x04⟩]
    1 ≤ board.step ∧ ∃ (session : Session) (after : Board), run {} 20 threeDisks board = some (session, after) ∧
      session.restarted = false ∧ session.selection = 3 ∧ after.now ≤ 2500 + 3 * 15000 := by
  intro board
  have ticks : 1 ≤ board.step := by decide
  have told : (run {} 20 threeDisks board).map (fun (session, _) => (session.restarted, session.selection)) =
      some (false, 3) := by
    decide +kernel
  obtain ⟨⟨session, after⟩, ran, same⟩ := Option.map_eq_some_iff.mp told
  obtain ⟨running, selected⟩ := Prod.mk.inj same
  have within := (run_in_time {} threeDisks ticks).2.1 20 session after ran running
  exact ⟨ticks, session, after, ran, running, selected, Nat.le_trans within (by decide)⟩

end BootFlow.Menu
