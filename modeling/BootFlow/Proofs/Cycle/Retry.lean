import BootFlow.Proofs.Cycle.Deeds

namespace BootFlow.Cycle

open Clock Console Machine Recorded Text Waiting

/-! When nothing is left to boot, the machine is restarted once the time to the retry has gone by,
on any clock that goes forward while it idles. Without a retry it is parked. -/

/-- The calls before the wait for a retry. The last of them reads the moment that it starts at. -/
def retryOpening (millis : UInt32) (start : Nat) : List Call :=
  [.post Progress.bootFail,
    .print ("No bootable device.  Retrying in " ++ decimal (millis.toNat / 1000) ++ " seconds.\n"),
    .readClock start]

/-- The calls of a failed boot that is tried again. -/
def retryCalls (millis : UInt32) (start : Nat) (waiting : List Call) : List Call :=
  retryOpening millis start ++ waiting ++ [.print "Rebooting.\n", .reset]

theorem retryCalls_restarts (millis : UInt32) (start : Nat) {waiting : List Call}
    (quiet : ∀ call ∈ waiting, call.isQuiet = true) :
    (retryCalls millis start waiting).count .reset = 1 ∧ .halt ∉ retryCalls millis start waiting := by
  have unnoticed (call : Call) (loud : call.isQuiet = false) : call ∉ waiting := fun member =>
    Bool.false_ne_true (loud.symm.trans (quiet call member))
  constructor
  · simp [retryCalls, retryOpening, List.count_eq_zero_of_not_mem (unnoticed .reset rfl)]
  · simp [retryCalls, retryOpening, unnoticed .halt rfl]

variable {σ : Type} [Timeline σ] [Machine σ]

theorem calls_announceFailure [Logging σ] (before : Recorded σ) :
    (announceFailure before).2.calls = before.calls ++ [.post Progress.bootFail] :=
  calls_post Progress.bootFail before

variable [Console σ]

theorem calls_restart (before : Recorded σ) :
    (restart before).2.calls = before.calls ++ [.print "Rebooting.\n", .reset] := by
  change (reset (print "Rebooting.\n" before).2).2.calls = _
  rw [calls_reset, calls_print, List.append_assoc]
  rfl

theorem calls_restart_waited {millis : UInt32} {start : Nat} {waiting : List Call}
    {before waited : Recorded σ}
    (waits : waited.calls = before.calls ++ (retryOpening millis start ++ waiting)) :
    (restart waited).2.calls = before.calls ++ retryCalls millis start waiting := by
  rw [calls_restart, waits, List.append_assoc]
  rfl

theorem calls_park (before : Recorded σ) :
    (park before).2.calls = before.calls ++ [.print "No bootable device.\n", .halt] := by
  change (halt (print "No bootable device.\n" before).2).2.calls = _
  rw [calls_halt, calls_print, List.append_assoc]
  rfl

variable [Clock σ] [Logging σ] {cycle : Cycle} {before : Recorded σ}

theorem announceRetry_apply (millis : UInt32) (before : Recorded σ) :
    let announced := announceRetry millis (announceFailure before).2
    ∃ told : Recorded σ, announced.1 = ⟨(now told).1 + millis.toNat⟩ ∧ announced.2 = (now told).2 ∧
      announced.2.calls = before.calls ++ retryOpening millis (now told).1 := by
  intro announced
  let notice := "No bootable device.  Retrying in " ++ decimal (millis.toNat / 1000) ++ " seconds.\n"
  let told := (print notice (announceFailure before).2).2
  refine ⟨told, rfl, rfl, ?_⟩
  change (now told).2.calls = _
  rw [calls_now, calls_print, calls_announceFailure, List.append_assoc, List.append_assoc]
  rfl

theorem bootFail_parks (retry : cycle.retry = .never) :
    ∃ after, Settles cycle.bootFail before .sequenceExhausted after ∧
      after.calls = before.calls ++ [.post Progress.bootFail, .print "No bootable device.\n", .halt] := by
  refine ⟨_, ⟨0, fun patience _ => bootFail_never patience before retry⟩, ?_⟩
  rw [calls_park, calls_announceFailure, List.append_assoc]
  rfl

theorem bootFail_keeps_vigil [AdvancingClock σ] {millis : UInt32} (retry : cycle.retry = .after millis)
    (before : Recorded σ) :
    ∃ start first waiting last, ∃ waited : Recorded σ,
      Settles cycle.bootFail before .sequenceExhausted (restart waited).2 ∧
      waited.calls = before.calls ++ (retryOpening millis start ++ waiting) ∧ start ≤ first ∧
      Deadline.Vigil (start + millis.toNat) first waiting last ∧ last ≤ (now waited).1 := by
  obtain ⟨told, due, stands, opened⟩ := announceRetry_apply millis before
  have onward : (now told).1 ≤ (now (now told).2).1 := AdvancingClock.now_le told
  have near : (announceRetry millis (announceFailure before).2).1.endMillis ≤
      (now (announceRetry millis (announceFailure before).2).2).1 + 0xffffffff := by
    rw [due, stands]
    exact Nat.add_le_add onward (Nat.le_of_lt_succ millis.toNat_lt)
  obtain ⟨waiting, last, waited, awaited, continued, vigil, ended⟩ := Deadline.await_keeps_vigil near
  rw [due, stands] at vigil
  refine ⟨_, _, waiting, last, waited, bootFail_settles_after retry awaited, ?_, onward, vigil, ended⟩
  rw [continued, opened, List.append_assoc]

theorem bootFail_counts_down [SteadyClock σ] {millis : UInt32} (retry : cycle.retry = .after millis)
    (before : Recorded σ) :
    ∃ start waiting last, ∃ waited : Recorded σ,
      Settles cycle.bootFail before .sequenceExhausted (restart waited).2 ∧
      waited.calls = before.calls ++ (retryOpening millis start ++ waiting) ∧
      Deadline.Countdown (start + millis.toNat) start waiting last ∧ (now waited).1 = last ∧
      (IdlesInTime σ → last = start + millis.toNat) := by
  obtain ⟨told, due, stands, opened⟩ := announceRetry_apply millis before
  have again : (now (now told).2).1 = (now told).1 := SteadyClock.now_now told
  have near : (announceRetry millis (announceFailure before).2).1.endMillis ≤
      (now (announceRetry millis (announceFailure before).2).2).1 + 0xffffffff := by
    rw [due, stands, again]
    exact Nat.add_le_add_left (Nat.le_of_lt_succ millis.toNat_lt) _
  obtain ⟨waiting, last, waited, awaited, continued, countdown, ended, exactly⟩ := Deadline.await_counts_down near
  rw [due, stands, again] at countdown exactly
  refine ⟨_, waiting, last, waited, bootFail_settles_after retry awaited, ?_, countdown, ended, ?_⟩
  · rw [continued, opened, List.append_assoc]
  · exact fun inTime => exactly inTime (Nat.le_add_right _ _)

/-- A failed boot that is to be tried again waits for all of the time to the retry, restarts the
machine once, and never parks it, on any clock that goes forward. Every idle is given just what is
left at the reading before it, which is some time if only idles take the clock forward. If also no
idle goes beyond its time, the restart comes at the very moment. A failed boot that is not to be
tried again parks the machine at once. -/
theorem bootFail_waits_out (cycle : Cycle) (before : Recorded σ) :
    (∀ [AdvancingClock σ] millis, cycle.retry = .after millis → ∃ start first waiting last, ∃ ready : Recorded σ,
      Settles cycle.bootFail before .sequenceExhausted (reset ready).2 ∧
      (reset ready).2.calls = before.calls ++ retryCalls millis start waiting ∧
      (retryCalls millis start waiting).count .reset = 1 ∧ .halt ∉ retryCalls millis start waiting ∧
      start ≤ first ∧ Deadline.Vigil (start + millis.toNat) first waiting last ∧ start + millis.toNat ≤ last ∧
      ((∀ text (state : σ), (now state).1 ≤ (now (print text state).2).1) → last ≤ (now ready).1)) ∧
    (∀ [SteadyClock σ] millis, cycle.retry = .after millis → ∃ start waiting last, ∃ ready : Recorded σ,
      Settles cycle.bootFail before .sequenceExhausted (reset ready).2 ∧
      (reset ready).2.calls = before.calls ++ retryCalls millis start waiting ∧
      (retryCalls millis start waiting).count .reset = 1 ∧ .halt ∉ retryCalls millis start waiting ∧
      Deadline.Countdown (start + millis.toNat) start waiting last ∧ start + millis.toNat ≤ last ∧
      ((∀ text (state : σ), (now state).1 ≤ (now (print text state).2).1) →
        start + millis.toNat ≤ (now ready).1) ∧
      (IdlesInTime σ → last = start + millis.toNat ∧
        ((∀ text (state : σ), (now (print text state).2).1 = (now state).1) →
          (now ready).1 = start + millis.toNat))) ∧
    (cycle.retry = .never → ∃ after, Settles cycle.bootFail before .sequenceExhausted after ∧
      after.calls = before.calls ++ [.post Progress.bootFail, .print "No bootable device.\n", .halt]) := by
  refine ⟨fun {_} millis retry => ?_, fun {_} millis retry => ?_, bootFail_parks⟩
  · obtain ⟨start, first, waiting, last, waited, settles, waits, later, vigil, ended⟩ :=
      bootFail_keeps_vigil retry before
    obtain ⟨once, never⟩ := retryCalls_restarts millis start vigil.quiet
    let ready := (print "Rebooting.\n" waited).2
    refine ⟨start, first, waiting, last, ready, settles, calls_restart_waited waits, once, never, later, vigil,
      vigil.passed, fun onward => ?_⟩
    have printed : (now waited).1 ≤ (now ready).1 := onward "Rebooting.\n" waited.platform
    exact Nat.le_trans ended printed
  · obtain ⟨start, waiting, last, waited, settles, waits, countdown, ended, exactly⟩ :=
      bootFail_counts_down retry before
    obtain ⟨once, never⟩ := retryCalls_restarts millis start countdown.vigil.quiet
    let ready := (print "Rebooting.\n" waited).2
    refine ⟨start, waiting, last, ready, settles, calls_restart_waited waits, once, never, countdown,
      countdown.vigil.passed, fun onward => ?_, fun inTime => ⟨exactly inTime, fun still => ?_⟩⟩
    · have printed : (now waited).1 ≤ (now ready).1 := onward "Rebooting.\n" waited.platform
      exact Nat.le_trans (ended ▸ countdown.vigil.passed) printed
    · have printed : (now ready).1 = (now waited).1 := still "Rebooting.\n" waited.platform
      rw [printed, ended, exactly inTime]

/-- A clock that goes on by seven, so that the last idle is given less. -/
theorem bootFail_waits_out_short_last :
    let before : Recorded Scripted.Board := { platform := { now := 4, step := 7 } }
    let cycle (retry : RetryPolicy) : Cycle := ⟨{}, retry, true⟩
    (cycle (.after 20)).retry = .after 20 ∧ IdlesInTime Scripted.Board ∧ (cycle .never).retry = .never ∧
      (∃ start after, Settles (cycle (.after 20)).bootFail before .sequenceExhausted after ∧
        after.calls.count .reset = 1 ∧ .halt ∉ after.calls ∧ .readClock start ∈ after.calls ∧
        start + 20 ≤ after.platform.now) ∧
      (∃ start after, Settles (cycle (.after 20)).bootFail before .sequenceExhausted after ∧
        after.calls.count .reset = 1 ∧ .halt ∉ after.calls ∧ .readClock start ∈ after.calls ∧
        after.platform.now = start + 20) ∧
      ∃ after, Settles (cycle .never).bootFail before .sequenceExhausted after ∧
        after.calls = [.post 0xef, .print "No bootable device.\n", .halt] := by
  intro before cycle
  have inTime := Scripted.Board.idlesInTime
  have opening (start : Nat) (waiting : List Call) : .readClock start ∈ retryCalls 20 start waiting := by
    simp [retryCalls, retryOpening]
  refine ⟨rfl, inTime, rfl, ?_, ?_, (bootFail_waits_out (cycle .never) before).2.2 rfl⟩
  · obtain ⟨start, _, waiting, last, ready, settles, made, once, never, _, _, passed, ended⟩ :=
      (bootFail_waits_out (cycle (.after 20)) before).1 20 rfl
    replace made : (reset ready).2.calls = retryCalls 20 start waiting := made
    refine ⟨start, (reset ready).2, settles, ?_⟩
    rw [made]
    exact ⟨once, never, opening start waiting, Nat.le_trans passed (ended fun _ _ => Nat.le_refl _)⟩
  · obtain ⟨start, waiting, last, ready, settles, made, once, never, _, _, _, exactly⟩ :=
      (bootFail_waits_out (cycle (.after 20)) before).2.1 20 rfl
    replace made : (reset ready).2.calls = retryCalls 20 start waiting := made
    refine ⟨start, (reset ready).2, settles, ?_⟩
    rw [made]
    exact ⟨once, never, opening start waiting, (exactly inTime).2 fun _ _ => rfl⟩

end BootFlow.Cycle
