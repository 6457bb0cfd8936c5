import BootFlow.Menu
import BootFlow.Proofs.Platform.Action

namespace BootFlow.Menu

open Clock Console Keyboard Logging Machine Registers Waiting

/-! A run of the menu decides on a candidate once or twice: first recovery does,
and then an operator may. -/

/-- The session as recovery leaves it. -/
def recovered (registry : Registry) (decision : Recovery.Decision) : Session where
  registry := registry.promote decision.position
  selection := decision.position
  rule := some decision.rule

/-- How a session ends: with what was selected, or with one of its candidates
that an operator chose. -/
inductive Session.Ends (session : Session) : Session → Prop
  | kept (splashShown restarted : Bool) : Ends session { session with splashShown, restarted }
  | chosen {position : Nat}
      (listed : 1 ≤ position ∧ position ≤ session.registry.candidates.length)
      (splashShown restarted : Bool) :
      Ends session
        { registry := session.registry.promote position
          selection := position
          operatorChoice := true
          splashShown
          restarted }

variable {σ : Type}

theorem select_answer [Console σ] (registry : Registry) (position : Nat) (state : σ) :
    (select registry position state).1 = registry.promote position := by
  unfold select
  cases found : registry.at? position with
  | none => simp only [Registry.promote, found, Action.pure_apply]
  | some candidate => rfl

theorem choose_answer [Console σ] (session : Session) (position : Nat) (state : σ) :
    (choose session position state).1 =
      { session with
        registry := session.registry.promote position
        selection := position
        rule := none
        operatorChoice := true } := by
  simp only [choose, Action.bind_apply, Action.pure_apply, select_answer]

theorem reply_choose_iff [Clock σ] {escapeFrom : Deadline} {count position : Nat} {scan : UInt8} {state : σ} :
    (reply escapeFrom count scan state).1 = .choose position ↔ scan ≠ ScanCode.enter ∧ scan ≠ ScanCode.escape ∧
      (1 ≤ position ∧ position ≤ count) ∧ position = ScanCode.position (ScanCode.digitOfFunctionKey scan) := by
  unfold reply
  by_cases enter : scan = ScanCode.enter
  · simp [enter, Action.pure_apply]
  · rw [if_neg enter]
    by_cases escape : scan = ScanCode.escape
    · rw [if_pos escape, Action.bind_apply, Action.pure_apply]
      simp only [escape, ne_eq, not_true_eq_false, false_and, and_false, iff_false]
      split <;> exact nofun
    · rw [if_neg escape, Action.pure_apply]
      simp only [enter, escape, ne_eq, not_false_eq_true, true_and]
      split
      · rename_i listed
        constructor
        · rintro ⟨rfl⟩
          exact ⟨listed, rfl⟩
        · rintro ⟨-, rfl⟩
          rfl
      · rename_i unlisted
        constructor
        · exact nofun
        · rintro ⟨listed, rfl⟩
          exact absurd listed unlisted

theorem reply_answers [Clock σ] (escapeFrom : Deadline) (count : Nat) (scan : UInt8) :
    (reply escapeFrom count scan : Action σ Reply).Answers fun reply =>
      ∀ position, reply = .choose position → 1 ≤ position ∧ position ≤ count :=
  fun _ _ chooses => (reply_choose_iff.mp chooses).2.2.1

theorem evaluate_answer [Registers σ] [Console σ] [Logging σ] (state : σ) :
    (Recovery.evaluate state).1 = .ofState (Diagnostics.readRecoveryState state).1 := by
  simp only [Recovery.evaluate, Action.bind_apply]
  split <;> rfl

theorem selectByRecovery_answer [Registers σ] [Console σ] [Logging σ] (registry : Registry)
    (state : σ) :
    (selectByRecovery registry state).1 =
      recovered registry (.ofState (Diagnostics.readRecoveryState state).1) := by
  simp only [selectByRecovery, Action.bind_apply, Action.pure_apply, evaluate_answer, select_answer,
    recovered]

variable [Keyboard σ] [Clock σ] [Console σ]

theorem awaitSelection_answers (config : Config) (patience : Nat) (escapeFrom : Deadline)
    (session : Session) (keys : Nat) :
    (awaitSelection config patience escapeFrom session keys : Waiting σ Session).Answers
      session.Ends := by
  have unchanged : session.Ends session := .kept session.splashShown session.restarted
  induction keys with
  | zero => exact .outOfPatience
  | succ keys ih =>
      refine .after fun scan => ?_
      cases scan with
      | none => exact .pure unchanged
      | some scan =>
          refine .bind (.perform (reply_answers escapeFrom _ scan)) fun reply listed => ?_
          cases reply with
          | keep => exact .after fun _ => .pure unchanged
          | choose position =>
              refine .after fun _ => .perform fun state => ?_
              rw [choose_answer]
              exact .chosen (listed position rfl) session.splashShown session.restarted
          | ignore => exact ih

variable [Logging σ]

theorem deviceList_answers (config : Config) (patience : Nat) (session : Session) :
    (deviceList config patience session : Waiting σ Session).Answers session.Ends :=
  .after fun _ => .after fun _ => .after fun _ =>
    .bind (awaitSelection_answers _ _ _ session _) fun _ ended => .perform fun _ => ended

variable [Machine σ]

theorem paused_answers (patience : Nat) (session : Session) :
    (paused patience session : Waiting σ Session).Answers session.Ends :=
  .after fun _ => .after fun _ => .after fun _ => .perform fun _ => .kept session.splashShown true

theorem awaitMenuKey_answers (config : Config) (patience : Nat) (session : Session) :
    (awaitMenuKey config patience session : Waiting σ Session).Answers session.Ends := by
  refine .after fun scan => .after fun state => ?_
  split
  · exact .after fun _ => paused_answers patience session
  · exact .after fun _ => deviceList_answers config patience session
  · exact .perform fun _ => .kept session.splashShown session.restarted

variable [Registers σ]

theorem countdown_answers (config : Config) (patience : Nat) (session : Session) :
    (countdown config patience session : Waiting σ Session).Answers session.Ends := by
  refine .after fun _ => .after fun _ => .after fun _ => .after fun _ => ?_
  intro before answer after ended
  have shown := awaitMenuKey_answers config patience { session with splashShown := true } _ _ _ ended
  cases shown with
  | kept splashShown restarted => exact .kept splashShown restarted
  | chosen listed splashShown restarted =>
      exact @Session.Ends.chosen session _ listed splashShown restarted

theorem autoselect_ends {config : Config} {patience : Nat} {registry : Registry} {before after : σ}
    {session : Session}
    (selects : autoselect config patience registry before = some (session, after)) :
    (recovered registry (.ofState (Diagnostics.readRecoveryState before).1)).Ends session := by
  have rest := perform_bind_eq_some.mp selects
  rw [← selectByRecovery_answer registry before]
  refine Answers.after (fun offered => ?_) _ _ _ rest
  split
  · exact .after fun _ => countdown_answers config patience _
  · exact .perform fun _ => .kept _ _

/-- What recovery decides in this state. The run first marks that the firmware came up. -/
def decision (before : σ) : Recovery.Decision :=
  .ofState (Diagnostics.readRecoveryState (Diagnostics.markHappy before).2).1

theorem run_parts {config : Config} {patience : Nat} {registry : Registry} {before after : σ} {session : Session}
    (ran : run config patience registry before = some (session, after)) :
    ∃ decided, autoselect config patience registry (Diagnostics.markHappy before).2 = some (session, decided) ∧
      after = (finish session decided).2 := by
  have selects := perform_bind_eq_some.mp ran
  obtain ⟨_, decided, autoselects, finishes⟩ := bind_eq_some.mp selects
  have answered := perform_bind_eq_some.mp finishes
  cases answered
  exact ⟨decided, autoselects, rfl⟩

theorem run_finishes {config : Config} {patience : Nat} {registry : Registry} {before after : σ}
    {session : Session} (ran : run config patience registry before = some (session, after)) :
    (recovered registry (decision before)).Ends session ∧
      ∃ decided : σ, after = (finish session decided).2 := by
  obtain ⟨decided, autoselects, finishes⟩ := run_parts ran
  exact ⟨autoselect_ends autoselects, decided, finishes⟩

end BootFlow.Menu
