import BootFlow.Platform.Basic
import Mathlib.Order.Defs.Unbundled

namespace BootFlow

/-! Work on a platform is a function of the platform's state. Three things are
said of it here: what it comes to step by step, which relations between states
hold across it, and, for work that waits, that it ends once it has enough
patience. -/

variable {σ α β : Type} {relation : σ → σ → Prop}

namespace Action

theorem pure_apply (answer : α) (state : σ) :
    (pure answer : Action σ α) state = (answer, state) := rfl

theorem bind_apply (action : Action σ α) (next : α → Action σ β) (state : σ) :
    (action >>= next) state = next (action state).1 (action state).2 := rfl

/-- Whatever state the action starts in, it leaves one that is related to it. -/
def Keeps (relation : σ → σ → Prop) (action : Action σ α) : Prop :=
  ∀ state, relation state (action state).2

theorem Keeps.pure [Std.Refl relation] (answer : α) :
    Keeps relation (Pure.pure answer : Action σ α) :=
  fun state => refl state

theorem Keeps.bind [IsTrans σ relation] {action : Action σ α} {next : α → Action σ β}
    (first : action.Keeps relation) (second : ∀ answer, (next answer).Keeps relation) :
    Keeps relation (action >>= next) :=
  fun state => IsTrans.trans _ _ _ (first state) (second _ _)

theorem Keeps.ite {condition : Prop} [Decidable condition] {left right : Action σ α}
    (holds : condition → left.Keeps relation) (fails : ¬condition → right.Keeps relation) :
    Keeps relation (if condition then left else right) := by
  split
  · exact holds ‹_›
  · exact fails ‹_›

theorem Keeps.of_eq {action : Action σ α} (kept : action.Keeps relation) {before after : σ} {answer : α}
    (ended : action before = (answer, after)) : relation before after := by
  have related := kept before
  rwa [ended] at related

/-- Whatever state the action starts in, its answer is as described. -/
def Answers (described : α → Prop) (action : Action σ α) : Prop :=
  ∀ state, described (action state).1

end Action

namespace Waiting

theorem pure_apply (answer : α) (state : σ) :
    (pure answer : Waiting σ α) state = some (answer, state) := rfl

theorem bind_apply (work : Waiting σ α) (next : α → Waiting σ β) (state : σ) :
    (work >>= next) state = (work state).bind fun result => next result.1 result.2 := rfl

theorem bind_eq_some {work : Waiting σ α} {next : α → Waiting σ β} {before after : σ} {answer : β} :
    (work >>= next) before = some (answer, after) ↔
      ∃ first middle, work before = some (first, middle) ∧
        next first middle = some (answer, after) := by
  rw [bind_apply, Option.bind_eq_some_iff]
  constructor
  · rintro ⟨⟨first, middle⟩, worked, ended⟩
    exact ⟨first, middle, worked, ended⟩
  · rintro ⟨first, middle, worked, ended⟩
    exact ⟨(first, middle), worked, ended⟩

theorem perform_eq_some {action : Action σ α} {before after : σ} {answer : α} :
    perform action before = some (answer, after) ↔
      answer = (action before).1 ∧ after = (action before).2 := by
  rw [perform_apply, Option.some_inj, eq_comm, Prod.ext_iff]

theorem perform_bind_eq_some {action : Action σ α} {next : α → Waiting σ β} {before after : σ} {answer : β} :
    (perform action >>= next) before = some (answer, after) ↔
      next (action before).1 (action before).2 = some (answer, after) := Iff.rfl

/-- Whenever the work ends, the state it leaves is related to the one it started in. -/
def Keeps (relation : σ → σ → Prop) (work : Waiting σ α) : Prop :=
  ∀ before answer after, work before = some (answer, after) → relation before after

theorem Keeps.pure [Std.Refl relation] (answer : α) :
    Keeps relation (Pure.pure answer : Waiting σ α) := by
  intro before _ after ended
  cases ended
  exact refl before

theorem Keeps.perform {action : Action σ α} (kept : action.Keeps relation) :
    (perform action).Keeps relation := by
  intro before answer after ended
  obtain ⟨rfl, rfl⟩ := perform_eq_some.mp ended
  exact kept before

theorem Keeps.outOfPatience : (outOfPatience : Waiting σ α).Keeps relation :=
  fun _ _ _ ended => nomatch ended

theorem Keeps.bind [IsTrans σ relation] {work : Waiting σ α} {next : α → Waiting σ β}
    (first : work.Keeps relation) (second : ∀ answer, (next answer).Keeps relation) :
    Keeps relation (work >>= next) := by
  intro before answer after ended
  obtain ⟨middleAnswer, middle, worked, rest⟩ := bind_eq_some.mp ended
  exact IsTrans.trans _ _ _ (first _ _ _ worked) (second _ _ _ _ rest)

/-- Whenever the work ends, its answer is as described. -/
def Answers (described : α → Prop) (work : Waiting σ α) : Prop :=
  ∀ before answer after, work before = some (answer, after) → described answer

section

variable {described : α → Prop} {further : β → Prop}

theorem Answers.pure {answer : α} (fits : described answer) :
    Answers described (Pure.pure answer : Waiting σ α) := by
  intro _ _ _ ended
  cases ended
  exact fits

theorem Answers.perform {action : Action σ α} (answers : action.Answers described) :
    (perform action).Answers described := by
  intro before answer after ended
  obtain ⟨rfl, rfl⟩ := perform_eq_some.mp ended
  exact answers before

theorem Answers.outOfPatience : (outOfPatience : Waiting σ α).Answers described :=
  fun _ _ _ ended => nomatch ended

theorem Answers.bind {work : Waiting σ α} {next : α → Waiting σ β} (first : work.Answers described)
    (second : ∀ answer, described answer → (next answer).Answers further) :
    Answers further (work >>= next) := by
  intro before answer after ended
  obtain ⟨middleAnswer, middle, worked, rest⟩ := bind_eq_some.mp ended
  exact second middleAnswer (first _ _ _ worked) _ _ _ rest

theorem Answers.after {work : Waiting σ α} {next : α → Waiting σ β}
    (second : ∀ answer, (next answer).Answers further) : Answers further (work >>= next) := by
  intro before answer after ended
  obtain ⟨middleAnswer, middle, _, rest⟩ := bind_eq_some.mp ended
  exact second middleAnswer _ _ _ rest

end

/-- With enough patience the work ends, and more patience than that changes
neither its answer nor the state it leaves. -/
def Settles (work : Nat → Waiting σ α) (before : σ) (answer : α) (after : σ) : Prop :=
  ∃ enough, ∀ patience, enough ≤ patience → work patience before = some (answer, after)

theorem Settles.ends {work : Nat → Waiting σ α} {before after : σ} {answer : α}
    (settles : Settles work before answer after) :
    ∃ patience, work patience before = some (answer, after) := by
  obtain ⟨enough, settled⟩ := settles
  exact ⟨enough, settled enough (Nat.le_refl _)⟩

theorem Settles.bind {work : Nat → Waiting σ α} {next : Nat → α → Waiting σ β} {before middle after : σ}
    {first : α} {answer : β} (worked : Settles work before first middle)
    (rest : Settles (fun patience => next patience first) middle answer after) :
    Settles (fun patience => work patience >>= next patience) before answer after := by
  obtain ⟨enough, settled⟩ := worked
  obtain ⟨more, ended⟩ := rest
  refine ⟨max enough more, fun patience bound => bind_eq_some.mpr ⟨first, middle, ?_, ?_⟩⟩
  · exact settled patience (Nat.le_trans (Nat.le_max_left _ _) bound)
  · exact ended patience (Nat.le_trans (Nat.le_max_right _ _) bound)

theorem Settles.perform (action : Action σ α) (before : σ) :
    Settles (fun _ => perform action) before (action before).1 (action before).2 :=
  ⟨0, fun _ _ => rfl⟩

theorem Settles.of_succ {work : Nat → Waiting σ α} {before after : σ} {answer : α}
    (rest : Settles (fun patience => work (patience + 1)) before answer after) :
    Settles work before answer after := by
  obtain ⟨enough, settled⟩ := rest
  refine ⟨enough + 1, fun patience bound => ?_⟩
  obtain ⟨patience, rfl⟩ := Nat.exists_eq_add_of_le' (Nat.le_of_add_left_le bound)
  exact settled patience (Nat.le_of_add_le_add_right bound)

/-- With enough patience the work comes to its end. -/
def Returns (work : Nat → Waiting σ α) (before : σ) : Prop :=
  ∃ answer after, Settles work before answer after

theorem Returns.bind {work : Nat → Waiting σ α} {next : Nat → α → Waiting σ β} {before : σ}
    (first : Returns work before)
    (second : ∀ answer middle, Settles work before answer middle →
      Returns (fun patience => next patience answer) middle) :
    Returns (fun patience => work patience >>= next patience) before := by
  obtain ⟨answer, middle, settles⟩ := first
  obtain ⟨last, after, ended⟩ := second answer middle settles
  exact ⟨last, after, settles.bind ended⟩

theorem Returns.pure (answer : α) (before : σ) :
    Returns (fun _ => (Pure.pure answer : Waiting σ α)) before :=
  ⟨answer, before, 0, fun _ _ => rfl⟩

theorem Returns.perform (action : Action σ α) (before : σ) : Returns (fun _ => perform action) before :=
  ⟨_, _, .perform action before⟩

theorem Returns.perform_bind {action : Action σ α} {next : Nat → α → Waiting σ β} {before : σ}
    (rest : Returns (fun patience => next patience (action before).1) (action before).2) :
    Returns (fun patience => Waiting.perform action >>= next patience) before := by
  obtain ⟨last, after, ended⟩ := rest
  exact ⟨last, after, (Settles.perform action before).bind ended⟩

theorem Returns.of_succ {work : Nat → Waiting σ α} {before : σ}
    (rest : Returns (fun patience => work (patience + 1)) before) : Returns work before := by
  obtain ⟨answer, after, settles⟩ := rest
  exact ⟨answer, after, settles.of_succ⟩

/-- Work in rounds, each of which waits, comes to its end with enough of both: patience in the
first place, rounds in the second. -/
def ReturnsInRounds (work : Nat → Nat → Waiting σ α) (before : σ) : Prop :=
  ∃ answer after enough, ∀ patience rounds, enough ≤ patience → enough ≤ rounds →
    work patience rounds before = some (answer, after)

theorem ReturnsInRounds.returns {work : Nat → Nat → Waiting σ α} {before : σ}
    (ends : ReturnsInRounds work before) : Returns (fun patience => work patience patience) before := by
  obtain ⟨answer, after, enough, settled⟩ := ends
  exact ⟨answer, after, enough, fun patience bound => settled patience patience bound bound⟩

theorem Returns.inRounds {work : Nat → Waiting σ α} {before : σ} (ends : Returns work before) :
    ReturnsInRounds (fun patience _ => work patience) before := by
  obtain ⟨answer, after, enough, settled⟩ := ends
  exact ⟨answer, after, enough, fun patience _ bound _ => settled patience bound⟩

theorem ReturnsInRounds.bind {work : Nat → Waiting σ α} {next : Nat → Nat → α → Waiting σ β}
    {before : σ} (first : Returns work before)
    (second : ∀ answer middle, Settles work before answer middle →
      ReturnsInRounds (fun patience rounds => next patience rounds answer) middle) :
    ReturnsInRounds (fun patience rounds => work patience >>= next patience rounds) before := by
  obtain ⟨answer, middle, settles⟩ := first
  obtain ⟨last, after, more, ended⟩ := second answer middle settles
  obtain ⟨enough, settled⟩ := settles
  refine ⟨last, after, max enough more, fun patience rounds bound many => ?_⟩
  refine bind_eq_some.mpr ⟨answer, middle, ?_, ?_⟩
  · exact settled patience (Nat.le_trans (Nat.le_max_left _ _) bound)
  · exact ended patience rounds (Nat.le_trans (Nat.le_max_right _ _) bound)
      (Nat.le_trans (Nat.le_max_right _ _) many)

theorem ReturnsInRounds.of_succ {work : Nat → Nat → Waiting σ α} {before : σ}
    (rest : ReturnsInRounds (fun patience rounds => work patience (rounds + 1)) before) :
    ReturnsInRounds work before := by
  obtain ⟨answer, after, enough, settled⟩ := rest
  refine ⟨answer, after, enough + 1, fun patience rounds bound many => ?_⟩
  obtain ⟨rounds, rfl⟩ := Nat.exists_eq_add_of_le' (Nat.le_of_add_left_le many)
  exact settled patience rounds (Nat.le_of_succ_le bound) (Nat.le_of_add_le_add_right many)

end Waiting

end BootFlow
