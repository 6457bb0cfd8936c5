import BootFlow.Proofs.Platform.Recorded
import BootFlow.Scripted.Board
import BootFlow.Wait

namespace BootFlow

open Clock Waiting

/-! A wait for a deadline ends on every clock that goes forward, and does
nothing but look at the clock and idle. -/

/-- A clock that no reading takes back and that every idle with a budget takes
forward. -/
class AdvancingClock (σ : Type) [Clock σ] : Prop where
  now_le (state : σ) : (now state).1 ≤ (now (now state).2).1
  now_lt_idle (budget : UInt32) (state : σ) : (now state).1 < (now (idle (some budget) state).2).1

instance {σ : Type} [Timeline σ] [Clock σ] [AdvancingClock σ] : AdvancingClock (Recorded σ) where
  now_le recorded := AdvancingClock.now_le recorded.platform
  now_lt_idle budget recorded := AdvancingClock.now_lt_idle budget recorded.platform

instance : AdvancingClock Scripted.Board where
  now_le board := Nat.le_refl board.now
  now_lt_idle budget board := by
    change board.now < board.now + max 1 (min budget.toNat board.step)
    omega

namespace Deadline

variable {σ : Type} [Clock σ]

theorem idleOnce_passed {deadline : Deadline} {state : σ}
    (passed : deadline.endMillis ≤ (now state).1) :
    deadline.idleOnce state = (true, (now state).2) := by
  simp only [idleOnce, expired, Action.bind_apply, Action.pure_apply, passed, decide_true, if_true]

theorem idleOnce_ahead {deadline : Deadline} {state : σ}
    (ahead : ¬deadline.endMillis ≤ (now state).1) :
    deadline.idleOnce state =
      (false, (idle (some (deadline.left (now (now state).2).1)) (now (now state).2).2).2) := by
  simp only [idleOnce, expired, remaining, Action.bind_apply, Action.pure_apply, ahead, decide_false,
    Bool.false_eq_true, if_false]

theorem await_succ (deadline : Deadline) (patience : Nat) (state : σ) :
    deadline.await (patience + 1) state =
      if (deadline.idleOnce state).1 then some ((), (deadline.idleOnce state).2)
      else deadline.await patience (deadline.idleOnce state).2 := by
  simp only [await, Waiting.bind_apply, perform_apply, Option.bind_some]
  split <;> rfl

theorem await_settles_passed {deadline : Deadline} {state : σ} (passed : deadline.endMillis ≤ (now state).1) :
    Settles deadline.await state () (now state).2 := by
  refine .of_succ ⟨0, fun patience _ => ?_⟩
  change deadline.await (patience + 1) state = _
  rw [await_succ, idleOnce_passed passed]
  rfl

theorem await_settles_idled {deadline : Deadline} {before middle after : σ}
    (idled : deadline.idleOnce before = (false, middle)) (rest : Settles deadline.await middle () after) :
    Settles deadline.await before () after := by
  obtain ⟨enough, settled⟩ := rest
  refine .of_succ ⟨enough, fun patience bound => ?_⟩
  change deadline.await (patience + 1) before = _
  rw [await_succ, idled]
  exact settled patience bound

/-- What holds once the deadline has passed, and before it whenever it holds at every later moment,
holds in every state: what is left until the deadline bounds the turns of a wait. -/
theorem wait_induction (deadline : Deadline) {motive : σ → Prop}
    (passed : ∀ state, deadline.endMillis ≤ (now state).1 → motive state)
    (ahead : ∀ state, (now state).1 < deadline.endMillis →
      (∀ later, (now state).1 < (now later).1 → motive later) → motive state) (state : σ) : motive state := by
  generalize left : deadline.endMillis - (now state).1 = rest
  induction rest using Nat.strongRecOn generalizing state with
  | ind rest ih =>
      by_cases reached : deadline.endMillis ≤ (now state).1
      · exact passed state reached
      · exact ahead state (Nat.lt_of_not_le reached) fun later progress => ih _ (by omega) later rfl

theorem await_settles [AdvancingClock σ] (deadline : Deadline) (before : σ) :
    ∃ after, Settles deadline.await before () after := by
  induction before using wait_induction (σ := σ) deadline with
  | passed before reached => exact ⟨_, await_settles_passed reached⟩
  | ahead before early ih =>
      have looked := Nat.le_trans (AdvancingClock.now_le before) (AdvancingClock.now_le (now before).2)
      have progress := AdvancingClock.now_lt_idle (deadline.left (now (now before).2).1) (now (now before).2).2
      obtain ⟨after, settles⟩ := ih _ (Nat.lt_of_le_of_lt looked progress)
      exact ⟨after, await_settles_idled (idleOnce_ahead (Nat.not_le.mpr early)) settles⟩

section

variable {relation : σ → σ → Prop} [IsPreorder σ relation]
  (reads : (now : Action σ Nat).Keeps relation)
  (idles : ∀ budget, (idle budget : Action σ Unit).Keeps relation)

include reads

theorem after_keeps (millis : UInt32) : (after millis : Action σ Deadline).Keeps relation :=
  reads.bind fun _ => .pure _

theorem expired_keeps (deadline : Deadline) : (deadline.expired : Action σ Bool).Keeps relation :=
  reads.bind fun _ => .pure _

include idles

theorem idleOnce_keeps (deadline : Deadline) : (deadline.idleOnce : Action σ Bool).Keeps relation := by
  refine (expired_keeps reads deadline).bind fun passed => .ite (fun _ => .pure _) fun _ => ?_
  exact (reads.bind fun _ => .pure _).bind fun left => (idles (some left)).bind fun _ => .pure _

theorem await_keeps (deadline : Deadline) (patience : Nat) :
    (deadline.await patience : Waiting σ Unit).Keeps relation := by
  induction patience with
  | zero => exact .outOfPatience
  | succ patience ih =>
      refine .bind (.perform (idleOnce_keeps reads idles deadline)) fun passed => ?_
      cases passed with
      | true => exact .pure _
      | false => exact ih

end

end Deadline

/-- A clock that stands while it is read, and that every idle takes forward that is given any time. -/
class SteadyClock (σ : Type) [Clock σ] : Prop where
  now_now (state : σ) : (now (now state).2).1 = (now state).1
  now_lt_idle {budget : UInt32} (given : 0 < budget.toNat) (state : σ) :
    (now state).1 < (now (idle (some budget) state).2).1

/-- No idle takes longer than it may. -/
def IdlesInTime (σ : Type) [Clock σ] : Prop :=
  ∀ (budget : UInt32) (state : σ), 0 < budget.toNat →
    (now (idle (some budget) state).2).1 ≤ (now state).1 + budget.toNat

instance {σ : Type} [Timeline σ] [Clock σ] [SteadyClock σ] : SteadyClock (Recorded σ) where
  now_now recorded := SteadyClock.now_now recorded.platform
  now_lt_idle given recorded := SteadyClock.now_lt_idle given recorded.platform

instance : SteadyClock Scripted.Board where
  now_now _ := rfl
  now_lt_idle {budget} _ board := AdvancingClock.now_lt_idle budget board

theorem Scripted.Board.idlesInTime : IdlesInTime Scripted.Board := by
  intro budget board given
  change board.now + max 1 (min budget.toNat board.step) ≤ board.now + budget.toNat
  omega

namespace Deadline

/-- The calls of a wait up to a limit on a clock that may go on while it is read, from the first
reading to the last. Every idle is given what is left at the reading just before it. The last
reading is the first by which a turn begins behind the limit. -/
inductive Vigil (limit : Nat) : Nat → List Call → Nat → Prop
  | done {reading : Nat} (passed : limit ≤ reading) : Vigil limit reading [.readClock reading] reading
  | idled {reading again later last : Nat} {left : UInt32} {calls : List Call} (early : reading < limit)
      (onward : reading ≤ again) (allLeft : left.toNat = limit - again) (forward : again < later)
      (onwards : Vigil limit later calls last) :
      Vigil limit reading (.readClock reading :: .readClock again :: .idle (some left) :: calls) last

/-- The calls of a wait up to a limit, between two readings of the clock. Every idle is given what
is left at the reading before it, and the last reading is the first that is not before the limit. -/
inductive Countdown (limit : Nat) : Nat → List Call → Nat → Prop
  | done {reading : Nat} (passed : limit ≤ reading) : Countdown limit reading [.readClock reading] reading
  | idled {reading later last : Nat} {left : UInt32} {calls : List Call} (someLeft : 0 < left.toNat)
      (allLeft : reading + left.toNat = limit) (forward : reading < later)
      (onwards : Countdown limit later calls last) :
      Countdown limit reading (.readClock reading :: .readClock reading :: .idle (some left) :: calls) last

variable {limit reading last : Nat} {calls : List Call} {deadline : Deadline}

theorem Vigil.passed (vigil : Vigil limit reading calls last) : limit ≤ last := by
  induction vigil with
  | done passed => exact passed
  | idled _ _ _ _ _ ih => exact ih

theorem Vigil.quiet (vigil : Vigil limit reading calls last) : ∀ call ∈ calls, call.isQuiet = true := by
  induction vigil with
  | done _ => simp [Call.isQuiet]
  | idled _ _ _ _ _ ih => simpa [Call.isQuiet] using ih

/-- A countdown is a vigil whose second readings show what the first ones did. -/
theorem Countdown.vigil (countdown : Countdown limit reading calls last) : Vigil limit reading calls last := by
  induction countdown with
  | done passed => exact .done passed
  | idled someLeft allLeft forward _ ih =>
      exact .idled (by omega) (Nat.le_refl _) (Nat.eq_sub_of_add_eq' allLeft) forward ih

theorem toNat_left {now : Nat} (near : deadline.endMillis ≤ now + 0xffffffff) :
    (deadline.left now).toNat = deadline.endMillis - now := by
  have small : min (deadline.endMillis - now) 0xffffffff < 2 ^ 32 := by omega
  rw [left, UInt32.toNat_ofNat', Nat.mod_eq_of_lt small]
  omega

variable {σ : Type} [Timeline σ] [Clock σ]

theorem calls_turn (budget : UInt32) (before : Recorded σ) :
    (idle (some budget) (now (now before).2).2).2.calls =
      before.calls ++ [.readClock (now before).1, .readClock (now (now before).2).1, .idle (some budget)] := by
  rw [Recorded.calls_idle, Recorded.calls_now, Recorded.calls_now, List.append_assoc, List.append_assoc]
  rfl

/-- One turn before the limit: what is left at the second reading goes to the idle. -/
theorem idleOnce_vigilant [AdvancingClock σ] {before : Recorded σ}
    (near : deadline.endMillis ≤ (now before).1 + 0xffffffff) (ahead : (now before).1 < deadline.endMillis) :
    ∃ (again : Nat) (left : UInt32) (after : Recorded σ), deadline.idleOnce before = (false, after) ∧
      after.calls = before.calls ++ [.readClock (now before).1, .readClock again, .idle (some left)] ∧
      (now before).1 ≤ again ∧ left.toNat = deadline.endMillis - again ∧ again < (now after).1 := by
  have onward : (now before).1 ≤ (now (now before).2).1 := AdvancingClock.now_le before
  have stillNear : deadline.endMillis ≤ (now (now before).2).1 + 0xffffffff :=
    Nat.le_trans near (Nat.add_le_add_right onward _)
  refine ⟨_, deadline.left (now (now before).2).1, _, idleOnce_ahead (Nat.not_le.mpr ahead), calls_turn _ before,
    onward, toNat_left stillNear, ?_⟩
  have lookedAgain : (now (now before).2).1 ≤ (now (now (now before).2).2).1 := AdvancingClock.now_le (now before).2
  exact Nat.lt_of_le_of_lt lookedAgain (AdvancingClock.now_lt_idle _ (now (now before).2).2)

theorem await_keeps_vigil [AdvancingClock σ] {before : Recorded σ}
    (near : deadline.endMillis ≤ (now before).1 + 0xffffffff) :
    ∃ calls last after, Settles deadline.await before () after ∧ after.calls = before.calls ++ calls ∧
      Vigil deadline.endMillis (now before).1 calls last ∧ last ≤ (now after).1 := by
  induction before using wait_induction (σ := Recorded σ) deadline with
  | passed before reached =>
      exact ⟨_, _, _, await_settles_passed reached, Recorded.calls_now before, .done reached,
        AdvancingClock.now_le before⟩
  | ahead before early ih =>
      obtain ⟨again, left, middle, idled, turn, onward, allLeft, forward⟩ := idleOnce_vigilant near early
      have progress := Nat.lt_of_le_of_lt onward forward
      obtain ⟨calls, last, after, settles, continued, vigil, ends⟩ :=
        ih middle progress (Nat.le_trans near (Nat.add_le_add_right (Nat.le_of_lt progress) _))
      refine ⟨_, last, after, await_settles_idled idled settles, ?_, .idled early onward allLeft forward vigil, ends⟩
      rw [continued, turn, List.append_assoc]
      rfl

variable [SteadyClock σ]

/-- One turn before the limit: the clock is read twice, and shows the same, and what is left goes to the idle. -/
theorem idleOnce_counts {before : Recorded σ} (near : deadline.endMillis ≤ (now before).1 + 0xffffffff)
    (ahead : (now before).1 < deadline.endMillis) :
    ∃ (left : UInt32) (after : Recorded σ), deadline.idleOnce before = (false, after) ∧
      after.calls = before.calls ++ [.readClock (now before).1, .readClock (now before).1, .idle (some left)] ∧
      0 < left.toNat ∧ (now before).1 + left.toNat = deadline.endMillis ∧ (now before).1 < (now after).1 ∧
      (IdlesInTime σ → (now after).1 ≤ deadline.endMillis) := by
  have again : (now (now before).2).1 = (now before).1 := SteadyClock.now_now before
  have still : (now (now (now before).2).2).1 = (now before).1 := (SteadyClock.now_now (now before).2).trans again
  have allLeft := toNat_left near
  have idled := idleOnce_ahead (Nat.not_le.mpr ahead)
  rw [again] at idled
  have given : 0 < (deadline.left (now before).1).toNat := by omega
  refine ⟨deadline.left (now before).1, _, idled, ?_, given, by omega, ?_, fun within => ?_⟩
  · rw [calls_turn, again]
  · have forward := SteadyClock.now_lt_idle given (now (now before).2).2
    rwa [still] at forward
  · have bounded := within (deadline.left (now before).1) (now (now before).2).2.platform given
    change (now (idle (some (deadline.left (now before).1)) (now (now before).2).2).2).1 ≤
      (now (now (now before).2).2).1 + _ at bounded
    omega

/-- A wait counts down to its deadline. It ends at the deadline itself if no idle goes beyond it. -/
theorem await_counts_down {before : Recorded σ} (near : deadline.endMillis ≤ (now before).1 + 0xffffffff) :
    ∃ calls last after, Settles deadline.await before () after ∧ after.calls = before.calls ++ calls ∧
      Countdown deadline.endMillis (now before).1 calls last ∧ (now after).1 = last ∧
      (IdlesInTime σ → (now before).1 ≤ deadline.endMillis → last = deadline.endMillis) := by
  induction before using wait_induction (σ := Recorded σ) deadline with
  | passed before reached =>
      have again : (now (now before).2).1 = (now before).1 := SteadyClock.now_now before
      exact ⟨_, _, _, await_settles_passed reached, Recorded.calls_now before, .done reached, again,
        fun _ within => Nat.le_antisymm within reached⟩
  | ahead before early ih =>
      obtain ⟨left, middle, idled, turn, someLeft, allLeft, forward, bounded⟩ := idleOnce_counts near early
      obtain ⟨calls, last, after, settles, continued, countdown, ends, exactly⟩ :=
        ih middle forward (show deadline.endMillis ≤ (now middle).1 + 0xffffffff by omega)
      refine ⟨_, last, after, await_settles_idled idled settles, ?_, .idled someLeft allLeft forward countdown,
        ends, fun inTime _ => exactly inTime (bounded inTime)⟩
      rw [continued, turn, List.append_assoc]
      rfl

end Deadline

end BootFlow
