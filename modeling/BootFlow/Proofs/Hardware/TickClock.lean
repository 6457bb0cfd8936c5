import BootFlow.Hardware.TickClock
import BootFlow.Proofs.Platform.Action
import BootFlow.Wait
import Mathlib.Order.Monotone.Basic

namespace BootFlow

open Clock

/-! The tick clock adds up what its counter went on by. A counter that is read at least once a day
makes it exact, over any number of midnights. No counter at all makes it go back. -/

namespace TickClock

/-- The clock after a reading of this number. The first reading starts it. -/
def reading (counter : Nat → UInt32) : Nat → TickClock
  | 0 => start (counter 0)
  | number + 1 => (reading counter number).observe (counter (number + 1))

/-- The counter shows the ticks since the last midnight, and is never left alone for a whole day. -/
structure Follows (counter : Nat → UInt32) (ticks : Nat → Nat) : Prop where
  shows : ∀ number, (counter number).toNat = ticks number % ticksPerDay.toNat
  onward : ∀ number, ticks number ≤ ticks (number + 1)
  often : ∀ number, ticks (number + 1) - ticks number < ticksPerDay.toNat

/-- Less than a day passes at most one midnight, so the two showings tell how long it was. -/
theorem elapsed_toNat {earlier later : UInt32} {before after : Nat}
    (showsBefore : earlier.toNat = before % ticksPerDay.toNat)
    (showsAfter : later.toNat = after % ticksPerDay.toNat) (onward : before ≤ after)
    (withinDay : after - before < ticksPerDay.toNat) :
    (elapsed earlier later).toNat = after - before := by
  have day : ticksPerDay.toNat = 1573040 := rfl
  rw [day] at showsBefore showsAfter withinDay
  unfold elapsed
  split
  · rename_i sameDay
    have ordered := UInt32.le_iff_toNat_le.mp sameDay
    rw [UInt32.toNat_sub_of_le _ _ sameDay]
    omega
  · rename_i nextDay
    have ordered : later.toNat < earlier.toNat := by
      rw [UInt32.le_iff_toNat_le] at nextDay
      omega
    have tillMidnight : earlier ≤ ticksPerDay := by
      rw [UInt32.le_iff_toNat_le]
      omega
    have small : 1573040 - earlier.toNat + later.toNat < 2 ^ 32 := by omega
    rw [UInt32.toNat_add, UInt32.toNat_sub_of_le _ _ tillMidnight, day, Nat.mod_eq_of_lt small]
    omega

theorem Follows.total {counter : Nat → UInt32} {ticks : Nat → Nat} (follows : Follows counter ticks)
    (number : Nat) :
    ticks 0 ≤ ticks number ∧
      (reading counter number).total = ticks 0 % ticksPerDay.toNat + (ticks number - ticks 0) := by
  induction number with
  | zero => exact ⟨Nat.le_refl _, by rw [Nat.sub_self]; exact follows.shows 0⟩
  | succ number ih =>
      obtain ⟨sinceStart, total⟩ := ih
      have onward := follows.onward number
      have last : (reading counter number).last = counter number := by cases number <;> rfl
      have went := elapsed_toNat (follows.shows number) (follows.shows (number + 1)) onward (follows.often number)
      have added : (reading counter (number + 1)).total =
          (reading counter number).total + (elapsed (reading counter number).last (counter (number + 1))).toNat := rfl
      refine ⟨Nat.le_trans sinceStart onward, ?_⟩
      rw [added, total, last, went]
      omega

theorem total_mono (counter : Nat → UInt32) : Monotone fun number => (reading counter number).total :=
  monotone_nat_of_le_succ fun _ => Nat.le_add_right _ _

theorem toMillis_mono : Monotone toMillis := fun _ _ later =>
  Nat.div_le_div_right (Nat.mul_le_mul_right 1000 (Nat.mul_le_mul_right 65536 later))

theorem millis_mono (counter : Nat → UInt32) : Monotone fun number => (reading counter number).millis :=
  toMillis_mono.comp (total_mono counter)

/-- A machine that has a tick clock and no more. What the counter shows at a reading is up to it. -/
structure Ticking where
  clock : TickClock
  counter : Nat → UInt32
  number : Nat

instance : Clock Ticking where
  now := modifyGet fun machine =>
    let clock := machine.clock.observe (machine.counter (machine.number + 1))
    (clock.millis, { machine with clock, number := machine.number + 1 })
  idle _ := return ()

/-- The machine after a reading of this number. -/
def ticking (counter : Nat → UInt32) (number : Nat) : Ticking where
  clock := reading counter number
  counter := counter
  number := number

theorem now_ticking (counter : Nat → UInt32) (number : Nat) :
    now (ticking counter number) = ((reading counter (number + 1)).millis, ticking counter (number + 1)) := rfl

theorem expired_ticking (deadline : Deadline) (counter : Nat → UInt32) (number : Nat) :
    (deadline.expired (ticking counter number)).1 = true ↔
      deadline.endMillis ≤ (reading counter (number + 1)).millis := by
  simp only [Deadline.expired, Action.bind_apply, Action.pure_apply, now_ticking]
  exact decide_eq_true_iff

/-- A clock whose counter shows the time of day is exact, whatever midnights pass. Whatever its
counter shows, neither its ticks nor its milliseconds go back, and a deadline that has passed
has passed for good. -/
theorem counts_through_midnights (counter : Nat → UInt32) :
    (∀ ticks, Follows counter ticks → ∀ number,
      (reading counter number).total = ticks 0 % ticksPerDay.toNat + (ticks number - ticks 0)) ∧
    Monotone (fun number => (reading counter number).total) ∧
    Monotone (fun number => (reading counter number).millis) ∧
    ∀ (deadline : Deadline) (earlier later : Nat), earlier ≤ later →
      (deadline.expired (ticking counter earlier)).1 = true → (deadline.expired (ticking counter later)).1 = true := by
  refine ⟨fun ticks follows number => (follows.total number).2, total_mono counter, millis_mono counter, ?_⟩
  intro deadline earlier later onward passed
  rw [expired_ticking] at passed ⊢
  exact Nat.le_trans passed (millis_mono counter (Nat.succ_le_succ onward))

/-- A counter that is read every 1500000 ticks, a midnight in between each time. -/
theorem counts_through_midnights_nightly :
    let ticks := fun number : Nat => 1000000 + number * 1500000
    let counter := fun number => UInt32.ofNat (ticks number % ticksPerDay.toNat)
    Follows counter ticks ∧ (reading counter 3).total = 5500000 ∧
      (Deadline.expired ⟨100000000⟩ (ticking counter 0)).1 = true ∧
      (Deadline.expired ⟨100000000⟩ (ticking counter 5000)).1 = true := by
  intro ticks counter
  have follows : Follows counter ticks := by
    have day : ticksPerDay.toNat = 1573040 := rfl
    refine ⟨fun number => ?_, fun number => ?_, fun number => ?_⟩
    · have small : ticks number % ticksPerDay.toNat < 2 ^ 32 :=
        Nat.lt_trans (Nat.mod_lt _ (by decide)) (by decide)
      rw [UInt32.toNat_ofNat', Nat.mod_eq_of_lt small]
    · dsimp only [ticks]
      omega
    · dsimp only [ticks]
      omega
  have passed : (Deadline.expired ⟨100000000⟩ (ticking counter 0)).1 = true := by decide +kernel
  obtain ⟨exact, _, _, stays⟩ := counts_through_midnights counter
  have total : ticks 0 % ticksPerDay.toNat + (ticks 3 - ticks 0) = 5500000 := by decide
  exact ⟨follows, (exact ticks follows 3).trans total, passed, stays ⟨100000000⟩ 0 5000 (Nat.zero_le _) passed⟩

end TickClock

end BootFlow
