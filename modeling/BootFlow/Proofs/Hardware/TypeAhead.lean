import BootFlow.Proofs.Hardware.Receiver
import BootFlow.Proofs.Wait.Keystroke

namespace BootFlow

theorem tail_dropWhile_eq_nil {α : Type} {wanted : α → Bool} {list : List α} :
    (list.dropWhile wanted).tail = [] ↔ ∀ element ∈ list.dropLast, wanted element := by
  induction list with
  | nil => simp
  | cons first rest ih =>
      cases rest with
      | nil => cases passes : wanted first <;> simp [passes]
      | cons second others =>
          rw [List.dropLast_cons_cons, List.forall_mem_cons, ← ih]
          cases passes : wanted first with
          | true => rw [List.dropWhile_cons_of_pos passes, eq_self, true_and]
          | false => simp [passes]

namespace Cpu1900

open Clock Keyboard Keystroke Ports Receiver SerialLine Waiting

/-! Keys typed ahead are thrown away up to the first byte that is none. The look that takes this
byte finds no key, and to the drain that is the end of what was typed. -/

variable {σ : Type} [Ports σ] [Clock σ] [Logging σ] [Receiver σ]

def isKey (byte : UInt8) : Bool :=
  (scanOfByte byte).isSome

theorem pollKey_waiting {board : Cpu1900 σ} {bytes : List UInt8} (known : inbox board.machine = some ⟨bytes, []⟩) :
    (pollKey board).1 = bytes.head?.bind scanOfByte ∧
      inbox (pollKey board).2.machine = some ⟨bytes.tail, []⟩ := by
  obtain ⟨later, knownLater, polls⟩ := pollKey_polls known
  change (com1.pollKey board.machine).1 = _ ∧ inbox (com1.pollKey board.machine).2 = _
  generalize com1.pollKey board.machine = polled at knownLater polls ⊢
  obtain ⟨answer, machine⟩ := polled
  cases polls with
  | empty nothing delivers =>
      obtain rfl : bytes = [] := nothing
      rw [knownLater, delivers.eq]
      exact ⟨rfl, rfl⟩
  | taken waits delivers =>
      obtain rfl : bytes = _ := waits
      rw [knownLater, delivers.eq]
      exact ⟨rfl, rfl⟩

/-- A wait without time takes one byte, if there is one, and hears it if it means a key. -/
theorem await_waiting {board : Cpu1900 σ} {bytes : List UInt8} (known : inbox board.machine = some ⟨bytes, []⟩) :
    ∃ after, (∀ patience, await (patience + 1) (.millis 0) board = some (bytes.head?.bind scanOfByte, after)) ∧
      inbox after.machine = some ⟨bytes.tail, []⟩ := by
  have unmoved {state : σ} {left : List UInt8} (held : inbox state = some ⟨left, []⟩) :
      inbox (now state).2 = some ⟨left, []⟩ := by
    obtain ⟨later, knownLater, delivers⟩ := now_keeps state _ held
    rw [knownLater, delivers.eq]
  let begun := (now board).2
  have knownBegun : inbox begun.machine = some ⟨bytes, []⟩ := unmoved known
  obtain ⟨answer, knownPolled⟩ := pollKey_waiting knownBegun
  let deadline : Deadline := ⟨(now board).1⟩
  have waits (patience : Nat) :
      await (patience + 1) (.millis 0) board = awaitBy (some deadline) (patience + 1) begun := rfl
  cases heard : bytes.head?.bind scanOfByte with
  | some scan =>
      refine ⟨(pollKey begun).2, fun patience => ?_, knownPolled⟩
      have turned : turn (some deadline) begun = (.key scan, (pollKey begun).2) := by
        simp only [turn, Action.bind_apply, answer, heard]
        rfl
      rw [waits, awaitBy_succ, turned]
  | none =>
      -- The deadline is the moment at which the wait began, so one look is all there is time for.
      have begins : (now board.machine).1 ≤ (now begun.machine).1 :=
        now_le_now (Option.isSome_of_eq_some known)
      have looks : (now begun.machine).1 ≤ (now (com1.pollKey begun.machine).2).1 :=
        now_le_pollKey (Option.isSome_of_eq_some knownBegun)
      have passed : deadline.endMillis ≤ (now (pollKey begun).2).1 := Nat.le_trans begins looks
      refine ⟨(now (pollKey begun).2).2, fun patience => ?_, unmoved knownPolled⟩
      have turned : turn (some deadline) begun = (.timeUp, (now (pollKey begun).2).2) := by
        simp only [turn, Action.bind_apply, answer, heard, Deadline.idleOnce_passed passed]
        rfl
      rw [waits, awaitBy_succ, turned]

theorem drainUpTo_waiting {board : Cpu1900 σ} {bytes : List UInt8} (known : inbox board.machine = some ⟨bytes, []⟩) :
    ∃ drained, (∀ patience keys, bytes.length < keys → drainUpTo (patience + 1) keys board = some ((), drained)) ∧
      inbox drained.machine = some ⟨(bytes.dropWhile isKey).tail, []⟩ := by
  induction bytes generalizing board with
  | nil =>
      obtain ⟨after, awaits, left⟩ := await_waiting known
      refine ⟨after, fun patience keys bound => ?_, left⟩
      obtain ⟨keys, rfl⟩ := Nat.exists_eq_add_of_le' bound
      exact bind_eq_some.mpr ⟨none, after, awaits patience, rfl⟩
  | cons first rest ih =>
      obtain ⟨after, awaits, left⟩ := await_waiting known
      cases heard : scanOfByte first with
      | none =>
          -- The byte is gone, but to the drain the line looks empty.
          have awaited (patience : Nat) : await (patience + 1) (.millis 0) board = some (none, after) := by
            rw [awaits, ← heard]
            rfl
          have stops : (first :: rest).dropWhile isKey = first :: rest :=
            List.dropWhile_cons_of_neg (by simp [isKey, heard])
          refine ⟨after, fun patience keys bound => ?_, by rw [stops]; exact left⟩
          obtain ⟨keys, rfl⟩ := Nat.exists_eq_add_of_le' (Nat.zero_lt_of_lt bound)
          exact bind_eq_some.mpr ⟨none, after, awaited patience, rfl⟩
      | some scan =>
          have awaited (patience : Nat) : await (patience + 1) (.millis 0) board = some (some scan, after) := by
            rw [awaits, ← heard]
            rfl
          have goes : (first :: rest).dropWhile isKey = rest.dropWhile isKey :=
            List.dropWhile_cons_of_pos (by simp [isKey, heard])
          obtain ⟨drained, drains, ended⟩ := ih left
          refine ⟨drained, fun patience keys bound => ?_, by rw [goes]; exact ended⟩
          obtain ⟨keys, rfl⟩ := Nat.exists_eq_add_of_le' (Nat.zero_lt_of_lt bound)
          exact bind_eq_some.mpr
            ⟨some scan, after, awaited patience, drains patience keys (Nat.lt_of_succ_lt_succ bound)⟩

theorem drain_settles {board : Cpu1900 σ} {bytes : List UInt8} (known : inbox board.machine = some ⟨bytes, []⟩) :
    ∃ drained, Settles Keystroke.drain board () drained ∧
      inbox drained.machine = some ⟨(bytes.dropWhile isKey).tail, []⟩ := by
  obtain ⟨drained, drains, left⟩ := drainUpTo_waiting known
  refine ⟨drained, ⟨bytes.length + 1, fun patience bound => ?_⟩, left⟩
  obtain ⟨patience, rfl⟩ := Nat.exists_eq_add_of_le' (Nat.zero_lt_of_lt bound)
  exact drains patience _ bound

/-- A drain gets as far as the first byte that is no key. So with nothing more to come the line is
empty afterwards exactly if no byte but the last was such a one. -/
theorem drain_stops {board : Cpu1900 σ} {bytes : List UInt8} (known : inbox board.machine = some ⟨bytes, []⟩) :
    ∃ drained, Settles Keystroke.drain board () drained ∧
      inbox drained.machine = some ⟨(bytes.dropWhile isKey).tail, []⟩ ∧
      (pollKey drained).1 = (bytes.dropWhile isKey).tail.head?.bind scanOfByte ∧
      ((readPort com1.statusPort drained.machine).1 &&& dataReady = 0 ↔ ∀ byte ∈ bytes.dropLast, isKey byte) := by
  obtain ⟨drained, settles, left⟩ := drain_settles known
  refine ⟨drained, settles, left, (pollKey_waiting left).1, ?_⟩
  rw [status_answer left, tail_dropWhile_eq_nil]

section

open Scripted

/-- A rig at whose first serial line these bytes wait. -/
def typedAhead (bytes : List UInt8) : Cpu1900 Rig where
  machine :=
    { values := [(com1.statusPort, transmitterEmpty)]
      arrivals := bytes.map fun byte => { idles := 0, byte } }

/-- Of the keys three, a letter, four and enter the first goes, and the letter with it. -/
theorem drain_stops_letter :
    let board := typedAhead [0x33, 0x71, 0x34, 0x0d]
    inbox board.machine = some ⟨[0x33, 0x71, 0x34, 0x0d], []⟩ ∧
    ∃ drained, Settles Keystroke.drain board () drained ∧ inbox drained.machine = some ⟨[0x34, 0x0d], []⟩ ∧
      (readPort com1.statusPort drained.machine).1 &&& dataReady ≠ 0 := by
  intro board
  have known : inbox board.machine = some ⟨[0x33, 0x71, 0x34, 0x0d], []⟩ := by decide +kernel
  obtain ⟨drained, settles, left, _, empty⟩ := drain_stops known
  refine ⟨known, drained, settles, left, fun idle => ?_⟩
  exact absurd (empty.mp idle 0x71 (by decide)) (by decide)

/-- A letter and the key three wait. Throwing them away leaves the key, and it is heard later. -/
theorem drain_leaves_key :
    let board := typedAhead [0x71, 0x33]
    inbox board.machine = some ⟨[0x71, 0x33], []⟩ ∧
    ∃ drained, Settles Keystroke.drain board () drained ∧
      (readPort com1.statusPort drained.machine).1 &&& dataReady ≠ 0 ∧ (pollKey drained).1 = some 0x04 := by
  intro board
  have known : inbox board.machine = some ⟨[0x71, 0x33], []⟩ := by decide +kernel
  obtain ⟨drained, settles, left⟩ := drain_settles known
  have waits : inbox drained.machine = some ⟨[0x33], []⟩ := left
  refine ⟨known, drained, settles, fun idle => ?_, (pollKey_waiting waits).1⟩
  exact absurd ((status_answer waits).mp idle) (by decide)

end

end Cpu1900

end BootFlow
