import BootFlow.Proofs.Platform.Action
import BootFlow.Scripted.Rig

namespace BootFlow

open Ports

/-! What is sent over a serial line, as it shows at the ports. Nothing is assumed of the line: its
status may change between two looks in any way. Each byte costs a bounded number of looks all the
same, and one that the line does not take is left out without holding up the others. -/

/-- A use of a port. That of reading it holds the answer. -/
inductive PortAccess
  | read (port : UInt16) (value : UInt8)
  | write (port : UInt16) (value : UInt8)
  deriving DecidableEq, Repr

def PortAccess.write? : PortAccess → Option (UInt16 × UInt8)
  | .read .. => none
  | .write port value => some (port, value)

/-- A machine and the uses of its ports, in order. -/
structure Watched (σ : Type) where
  machine : σ
  accesses : List PortAccess := []

variable {σ : Type}

namespace Watched

def written (watched : Watched σ) : List (UInt16 × UInt8) :=
  watched.accesses.filterMap PortAccess.write?

theorem eq_append_nil (watched : Watched σ) : watched = ⟨watched.machine, watched.accesses ++ []⟩ := by
  rw [List.append_nil]

variable [Ports σ]

instance : Ports (Watched σ) where
  readPort port watched :=
    let (value, machine) := (readPort port watched.machine : UInt8 × σ)
    (value, { machine, accesses := watched.accesses ++ [.read port value] })
  writePort port value watched :=
    let ((), machine) := (writePort port value watched.machine : Unit × σ)
    ((), { machine, accesses := watched.accesses ++ [.write port value] })

theorem readPort_apply (port : UInt16) (watched : Watched σ) :
    (readPort port : Action (Watched σ) UInt8) watched =
      ((readPort port watched.machine).1,
        ⟨(readPort port watched.machine).2,
          watched.accesses ++ [.read port (readPort port watched.machine).1]⟩) :=
  rfl

theorem writePort_apply (port : UInt16) (value : UInt8) (watched : Watched σ) :
    (writePort port value : Action (Watched σ) Unit) watched =
      ((), ⟨(writePort port value watched.machine).2, watched.accesses ++ [.write port value]⟩) :=
  rfl

end Watched

variable [Ports σ]

namespace SerialLine

def showsEmpty (status : UInt8) : Bool :=
  status &&& transmitterEmpty != 0

/-- A byte to be sent, and the line statuses that were read for it. -/
structure Attempt where
  byte : UInt8
  looks : List UInt8
  deriving DecidableEq, Repr

namespace Attempt

def succeeds (attempt : Attempt) : Bool :=
  attempt.looks.any showsEmpty

/-- The byte is written right behind the looks, if one of them showed the transmitter empty. -/
def accesses (line : SerialLine) (attempt : Attempt) : List PortAccess :=
  attempt.looks.map (.read line.statusPort) ++
    if attempt.succeeds then [.write line.base attempt.byte] else []

/-- The line is looked at so many times at most, and no more once the transmitter is empty. The byte
is not given up before. -/
structure Within (tries : Nat) (attempt : Attempt) : Prop where
  bounded : attempt.looks.length ≤ tries
  exhausts : attempt.succeeds = false → attempt.looks.length = tries
  stops : attempt.succeeds = true → ∃ busy empty, attempt.looks = busy ++ [empty] ∧
    showsEmpty empty = true ∧ ∀ status ∈ busy, showsEmpty status = false

variable {attempt : Attempt} {status : UInt8} {tries : Nat}

theorem within_of_empty (byte : UInt8) (empty : showsEmpty status = true) :
    Attempt.Within (tries + 1) ⟨byte, [status]⟩ where
  bounded := Nat.succ_le_succ (Nat.zero_le _)
  exhausts fails := by
    simp [succeeds, empty] at fails
  stops _ := ⟨[], status, rfl, empty, nofun⟩

theorem accesses_of_empty (line : SerialLine) (byte : UInt8) (empty : showsEmpty status = true) :
    Attempt.accesses line ⟨byte, [status]⟩ = [.read line.statusPort status, .write line.base byte] := by
  simp [accesses, succeeds, empty]

def delayed (attempt : Attempt) (status : UInt8) : Attempt where
  byte := attempt.byte
  looks := status :: attempt.looks

section

variable (busy : showsEmpty status = false)

include busy

theorem succeeds_delayed : (attempt.delayed status).succeeds = attempt.succeeds := by
  simp only [delayed, succeeds, List.any_cons, busy, Bool.false_or]

theorem accesses_delayed (line : SerialLine) :
    (attempt.delayed status).accesses line = .read line.statusPort status :: attempt.accesses line := by
  rw [accesses, succeeds_delayed busy]
  rfl

theorem Within.delayed (within : attempt.Within tries) : (attempt.delayed status).Within (tries + 1) where
  bounded := Nat.succ_le_succ within.bounded
  exhausts fails := by
    rw [succeeds_delayed busy] at fails
    exact congrArg Nat.succ (within.exhausts fails)
  stops succeeds := by
    rw [succeeds_delayed busy] at succeeds
    obtain ⟨earlier, empty, looks, shows, waited⟩ := within.stops succeeds
    refine ⟨status :: earlier, empty, congrArg (status :: ·) looks, shows, ?_⟩
    exact List.forall_mem_cons.mpr ⟨busy, waited⟩

end

theorem writes_accesses (line : SerialLine) (attempt : Attempt) :
    (attempt.accesses line).filterMap PortAccess.write? =
      if attempt.succeeds then [(line.base, attempt.byte)] else [] := by
  have unwritten : (attempt.looks.map (PortAccess.read line.statusPort)).filterMap PortAccess.write? = [] := by
    rw [List.filterMap_map]
    exact List.filterMap_eq_nil_iff.mpr fun _ _ => rfl
  rw [accesses, List.filterMap_append, unwritten, List.nil_append]
  split <;> rfl

end Attempt

def sent (attempts : List Attempt) : List UInt8 :=
  (attempts.filter (·.succeeds)).map (·.byte)

theorem writes_attempts (line : SerialLine) (attempts : List Attempt) :
    (attempts.flatMap (·.accesses line)).filterMap PortAccess.write? = (sent attempts).map (line.base, ·) := by
  induction attempts with
  | nil => rfl
  | cons attempt others ih =>
      rw [List.flatMap_cons, List.filterMap_append, ih, Attempt.writes_accesses, sent, sent]
      cases succeeds : attempt.succeeds with
      | true => simp [succeeds]
      | false => simp [succeeds]

section

variable {line : SerialLine} {byte : UInt8} {tries : Nat} (state : σ)

theorem sendWithin_of_empty (empty : showsEmpty (readPort line.statusPort state).1 = true) :
    line.sendWithin byte (tries + 1) state = writePort line.base byte (readPort line.statusPort state).2 := by
  unfold showsEmpty at empty
  simp only [sendWithin, Action.bind_apply, empty, if_true]

theorem sendWithin_of_busy (busy : showsEmpty (readPort line.statusPort state).1 = false) :
    line.sendWithin byte (tries + 1) state = line.sendWithin byte tries (readPort line.statusPort state).2 := by
  unfold showsEmpty at busy
  simp only [sendWithin, Action.bind_apply, busy, Bool.false_eq_true, if_false]

end

theorem sendWithin_attempts (line : SerialLine) (byte : UInt8) (tries : Nat) (before : Watched σ) :
    ∃ attempt : Attempt, attempt.byte = byte ∧ attempt.Within tries ∧
      line.sendWithin byte tries before =
        ((), ⟨(line.sendWithin byte tries before.machine).2, before.accesses ++ attempt.accesses line⟩) := by
  induction tries generalizing before with
  | zero =>
      refine ⟨⟨byte, []⟩, rfl, ⟨Nat.le_refl _, fun _ => rfl, nofun⟩, ?_⟩
      exact congrArg (Prod.mk ()) before.eq_append_nil
  | succ tries ih =>
      cases shown : showsEmpty (readPort line.statusPort before.machine).1 with
      | true =>
          refine ⟨⟨byte, [(readPort line.statusPort before.machine).1]⟩, rfl, Attempt.within_of_empty byte shown, ?_⟩
          rw [sendWithin_of_empty before shown, sendWithin_of_empty before.machine shown,
            Attempt.accesses_of_empty line byte shown, Watched.readPort_apply, Watched.writePort_apply,
            List.append_assoc, List.singleton_append]
      | false =>
          obtain ⟨attempt, same, within, sends⟩ := ih (readPort line.statusPort before).2
          refine ⟨attempt.delayed _, same, within.delayed shown, ?_⟩
          rw [sendWithin_of_busy before shown, sendWithin_of_busy before.machine shown,
            Attempt.accesses_delayed shown, sends, Watched.readPort_apply, List.append_assoc, List.singleton_append]

theorem sendBytes_attempts (line : SerialLine) (bytes : List UInt8) (before : Watched σ) :
    ∃ attempts : List Attempt, attempts.map (·.byte) = bytes ∧
      (∀ attempt ∈ attempts, attempt.Within maxTries) ∧
      line.sendBytes bytes before =
        ((), ⟨(line.sendBytes bytes before.machine).2,
          before.accesses ++ attempts.flatMap (·.accesses line)⟩) := by
  induction bytes generalizing before with
  | nil => exact ⟨[], rfl, nofun, congrArg (Prod.mk ()) before.eq_append_nil⟩
  | cons byte rest ih =>
      obtain ⟨attempt, same, within, sends⟩ := line.sendWithin_attempts byte maxTries before
      obtain ⟨attempts, others, bounded, continues⟩ := ih (line.sendWithin byte maxTries before).2
      refine ⟨attempt :: attempts, ?_, List.forall_mem_cons.mpr ⟨within, bounded⟩, ?_⟩
      · rw [List.map_cons, same, others]
      · simp only [sendBytes, send, Action.bind_apply]
        rw [continues, sends, List.flatMap_cons, List.append_assoc]

/-- Whatever the line answers, each byte of a text costs at most a hundred looks at its status. Just
those bytes for which a look showed the transmitter empty are written, each once and right behind this
look, in the order of the text and to the data port alone. -/
theorem text_goes_out_in_order (line : SerialLine) (text : String) (before : Watched σ) :
    let after := (line.sendText text before).2
    ∃ attempts : List Attempt,
      attempts.map (·.byte) = Text.bytes text ∧
      after.machine = (line.sendText text before.machine).2 ∧
      after.accesses = before.accesses ++ attempts.flatMap (·.accesses line) ∧
      (∀ attempt ∈ attempts, attempt.looks.length ≤ 100 ∧
        (attempt.succeeds = false → attempt.looks.length = 100) ∧
        (attempt.succeeds = true → ∃ busy empty, attempt.looks = busy ++ [empty] ∧
          showsEmpty empty = true ∧ ∀ status ∈ busy, showsEmpty status = false)) ∧
      after.written = before.written ++ (sent attempts).map (line.base, ·) ∧
      (sent attempts).Sublist (Text.bytes text) ∧
      ((∀ attempt ∈ attempts, attempt.succeeds = true) → sent attempts = Text.bytes text) := by
  intro after
  obtain ⟨attempts, bytes, within, sends⟩ := line.sendBytes_attempts (Text.bytes text) before
  have accesses : after.accesses = before.accesses ++ attempts.flatMap (·.accesses line) :=
    congrArg (·.2.accesses) sends
  refine ⟨attempts, bytes, congrArg (·.2.machine) sends, accesses, fun attempt member => ?_, ?_, ?_,
    fun ready => ?_⟩
  · obtain ⟨bounded, exhausts, stops⟩ := within attempt member
    exact ⟨bounded, exhausts, stops⟩
  · rw [Watched.written, accesses, List.filterMap_append, writes_attempts]
    rfl
  · rw [← bytes]
    exact List.filter_sublist.map _
  · rw [sent, List.filter_eq_self.mpr ready, bytes]

-- Of a letter of two bytes the line takes the second only.
example :
    let rig : Scripted.Rig :=
      { values := [(com1.statusPort, transmitterEmpty)]
        queued := [(com1.statusPort, List.replicate 100 0)] }
    let after := (com1.sendText "é" (Watched.mk rig [])).2
    after.written = [(com1.base, 0xa9)] ∧ after.accesses.length = 102 := by
  decide +kernel

end SerialLine

end BootFlow
