import BootFlow.Platform.Basic

namespace BootFlow

open Clock Keyboard Waiting

/-- A moment on the platform's clock. -/
structure Deadline where
  endMillis : Nat
  deriving DecidableEq, Repr

namespace Deadline

/-- The milliseconds from `now` to the deadline, none once it has passed, as far
as a budget can hold them. -/
def left (deadline : Deadline) (now : Nat) : UInt32 :=
  UInt32.ofNat (min (deadline.endMillis - now) 0xffffffff)

variable {σ : Type} [Clock σ]

def after (millis : UInt32) : Action σ Deadline := do
  return { endMillis := (← now) + millis.toNat }

def expired (deadline : Deadline) : Action σ Bool := do
  return deadline.endMillis ≤ (← now)

def remaining (deadline : Deadline) : Action σ UInt32 := do
  return deadline.left (← now)

/-- Idles for what is left until the deadline, if it has not passed: whether it has. -/
def idleOnce (deadline : Deadline) : Action σ Bool := do
  if ← deadline.expired then
    return true
  else
    idle (some (← deadline.remaining))
    return false

def await (deadline : Deadline) : Nat → Waiting σ Unit
  | 0 => outOfPatience
  | patience + 1 => do
      if ← perform deadline.idleOnce then return () else deadline.await patience

end Deadline

inductive Timeout
  | millis (count : UInt32)
  | forever
  deriving DecidableEq, Repr

namespace Keystroke

variable {σ : Type} [Keyboard σ] [Clock σ]

/-- How one look at the keyboard ends. -/
inductive Turn
  | key (scan : UInt8)
  | timeUp
  | idled
  deriving DecidableEq, Repr

/-- Looks for a key, and idles if there is none and time is left. The keyboard
goes before the deadline, so a key that is there at the deadline still counts. -/
def turn (deadline : Option Deadline) : Action σ Turn := do
  match ← pollKey with
  | some scan => return .key scan
  | none =>
      match deadline with
      | none =>
          idle none
          return .idled
      | some deadline => return if ← deadline.idleOnce then .timeUp else .idled

def awaitBy (deadline : Option Deadline) : Nat → Waiting σ (Option UInt8)
  | 0 => outOfPatience
  | patience + 1 => do
      match ← perform (turn deadline) with
      | .key scan => return some scan
      | .timeUp => return none
      | .idled => awaitBy deadline patience

/-- The next key, or `none` if the time is up before there is one. -/
def await (patience : Nat) (timeout : Timeout) : Waiting σ (Option UInt8) := do
  match timeout with
  | .forever => awaitBy none patience
  | .millis count => awaitBy (some (← perform (Deadline.after count))) patience

/-- Takes keys without waiting until there is none. The first number bounds the
keys, the second the turns of each wait. -/
def drainUpTo (patience : Nat) : Nat → Waiting σ Unit
  | 0 => outOfPatience
  | keys + 1 => do
      match ← await patience (.millis 0) with
      | some _ => drainUpTo patience keys
      | none => return ()

/-- Throws away the keys that were typed ahead. -/
def drain (patience : Nat) : Waiting σ Unit :=
  drainUpTo patience patience

end Keystroke

end BootFlow
