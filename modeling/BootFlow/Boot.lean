import BootFlow.Menu
import BootFlow.Sequence

namespace BootFlow

open Console Launcher Logging Machine Registers Text Waiting

/-! The boot cycle tries the entries of a sequence one after the other. An
attempt that works never comes back; one that does has failed, and the cycle
goes on with the next entry. The position of the entry that is tried, the
cursor, is all that it carries along. -/

namespace Progress

/-! Codes on the diagnostic port. -/

def attemptBegin : UInt8 := 0xeb
def attemptEnd : UInt8 := 0xec
def advance : UInt8 := 0xee
def bootFail : UInt8 := 0xef

end Progress

/-- What a boot cycle goes by. -/
structure Cycle where
  sequence : Sequence
  retry : RetryPolicy
  checkFloppySignature : Bool
  deriving DecidableEq, Repr

/-- A way into a boot cycle. -/
inductive Cycle.Entrance
  /-- Attempts one entry and leaves the cursor where it is. -/
  | attempt (position : Nat)
  | start
  | advance
  | untilHandoff
  deriving DecidableEq, Repr

namespace Cycle

def ofConfig (sequence : Sequence) (config : Config) : Cycle where
  sequence := sequence
  retry := config.retry
  checkFloppySignature := config.checkFloppySignature

def initialCursor : Nat := 0

variable {σ : Type}
  [Registers σ] [Clock σ] [Console σ] [Machine σ] [Launcher σ] [Logging σ]

def announceFailure : Action σ Unit := do
  post Progress.bootFail
  emit .warn BootError.sequenceExhausted.message

def park : Action σ Unit := do
  print "No bootable device.\n"
  halt

/-- The answer is the moment of the restart. -/
def announceRetry (millis : UInt32) : Action σ Deadline := do
  print ("No bootable device.  Retrying in " ++ decimal (millis.toNat / 1000) ++ " seconds.\n")
  Deadline.after millis

def restart : Action σ Unit := do
  print "Rebooting.\n"
  reset

/-- Nothing is left to boot: tell the operator, wait, and restart, or park the
machine if it is not to retry. -/
def bootFail (cycle : Cycle) (patience : Nat) : Waiting σ BootError := do
  perform announceFailure
  match cycle.retry with
  | .never => perform park
  | .after millis =>
      let deadline ← perform (announceRetry millis)
      deadline.await patience
      perform restart
  return .sequenceExhausted

/-- Announces an entry and boots it. The stop mark boots nothing and answers `false`. -/
def launch (cycle : Cycle) : Entry → Action σ Bool
  | .floppy => do
      print "Booting from Floppy...\n"
      bootFloppy cycle.checkFloppySignature
      return true
  | .hardDisk id => do
      print "Booting from Hard Disk...\n"
      bootHardDisk id
      return true
  | .cdRom drive => do
      print "Booting from DVD/CD...\n"
      bootCdRom drive
      return true
  | .cbfs file => do
      print "Booting from CBFS...\n"
      bootCbfs file
      return true
  | .rom vector => do
      print "Booting from ROM...\n"
      bootRom vector
      return true
  | .halt => return false

/-- Marks the beginning of an attempt on the diagnostic port, in the boot stage
register and in the log. The port shows the low byte of the position. -/
def announce (entry : Entry) (position : Nat) : Action σ Unit := do
  post Progress.attemptBegin
  post (UInt8.ofNat position)
  post entry.kind.code
  post Progress.attemptEnd
  Diagnostics.writeStage Stage.payload
  emit .info ("boot: entry " ++ decimal position ++ " (" ++ entry.kind.name ++ ")")

/-- Attempts one entry: whether it was one to boot, and so came back. -/
def attemptEntry (cycle : Cycle) (entry : Entry) (position : Nat) : Action σ Bool := do
  announce entry position
  let returned ← cycle.launch entry
  if returned then
    emit .warn ("boot: entry " ++ decimal position ++ " returned")
  return returned

/-- Attempts the entry at a position. Behind the last entry, and at the stop
mark, the boot has failed. -/
def attempt (cycle : Cycle) (patience : Nat) (position : Nat) : Waiting σ BootError := do
  match cycle.sequence.entries[position]? with
  | none => cycle.bootFail patience
  | some entry =>
      if ← perform (cycle.attemptEntry entry position) then
        return .attemptReturned
      else
        cycle.bootFail patience

def lightStatus : Action σ Unit := do
  writeRegister Register.ledDuty Field.ledGreenBlink
  writeRegister Register.ledRate Field.ledTwoHertz

/-- Sets the status light, rewinds the cursor and attempts the first entry. -/
def start (cycle : Cycle) (patience : Nat) : Waiting σ (BootError × Nat) := do
  perform lightStatus
  return (← cycle.attempt patience initialCursor, initialCursor)

/-- After a failed attempt: moves the cursor on and attempts the entry there. -/
def advance (cycle : Cycle) (patience : Nat) (cursor : Nat) : Waiting σ (BootError × Nat) := do
  perform (post Progress.advance)
  return (← cycle.attempt patience (cursor + 1), cursor + 1)

/-- Advances while attempts come back, a bounded number of times. -/
def advanceWhileRetryable (cycle : Cycle) (patience : Nat) (outcome : BootError × Nat) :
    Nat → Waiting σ (BootError × Nat)
  | 0 => return outcome
  | advances + 1 => do
      if outcome.1.retryable then
        advanceWhileRetryable cycle patience (← cycle.advance patience outcome.2) advances
      else
        return outcome

/-- Starts a cycle and advances until the sequence is exhausted. The entries
bound the advances, for behind the last of them no attempt is left to come back. -/
def runUntilHandoff (cycle : Cycle) (patience : Nat) : Waiting σ (BootError × Nat) := do
  advanceWhileRetryable cycle patience (← cycle.start patience) cycle.sequence.entries.length

/-- Enters the cycle with the cursor where it was left. Only an advance goes by it. -/
def enter (cycle : Cycle) (patience cursor : Nat) : Entrance → Waiting σ (BootError × Nat)
  | .attempt position => do return (← cycle.attempt patience position, cursor)
  | .start => cycle.start patience
  | .advance => cycle.advance patience cursor
  | .untilHandoff => cycle.runUntilHandoff patience

end Cycle

/-- How a boot ended that no attempt took over. -/
structure Boot where
  session : Menu.Session
  registry : Registry
  sequence : Sequence
  error : BootError
  cursor : Nat
  deriving DecidableEq, Repr

/-- A boot after the enumeration: the menu runs, what it leaves is flattened, and
the boot cycle goes through the entries. -/
def Boot.run {σ : Type}
    [Registers σ] [Keyboard σ] [Clock σ] [Console σ] [Machine σ] [DriveMapper σ] [Launcher σ]
    [Logging σ] (config : Config) (order : BootOrder) (patience : Nat) (registry : Registry) :
    Waiting σ Boot := do
  let session ← Menu.run config patience registry
  let (registry, sequence) ← perform (session.registry.flatten order)
  let (error, cursor) ← (Cycle.ofConfig sequence config).runUntilHandoff patience
  return { session, registry, sequence, error, cursor }

end BootFlow
