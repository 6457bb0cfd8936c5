import BootFlow.Hardware.Ports
import BootFlow.Keyboard
import BootFlow.Text

namespace BootFlow

open Ports

/-! A serial line without buffers and interrupts. Sending gives up on a byte
after a bounded number of looks at the line status, so a line that is not
connected holds nothing up. -/

/-- The ports of a serial line begin at `base`. -/
structure SerialLine where
  base : UInt16
  deriving DecidableEq, Repr

namespace SerialLine

def com1 : SerialLine where
  base := 0x3f8

def statusPort (line : SerialLine) : UInt16 :=
  line.base + 5

def dataReady : UInt8 := 0x01

def transmitterEmpty : UInt8 := 0x20

/-- How often the line status is read for one byte. -/
def maxTries : Nat := 100

variable {σ : Type} [Ports σ]

/-- Sends a byte once the transmitter is empty, and drops it after so many tries. -/
def sendWithin (line : SerialLine) (byte : UInt8) : Nat → Action σ Unit
  | 0 => return ()
  | tries + 1 => do
      let status ← readPort line.statusPort
      if status &&& transmitterEmpty != 0 then
        writePort line.base byte
      else
        line.sendWithin byte tries

def send (line : SerialLine) (byte : UInt8) : Action σ Unit :=
  line.sendWithin byte maxTries

def sendBytes (line : SerialLine) : List UInt8 → Action σ Unit
  | [] => return ()
  | byte :: rest => do
      line.send byte
      line.sendBytes rest

/-- Sends a text as UTF-8. -/
def sendText (line : SerialLine) (text : String) : Action σ Unit :=
  line.sendBytes (Text.bytes text)

def newline : UInt8 := 0x0a

/-- Sends log lines, each marked as one. -/
def replay (line : SerialLine) : List String → Action σ Unit
  | [] => return ()
  | text :: rest => do
      line.sendText "[BOOT] "
      line.sendText text
      line.send newline
      line.replay rest

/-- The received byte, if one is waiting. -/
def receive (line : SerialLine) : Action σ (Option UInt8) := do
  let status ← readPort line.statusPort
  if status &&& dataReady != 0 then
    return some (← readPort line.base)
  else
    return none

/-- The scan code of a typed character: digits from one to nine and line ends
have one. -/
def scanOfByte (byte : UInt8) : Option UInt8 :=
  if 0x31 ≤ byte && byte ≤ 0x39 then some (ScanCode.digit1 + (byte - 0x31))
  else if byte = 0x0d || byte = newline then some ScanCode.enter
  else none

/-- The scan code of the received byte. A byte without one is taken and dropped. -/
def pollKey (line : SerialLine) : Action σ (Option UInt8) := do
  return (← line.receive).bind scanOfByte

/-- Shows a status line as a line of its own. -/
def status (line : SerialLine) (text : String) : Action σ Unit := do
  line.sendText text
  line.send newline

/-- Nothing can be taken back from the line, so clearing starts a new one. -/
def clear (line : SerialLine) : Action σ Unit :=
  line.send newline

end SerialLine

end BootFlow
