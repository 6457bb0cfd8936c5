import BootFlow.Text

namespace BootFlow

namespace Log

/-! The log keeps its most recent lines in slots of a fixed width. A line that
is too long keeps its first whole characters; a full ring gives up its oldest
line for a new one. -/

/-- Width of one slot in UTF-8 bytes. -/
def lineWidth : Nat := 96

def capacity : Nat := 64

/-- A line while it is being written piece by piece. -/
structure Line where
  text : String := ""
  full : Bool := false
  deriving DecidableEq, Repr

/-- Adds one character. The first that does not fit closes the line. -/
def Line.put (line : Line) (c : Char) : Line :=
  if line.full then line
  else if line.text.utf8ByteSize + c.utf8Size ≤ lineWidth then { line with text := line.text.push c }
  else { line with full := true }

def Line.write (line : Line) (piece : String) : Line :=
  piece.toList.foldl Line.put line

/-- What is stored of a line that is written in these pieces. -/
def storedLine (pieces : List String) : String :=
  (pieces.foldl Line.write {}).text

/-- The stored lines, oldest first, and the number of lines ever written. -/
structure Ring where
  lines : List String := []
  total : Nat := 0
  deriving DecidableEq, Repr

def Ring.push (ring : Ring) (pieces : List String) : Ring where
  lines :=
    (if ring.lines.length < capacity then ring.lines else ring.lines.drop 1) ++ [storedLine pieces]
  total := ring.total + 1

/-- The last `count` stored lines, oldest first. -/
def Ring.last (ring : Ring) (count : Nat) : List String :=
  ring.lines.drop (ring.lines.length - count)

def Ring.isEmpty (ring : Ring) : Bool :=
  ring.lines.isEmpty

inductive Level
  | error | warn | info | debug | trace
  deriving DecidableEq, Repr

/-- Verbosity of a level: the higher it is, the sooner a threshold drops it. -/
def Level.verbosity : Level → Nat
  | .error => 1
  | .warn => 2
  | .info => 3
  | .debug => 4
  | .trace => 5

end Log

/-- A ring of lines behind a threshold. Without a threshold nothing is kept. -/
structure Log where
  threshold : Option Log.Level := none
  ring : Log.Ring := {}
  deriving DecidableEq, Repr

namespace Log

def enabled (log : Log) (level : Level) : Bool :=
  match log.threshold with
  | some threshold => level.verbosity ≤ threshold.verbosity
  | none => false

def record (log : Log) (level : Level) (text : String) : Log :=
  if log.enabled level then { log with ring := log.ring.push [text] } else log

/-- Takes the place of a missing log. A log that is there already stays as it is,
threshold included, and the answer is `false`. -/
def install (installed : Option Log) (threshold : Option Level) : Bool × Log :=
  match installed with
  | some log => (false, log)
  | none => (true, { threshold })

end Log

end BootFlow
