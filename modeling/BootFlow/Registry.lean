import BootFlow.Candidate

namespace BootFlow

/-- The priority of whatever has no configured place. -/
def unplaced : Int := 9999

/-- Priorities of candidates that the boot order does not name. -/
structure Defaults where
  floppy : Int := 101
  cdRom : Int := 102
  hardDisk : Int := 103
  bev : Int := 104
  deriving DecidableEq, Repr

namespace Defaults

/-- Gives `priority` to the kind with this NVRAM device code, if there is one. -/
def assign (defaults : Defaults) (code : Nat) (priority : Int) : Defaults :=
  match code with
  | 1 => { defaults with floppy := priority }
  | 2 => { defaults with hardDisk := priority }
  | 3 => { defaults with cdRom := priority }
  | 4 => { defaults with bev := priority }
  | _ => defaults

/-- The legacy NVRAM boot order: three four-bit device codes, in the low and the
high half of `flag2` and the high half of `flag1`, take the first three
priorities. A later one overrides an earlier one for the same device, and kinds
that are not listed have no place. -/
def ofBootFlags (flag1 flag2 : UInt8) : Defaults :=
  let none : Defaults :=
    { floppy := unplaced, cdRom := unplaced, hardDisk := unplaced, bev := unplaced }
  ((none.assign (flag2 &&& 0x0f).toNat 101).assign (flag2 >>> 4).toNat 102).assign
    (flag1 >>> 4).toNat 103

end Defaults

/-- Something bootable as its driver reports it. -/
inductive Finding
  | floppy (drive : Drive)
  | hardDisk (drive : Drive)
  | cdRom (drive : Drive)
  | cbfs (file : PayloadFile)
  | bev (vector : FarPointer)
  | bcv (vector : FarPointer)
  deriving DecidableEq, Repr

namespace Finding

def kind : Finding → Kind
  | .floppy _ => .floppy
  | .hardDisk _ => .hardDisk
  | .cdRom _ => .cdRom
  | .cbfs _ => .cbfs
  | .bev _ => .bev
  | .bcv _ => .bcv

def payload : Finding → Payload
  | .floppy drive | .hardDisk drive | .cdRom drive => .drive drive
  | .cbfs file => .file file
  | .bev vector | .bcv vector => .vector vector

/-- The description of a finding that its driver does not describe. -/
def defaultDescription : Finding → String
  | .bev _ => "Unknown"
  | .bcv _ => "Legacy option rom"
  | _ => "?"

/-- Connection vectors go with the hard disks. -/
def defaultPriority (defaults : Defaults) : Finding → Int
  | .floppy _ => defaults.floppy
  | .hardDisk _ | .bcv _ => defaults.hardDisk
  | .cdRom _ => defaults.cdRom
  | .cbfs _ => unplaced
  | .bev _ => defaults.bev

end Finding

/-- A finding whose priority is already looked up. -/
structure Report where
  finding : Finding
  description : Option String := none
  priority : Option Int := none
  deriving DecidableEq, Repr

/-- The candidates in order of preference, and the priorities for new ones. -/
structure Registry where
  candidates : List Candidate := []
  defaults : Defaults := {}
  deriving DecidableEq, Repr

/-- Puts a candidate before the first one that it precedes. Among equals the
earlier registered stays in front. -/
def Candidate.insertInto (candidate : Candidate) : List Candidate → List Candidate
  | [] => [candidate]
  | head :: rest =>
      if candidate.order head = .lt then candidate :: head :: rest
      else head :: candidate.insertInto rest

namespace Registry

def insert (registry : Registry) (candidate : Candidate) : Registry :=
  { registry with candidates := candidate.insertInto registry.candidates }

/-- The candidate that a report makes under the current defaults. -/
def candidateOf (registry : Registry) (report : Report) : Candidate where
  kind := report.finding.kind
  priority := report.priority.getD (report.finding.defaultPriority registry.defaults)
  payload := report.finding.payload
  description := report.description.getD report.finding.defaultDescription

/-- The default of boot execution vectors is spent by the first of them, whether
it needed a default or not. -/
def spend (registry : Registry) (finding : Finding) : Registry :=
  match finding with
  | .bev _ => { registry with defaults.bev := unplaced }
  | _ => registry

def add (registry : Registry) (report : Report) : Registry :=
  (registry.insert (registry.candidateOf report)).spend report.finding

/-- The candidate at a position that counts from one. -/
def at? (registry : Registry) (position : Nat) : Option Candidate :=
  match position with
  | 0 => none
  | index + 1 => registry.candidates[index]?

/-- Moves the candidate at a position that counts from one to the front and
gives it priority zero. Any other position changes nothing. -/
def promote (registry : Registry) (position : Nat) : Registry :=
  match registry.at? position with
  | none => registry
  | some candidate =>
      { registry with
        candidates := { candidate with priority := 0 } :: registry.candidates.eraseIdx (position - 1) }

def first? (registry : Registry) : Option Candidate :=
  registry.candidates.head?

def has (registry : Registry) (kind : Kind) : Bool :=
  registry.candidates.any (·.kind == kind)

end Registry

end BootFlow
