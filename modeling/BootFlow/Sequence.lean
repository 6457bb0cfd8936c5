import BootFlow.Enumeration

namespace BootFlow

open DriveMapper Logging Text

inductive Entry
  | floppy
  | hardDisk (id : UInt32)
  | cdRom (drive : Drive)
  | cbfs (file : PayloadFile)
  | rom (vector : FarPointer)
  | halt
  deriving DecidableEq, Repr

def Entry.kind : Entry → Kind
  | .floppy => .floppy
  | .hardDisk _ => .hardDisk
  | .cdRom _ => .cdRom
  | .cbfs _ => .cbfs
  | .rom _ => .bev
  | .halt => .halt

def Sequence.capacity : Nat := 20

/-- The attempts of a boot cycle in order. The first floppy stands for all of them. -/
structure Sequence where
  entries : List Entry := []
  floppySeen : Bool := false
  within : entries.length ≤ Sequence.capacity := by decide
  deriving DecidableEq, Repr

namespace Sequence

/-- Whether a new entry would be stored: a further floppy and an entry without
room are not. -/
def accepts (sequence : Sequence) (entry : Entry) : Bool :=
  !(entry == .floppy && sequence.floppySeen) && sequence.entries.length < capacity

/-- A floppy counts as seen even where there is no room for it. -/
def push (sequence : Sequence) (entry : Entry) : Sequence where
  entries := if sequence.accepts entry then sequence.entries ++ [entry] else sequence.entries
  floppySeen := sequence.floppySeen || entry == .floppy
  within := by
    split
    · have room : sequence.entries.length < capacity := by simp_all [accepts]
      rw [List.length_append]
      exact room
    · exact sequence.within

def has (sequence : Sequence) (kind : Kind) : Bool :=
  sequence.entries.any (·.kind == kind)

/-- Callers expect a floppy and a hard disk, so both are there if there is room. -/
def withFallbacks (sequence : Sequence) : Sequence :=
  let sequence := sequence.push .floppy
  if sequence.has .hardDisk then sequence else sequence.push (.hardDisk 0)

end Sequence

/-! Flattening turns the registry into the attempts of the boot cycle. Drives
are mapped on the way, in the order in which they will be tried, so legacy boot
code numbers them alike. -/

variable {σ : Type} [DriveMapper σ]

/-- Maps the device of a candidate. A payload that does not fit the kind maps
nothing and gives no entry. -/
def Candidate.map (candidate : Candidate) : Action σ (Option Entry) := do
  match candidate.kind, candidate.payload with
  | .bcv, .vector vector =>
      callConnectionVector vector
      return some (.hardDisk 0)
  | .floppy, .drive drive =>
      mapFloppy drive
      return some .floppy
  | .hardDisk, .drive drive => return some (.hardDisk (← mapHardDisk drive))
  | .cdRom, .drive drive =>
      mapCdRom drive
      return some (.cdRom drive)
  | .cbfs, .file file => return some (.cbfs file)
  | .bev, .vector vector => return some (.rom vector)
  | .halt, _ => return some .halt
  | _, _ => return none

variable [Logging σ]

def Sequence.extend (sequence : Sequence) : List Candidate → Action σ Sequence
  | [] => return sequence
  | candidate :: others => do
      match ← candidate.map with
      | some entry => (sequence.push entry).extend others
      | none =>
          emit .warn ("Skipping " ++ candidate.description ++ ": " ++ candidate.kind.name
            ++ " without a usable payload")
          sequence.extend others

/-- Registers the stop mark where the boot order names it, unless there is one. -/
def Registry.placeHalt (registry : Registry) (order : BootOrder) : Action σ Registry := do
  match ← order.searchHalt with
  | some rank => if registry.has .halt then return registry else registry.register (.halt rank)
  | none => return registry

/-- Places the stop mark, maps all candidates, and adds the fallback entries. -/
def Registry.flatten (registry : Registry) (order : BootOrder) :
    Action σ (Registry × Sequence) := do
  let registry ← registry.placeHalt order
  let mapped ← Sequence.extend {} registry.candidates
  let sequence := mapped.withFallbacks
  emit .debug ("BEV list: " ++ decimal sequence.entries.length ++ " entries")
  return (registry, sequence)

end BootFlow
