import BootFlow.Text

namespace BootFlow

open Text

/-- What sort of thing a candidate boots from. -/
inductive Kind
  | floppy
  | hardDisk
  | cdRom
  | cbfs
  | bev
  | bcv
  | halt
  deriving DecidableEq, Repr

namespace Kind

/-- The initial program load code. Smaller codes go first among equal priorities. -/
def code : Kind → UInt8
  | .floppy => 0x01
  | .hardDisk => 0x02
  | .cdRom => 0x03
  | .cbfs => 0x20
  | .bev => 0x80
  | .bcv => 0x81
  | .halt => 0xf0

def isDrive : Kind → Bool
  | .floppy | .hardDisk | .cdRom => true
  | _ => false

def name : Kind → String
  | .floppy => "Floppy"
  | .hardDisk => "Hard Disk"
  | .cdRom => "DVD/CD"
  | .cbfs => "CBFS"
  | .bev => "BEV"
  | .bcv => "BCV"
  | .halt => "HALT"

end Kind

/-- A drive as the block layer knows it. The handle is only passed on. -/
structure Drive where
  handle : UInt32
  driveType : UInt8
  controller : UInt32
  deriving DecidableEq, Repr

/-- A real-mode address, segment and offset. -/
structure FarPointer where
  segment : UInt16
  offset : UInt16
  deriving DecidableEq, Repr

/-- The segment in the high half, the offset in the low half. -/
def FarPointer.pack (pointer : FarPointer) : UInt32 :=
  (pointer.segment.toUInt32 <<< 16) ||| pointer.offset.toUInt32

def FarPointer.unpack (packed : UInt32) : FarPointer where
  segment := (packed >>> 16).toUInt16
  offset := packed.toUInt16

structure PayloadFile where
  id : UInt32
  deriving DecidableEq, Repr

inductive Payload
  | drive (drive : Drive)
  | vector (pointer : FarPointer)
  | file (file : PayloadFile)
  | none
  deriving DecidableEq, Repr

/-- How log lines show a payload. -/
def Payload.render : Payload → String
  | .drive device =>
      "Drive(DriveRef \x7b handle: " ++ decimal device.handle.toNat
        ++ ", drive_type: " ++ decimal device.driveType.toNat
        ++ ", cntl_id: " ++ decimal device.controller.toNat ++ " \x7d)"
  | .vector pointer =>
      "Vector(SegOff \x7b seg: " ++ decimal pointer.segment.toNat
        ++ ", offset: " ++ decimal pointer.offset.toNat ++ " \x7d)"
  | .file image => "File(PayloadRef(" ++ decimal image.id.toNat ++ "))"
  | .none => "None"

/-- Something that can be booted, with its place in the order of preference:
smaller priorities boot first. -/
structure Candidate where
  kind : Kind
  priority : Int
  payload : Payload
  description : String
  deriving DecidableEq, Repr

/-- Drives of one kind go by drive type, then by controller. -/
def Drive.order (left right : Drive) : Ordering :=
  (compare left.driveType right.driveType).then (compare left.controller right.controller)

/-- By priority, then by kind. Drives settle a tie between candidates of one
drive kind that both carry one; all other ties stay. -/
def Candidate.order (left right : Candidate) : Ordering :=
  (compare left.priority right.priority).then
    ((compare left.kind.code right.kind.code).then
      (match left.payload, right.payload with
        | .drive leftDrive, .drive rightDrive =>
            if left.kind.isDrive then leftDrive.order rightDrive else .eq
        | _, _ => .eq))

/-- Whether the payload is of the shape that the kind boots. -/
def Candidate.fits (candidate : Candidate) : Bool :=
  match candidate.kind, candidate.payload with
  | .floppy, .drive _ | .hardDisk, .drive _ | .cdRom, .drive _ => true
  | .cbfs, .file _ => true
  | .bev, .vector _ | .bcv, .vector _ => true
  | .halt, _ => true
  | _, _ => false

/-- The mark in the list behind which nothing is booted. -/
def Candidate.halt (priority : Int) : Candidate where
  kind := .halt
  priority := priority
  payload := .none
  description := "HALT"

end BootFlow
