import BootFlow.Proofs.Order.Entries
import BootFlow.Proofs.Order.Route
import BootFlow.Proofs.Registry.Enrolment

namespace BootFlow

open Logging Segment Text

/-! A driver finds a device by the device's own line of the boot order and by no other. -/

/-- The line of the boot order that is about a device: its path, with names in place of the stars. -/
def Target.line (target : Target) (names : Nat → Name) : String :=
  String.ofList (fill names (target.paths.headD "").toList)

theorem Target.line_eq {target : Target} {patterns : List Segment} {others : List String} (names : Nat → Name)
    (paths : target.paths = joined patterns :: others) (opened : ∀ pattern ∈ patterns, pattern.Open) :
    ∃ segments, List.Forall₂ Filled patterns segments ∧ target.line names = joined segments := by
  rw [Target.line, paths, List.headD_cons]
  exact fill_joined names opened

namespace BootOrder

/-- The order of these lines. -/
def ofLines (lines : List String) : BootOrder :=
  parse (String.intercalate "\n" lines)

variable {α : Type} {lines : List α} {text : α → String} {path : String} {p : α → Bool}

/-- Over lines that are paths the rank is that of the first line that matches. -/
theorem rank?_ofLines (shown : ∀ line ∈ lines, ∃ segments ≠ [], text line = joined segments)
    (same : ∀ line ∈ lines, Glob.matchesEither path (text line) = p line) :
    (ofLines (lines.map text)).rank? path = (lines.findIdx? p).map (· + 1) := by
  have entries : (ofLines (lines.map text)).entries = lines.map text := by
    refine entries_parse ?_ ?_ <;> rw [List.forall_mem_map]
    · intro line member
      obtain ⟨segments, _, written⟩ := shown line member
      exact written ▸ newline_notMem_joined segments
    · intro line member
      obtain ⟨segments, some, written⟩ := shown line member
      exact written ▸ joined_ends_visibly some
  rw [rank?, entries, List.findIdx?_map]
  congr 1
  clear entries
  induction lines with
  | nil => rfl
  | cons line lines ih =>
      rw [List.forall_mem_cons] at shown same
      have content : (text line != "") = true := by
        obtain ⟨segments, some, written⟩ := shown.1
        obtain ⟨front, last, split, _⟩ := joined_ends_visibly some
        rw [bne_iff_ne, written, ← String.toList_inj.ne, split]
        simp
      rw [List.findIdx?_cons, List.findIdx?_cons, Function.comp_apply, content, Bool.true_and, same.1,
        ih shown.2 same.2]

theorem findIdx?_never : lines.findIdx? (fun _ => false) = none :=
  List.findIdx?_eq_none_iff.mpr fun _ _ => rfl

/-- The lines are searched for the first path; no other path of the device comes up in them. -/
theorem searchTarget_ofLines {σ : Type} [Logging σ] {target : Target} {others : List String} (state : σ)
    (paths : target.paths = path :: others)
    (about : ∀ line ∈ lines, ∃ segments ≠ [], text line = joined segments ∧
      Glob.matchesEither path (joined segments) = p line ∧
      ∀ other ∈ others, Glob.matchesEither other (joined segments) = false) :
    ((ofLines (lines.map text)).searchTarget target state).1 = (lines.findIdx? p).map (· + 1) := by
  have shown : ∀ line ∈ lines, ∃ segments ≠ [], text line = joined segments := by
    intro line member
    obtain ⟨segments, some, written, -⟩ := about line member
    exact ⟨segments, some, written⟩
  have same : ∀ line ∈ lines, Glob.matchesEither path (text line) = p line := by
    intro line member
    obtain ⟨segments, _, written, same, -⟩ := about line member
    rw [written, same]
  have rest : others.findSome? (ofLines (lines.map text)).rank? = none := by
    rw [List.findSome?_eq_none_iff]
    intro other among
    have unlike : ∀ line ∈ lines, Glob.matchesEither other (text line) = false := by
      intro line member
      obtain ⟨segments, _, written, -, unlike⟩ := about line member
      rw [written, unlike other among]
    rw [rank?_ofLines shown unlike, findIdx?_never, Option.map_none]
  rw [searchTarget, searchFirst_answer, paths, List.findSome?_cons, rank?_ofLines shown same, rest]
  cases (lines.findIdx? p).map (· + 1) <;> rfl

end BootOrder

/-! Disks behind ATA controllers. -/

structure AtaDisk where
  controller : PciDevice
  channel : UInt32
  slave : UInt32

namespace AtaDisk

def asTarget (disk : AtaDisk) : Target :=
  .ata disk.controller disk.channel disk.slave

def place (disk : AtaDisk) : (UInt8 × List (UInt8 × UInt8)) × UInt32 × UInt32 :=
  (disk.controller.place, disk.channel, disk.slave)

def route (label : Label) (disk : AtaDisk) : List Segment :=
  disk.controller.route label
    [⟨.drive, .numbers disk.channel.toNat none⟩, ⟨.disk, .numbers disk.slave.toNat none⟩]

theorem paths_eq (disk : AtaDisk) : disk.asTarget.paths = [joined (disk.route .star)] := by
  rw [route, ← PciDevice.path_append]
  simp [asTarget, Target.paths, joined, Segment.text, body, UnitAddress.numbers, UnitAddress.suffix,
    Label.star, Label.drive, Label.disk, ← String.append_assoc]

theorem line_eq (disk : AtaDisk) (names : Nat → Name) :
    ∃ chosen : Label, chosen.IsLiteral ∧ disk.asTarget.line names = joined (disk.route chosen) := by
  have drive : Label.drive.IsLiteral := by decide
  have last : Label.disk.IsLiteral := by decide
  obtain ⟨segments, filled, line⟩ := Target.line_eq names disk.paths_eq
    (PciDevice.opened_route (.inl rfl) (by simp [Segment.Open, drive, last]))
  obtain ⟨chosen, others, rfl, literal, -, rest⟩ := PciDevice.filled_route filled
  rw [filled_named (by simp [drive.ne_star, last.ne_star]) rest] at line
  exact ⟨chosen, literal, line⟩

/-- Drive and disk stand where a shorter or longer way would need a bridge. -/
theorem matches_iff (disk other : AtaDisk) {chosen : Label} (literal : chosen.IsLiteral) :
    Glob.matchesEither (joined (disk.route .star)) (joined (other.route chosen)) = true ↔
      disk.place = other.place := by
  have drive : Label.drive.IsLiteral := by decide
  have last : Label.disk.IsLiteral := by decide
  have bridge : Label.bridge.IsLiteral := by decide
  have forwards : Heads (disk.route .star) (other.route chosen) →
      disk.controller.bridges.length = other.controller.bridges.length := by
    intro heads
    refine heads_run_length ?short ?long heads.2
    case short =>
      rintro hop (_ | ⟨next, more⟩) - onwards
      · exact not_fits last (by decide) onwards.2.1
      · exact not_fits drive (by decide) onwards.1
    case long =>
      rintro hop (_ | ⟨next, more⟩) - onwards
      · exact not_fits drive (by decide) onwards.2.1
      · exact not_fits bridge (by decide) onwards.1
  have backwards : ¬Heads (other.route chosen) (disk.route .star) := by
    intro heads
    have level : other.controller.bridges.length = disk.controller.bridges.length := by
      refine heads_run_length ?short ?long heads.2
      case short =>
        rintro hop (_ | ⟨next, more⟩) - onwards
        · exact not_fits drive (by decide) onwards.1
        · exact not_fits drive (by decide) onwards.1
      case long => exact fun hop more fits => absurd fits (not_fits bridge (by decide))
    obtain ⟨-, -, fits, -⟩ := (PciDevice.heads_route level).mp heads
    exact not_fits literal literal.ne_star fits
  have found (level : disk.controller.bridges.length = other.controller.bridges.length) :
      Heads (disk.route .star) (other.route chosen) ↔ disk.place = other.place := by
    rw [route, route, PciDevice.heads_open level]
    simp only [Heads, fits_named drive, fits_named last, UnitAddress.numbers_inj, and_true, UInt32.toNat_inj,
      place, Prod.mk.injEq]
  rw [matchesEither_joined, or_iff_left backwards]
  refine ⟨fun heads => (found (forwards heads)).mp heads, fun same => (found ?_).mpr same⟩
  exact congrArg List.length (PciDevice.place_inj.mp (congrArg Prod.fst same)).2.1

end AtaDisk

/-! Drives behind floppy controllers. -/

structure FloppyDrive where
  bridge : PciDevice
  port : UInt16
  drive : UInt32

namespace FloppyDrive

def asTarget (floppy : FloppyDrive) : Target :=
  .floppy floppy.bridge floppy.port floppy.drive

def place (floppy : FloppyDrive) : (UInt8 × List (UInt8 × UInt8)) × UInt16 × UInt32 :=
  (floppy.bridge.place, floppy.port, floppy.drive)

def route (floppy : FloppyDrive) : List Segment :=
  floppy.bridge.route .isa
    [⟨.floppyController, .padded 4 floppy.port.toNat⟩, ⟨.floppy, .numbers floppy.drive.toNat none⟩]

theorem paths_eq (floppy : FloppyDrive) : floppy.asTarget.paths = [joined floppy.route] := by
  rw [route, ← PciDevice.path_append]
  simp [asTarget, Target.paths, joined, Segment.text, body, UnitAddress.numbers, UnitAddress.padded,
    UnitAddress.suffix, Label.isa, Label.floppyController, Label.floppy, ← String.append_assoc]

/-- Nothing is left open. -/
theorem line_eq (floppy : FloppyDrive) (names : Nat → Name) : floppy.asTarget.line names = joined floppy.route := by
  have isa : Label.isa.IsLiteral := by decide
  have controller : Label.floppyController.IsLiteral := by decide
  have last : Label.floppy.IsLiteral := by decide
  obtain ⟨segments, filled, line⟩ := Target.line_eq names floppy.paths_eq
    (PciDevice.opened_route (.inr isa) (by simp [Segment.Open, controller, last]))
  obtain ⟨chosen, others, rfl, -, starred | rfl, rest⟩ := PciDevice.filled_route filled
  · exact absurd starred isa.ne_star
  · rw [filled_named (by simp [controller.ne_star, last.ne_star]) rest] at line
    exact line

theorem matches_iff (floppy other : FloppyDrive) :
    Glob.matchesEither (joined floppy.route) (joined other.route) = true ↔ floppy.place = other.place := by
  have controller : Label.floppyController.IsLiteral := by decide
  have last : Label.floppy.IsLiteral := by decide
  have padded (left right : UInt16) : UnitAddress.padded 4 left.toNat = UnitAddress.padded 4 right.toNat ↔ left = right := by
    rw [UnitAddress.ext_iff, UnitAddress.padded, UnitAddress.padded, hexPadded_inj, UInt16.toNat_inj]
  have found (floppy other : FloppyDrive) : Heads floppy.route other.route ↔ floppy.place = other.place := by
    rw [route, route, PciDevice.heads_named (by decide) (by decide)]
    simp only [Heads, fits_named controller, fits_named last, padded, UnitAddress.numbers_inj, and_true,
      UInt32.toNat_inj, place, Prod.mk.injEq]
  rw [matchesEither_joined, found, found, eq_comm (a := other.place), or_self]

end FloppyDrive

/-! Disks behind SCSI controllers. -/

structure ScsiDisk where
  controller : PciDevice
  target : UInt32
  lun : UInt32

namespace ScsiDisk

def asTarget (disk : ScsiDisk) : Target :=
  .scsi disk.controller disk.target disk.lun

def place (disk : ScsiDisk) : (UInt8 × List (UInt8 × UInt8)) × UInt32 × UInt32 :=
  (disk.controller.place, disk.target, disk.lun)

def route (controller bus disk : Label) (scsi : ScsiDisk) : List Segment :=
  scsi.controller.route controller
    [⟨bus, .numbers 0 none⟩, ⟨disk, .numbers scsi.target.toNat (some scsi.lun.toNat)⟩]

theorem paths_eq (disk : ScsiDisk) : disk.asTarget.paths = [joined (disk.route .star .star .star)] := by
  rw [route, ← PciDevice.path_append]
  simp [asTarget, Target.paths, joined, Segment.text, body, UnitAddress.numbers, UnitAddress.suffix, Label.star,
    ← String.append_assoc]
  rw [String.append_assoc, String.append_assoc]
  rfl

theorem line_eq (disk : ScsiDisk) (names : Nat → Name) :
    ∃ controller bus last : Label, controller.IsLiteral ∧
      disk.asTarget.line names = joined (disk.route controller bus last) := by
  obtain ⟨segments, filled, line⟩ := Target.line_eq names disk.paths_eq
    (PciDevice.opened_route (.inl rfl) (by simp [Segment.Open]))
  obtain ⟨controller, others, rfl, literal, -, rest⟩ := PciDevice.filled_route filled
  obtain ⟨bus, _, rfl, -, rest⟩ := filled_star rest
  obtain ⟨last, _, rfl, -, rest⟩ := filled_star rest
  cases rest
  exact ⟨controller, bus, last, literal, line⟩

/-- All labels are open, so only controllers behind equally many bridges are told apart. -/
theorem matches_iff (disk other : ScsiDisk) {controller bus last : Label} (literal : controller.IsLiteral)
    (level : disk.controller.bridges.length = other.controller.bridges.length) :
    Glob.matchesEither (joined (disk.route .star .star .star)) (joined (other.route controller bus last)) = true ↔
      disk.place = other.place := by
  have backwards : ¬Heads (other.route controller bus last) (disk.route .star .star .star) := by
    intro heads
    obtain ⟨-, -, fits, -⟩ := (PciDevice.heads_route level.symm).mp heads
    exact not_fits literal literal.ne_star fits
  rw [matchesEither_joined, or_iff_left backwards, route, route, PciDevice.heads_open level]
  simp only [Heads, fits_open, UnitAddress.numbers_inj, and_true, true_and, Option.some_inj, UInt32.toNat_inj,
    place, Prod.mk.injEq]

end ScsiDisk

/-! Disks behind USB ports. -/

structure UsbDisk where
  device : UsbDevice
  lun : UInt32

namespace UsbDisk

def asTarget (disk : UsbDisk) : Target :=
  .usb disk.device disk.lun

def place (disk : UsbDisk) : ((UInt8 × List (UInt8 × UInt8)) × List UInt32) × UInt32 × UInt32 :=
  (disk.device.place, disk.device.port, disk.lun)

def route (bus last : Label) (disk : UsbDisk) : List Segment :=
  disk.device.route .storage [⟨bus, .numbers 0 none⟩, ⟨last, .numbers 0 (some disk.lun.toNat)⟩]

/-- The way to a device that a host redirects to the port. -/
def redirected (disk : UsbDisk) : List Segment :=
  disk.device.route .redirection []

theorem paths_eq (disk : UsbDisk) :
    disk.asTarget.paths = [joined (disk.route .star .star), joined disk.redirected] := by
  rw [route, redirected, ← UsbDevice.path_append, ← UsbDevice.path_append]
  simp [asTarget, Target.paths, joined, Segment.text, body, UnitAddress.numbers, UnitAddress.suffix,
    UnitAddress.port, Label.storage, Label.redirection, Label.star, ← String.append_assoc]
  simp only [String.append_assoc]
  rfl

theorem line_eq (disk : UsbDisk) (names : Nat → Name) :
    ∃ bus last : Label, bus.IsLiteral ∧ disk.asTarget.line names = joined (disk.route bus last) := by
  have storage : Label.storage.IsLiteral := by decide
  obtain ⟨segments, filled, line⟩ := Target.line_eq names disk.paths_eq
    (UsbDevice.opened_route storage (by simp [Segment.Open]))
  obtain ⟨others, rfl, rest⟩ := UsbDevice.filled_route storage.ne_star filled
  obtain ⟨bus, _, rfl, literal, rest⟩ := filled_star rest
  obtain ⟨last, _, rfl, -, rest⟩ := filled_star rest
  cases rest
  exact ⟨bus, last, literal, line⟩

theorem matches_iff (disk other : UsbDisk) {bus last : Label} (literal : bus.IsLiteral) :
    Glob.matchesEither (joined (disk.route .star .star)) (joined (other.route bus last)) = true ↔
      disk.place = other.place := by
  have storage : Label.storage.IsLiteral := by decide
  have backwards : ¬Heads (other.route bus last) (disk.route .star .star) := by
    intro heads
    obtain ⟨-, -, fits, -⟩ :=
      (UsbDevice.heads_route (fun _ => not_fits storage (by decide)) (by decide)).mp heads
    exact not_fits literal literal.ne_star fits
  rw [matchesEither_joined, or_iff_left backwards, route, route,
    UsbDevice.heads_route (fun _ => not_fits storage (by decide)) (by decide)]
  simp only [Heads, fits_open, fits_named storage, UnitAddress.port_injective.eq_iff, UnitAddress.numbers_inj, and_true,
    true_and, Option.some_inj, UInt32.toNat_inj, place, Prod.mk.injEq]

/-- Redirected devices and disks have no line in common. -/
theorem not_matches_redirected (disk other : UsbDisk) (bus last : Label) :
    Glob.matchesEither (joined disk.redirected) (joined (other.route bus last)) = false := by
  have storage : Label.storage.IsLiteral := by decide
  have forwards : ¬Heads disk.redirected (other.route bus last) := by
    intro heads
    obtain ⟨-, fits, -⟩ :=
      (UsbDevice.heads_route (fun _ => not_fits_initial rfl rfl (by decide) (by decide)) (by decide)).mp heads
    exact not_fits_initial rfl rfl (by decide) (by decide) fits
  have backwards : ¬Heads (other.route bus last) disk.redirected := by
    intro heads
    obtain ⟨-, fits, -⟩ :=
      (UsbDevice.heads_route (fun _ => not_fits storage (by decide)) (by decide)).mp heads
    exact not_fits storage (by decide) fits
  rw [Bool.eq_false_iff, ne_eq, matchesEither_joined, not_or]
  exact ⟨forwards, backwards⟩

end UsbDisk

namespace BootOrder

variable {σ : Type} [Logging σ]

/-- Whatever names its lines give, a driver finds a device by the first line about it and
by no line about another device. -/
theorem searchTarget_first_line (state : σ) :
    (∀ (disk : AtaDisk) (lines : List (AtaDisk × (Nat → Name))),
      ((ofLines (lines.map fun line => line.1.asTarget.line line.2)).searchTarget disk.asTarget state).1 =
        (lines.findIdx? fun line => disk.place = line.1.place).map (· + 1)) ∧
    (∀ (floppy : FloppyDrive) (lines : List (FloppyDrive × (Nat → Name))),
      ((ofLines (lines.map fun line => line.1.asTarget.line line.2)).searchTarget floppy.asTarget state).1 =
        (lines.findIdx? fun line => floppy.place = line.1.place).map (· + 1)) ∧
    (∀ (disk : UsbDisk) (lines : List (UsbDisk × (Nat → Name))),
      ((ofLines (lines.map fun line => line.1.asTarget.line line.2)).searchTarget disk.asTarget state).1 =
        (lines.findIdx? fun line => disk.place = line.1.place).map (· + 1)) ∧
    (∀ (disk : ScsiDisk) (lines : List (ScsiDisk × (Nat → Name))),
      (∀ line ∈ lines, line.1.controller.hops.length = disk.controller.hops.length) →
      ((ofLines (lines.map fun line => line.1.asTarget.line line.2)).searchTarget disk.asTarget state).1 =
        (lines.findIdx? fun line => disk.place = line.1.place).map (· + 1)) := by
  refine ⟨fun disk lines => ?ata, fun floppy lines => ?floppy, fun disk lines => ?usb,
    fun disk lines level => ?scsi⟩
  case ata =>
    refine searchTarget_ofLines state disk.paths_eq fun line _ => ?_
    obtain ⟨chosen, literal, shown⟩ := line.1.line_eq line.2
    refine ⟨line.1.route chosen, List.cons_ne_nil _ _, shown, ?_, by simp⟩
    rw [Bool.eq_iff_iff, disk.matches_iff line.1 literal, decide_eq_true_iff]
  case floppy =>
    refine searchTarget_ofLines state floppy.paths_eq fun line _ => ?_
    refine ⟨line.1.route, List.cons_ne_nil _ _, line.1.line_eq line.2, ?_, by simp⟩
    rw [Bool.eq_iff_iff, floppy.matches_iff line.1, decide_eq_true_iff]
  case usb =>
    refine searchTarget_ofLines state disk.paths_eq fun line _ => ?_
    obtain ⟨bus, last, literal, shown⟩ := line.1.line_eq line.2
    refine ⟨line.1.route bus last, List.cons_ne_nil _ _, shown, ?_, ?_⟩
    · rw [Bool.eq_iff_iff, disk.matches_iff line.1 literal, decide_eq_true_iff]
    · exact List.forall_mem_singleton.mpr (disk.not_matches_redirected line.1 bus last)
  case scsi =>
    refine searchTarget_ofLines state disk.paths_eq fun line member => ?_
    obtain ⟨controller, bus, last, literal, shown⟩ := line.1.line_eq line.2
    have depth : disk.controller.bridges.length = line.1.controller.bridges.length := by
      have hops := level line member
      rw [PciDevice.hops_eq, PciDevice.hops_eq, List.length_append, List.length_append] at hops
      exact (Nat.add_right_cancel hops).symm
    refine ⟨line.1.route controller bus last, List.cons_ne_nil _ _, shown, ?_, by simp⟩
    rw [Bool.eq_iff_iff, disk.matches_iff line.1 literal depth, decide_eq_true_iff]

/-- Two disks behind one bridge, the second of which is looked up. -/
theorem searchTarget_first_line_second :
    let controller : PciDevice :=
      .behind ⟨.pack 1 3 1, 0⟩ (.root ⟨.pack 0 2 0, 1⟩)
    let named : Name := ⟨⟨"scsi", by decide⟩, by decide⟩
    let lines : List (ScsiDisk × (Nat → Name)) :=
      [(⟨controller, 0, 0⟩, fun _ => named), (⟨controller, 1, 0⟩, fun _ => named)]
    (∀ line ∈ lines, line.1.controller.hops.length = controller.hops.length) ∧
      ((ofLines (lines.map fun line => line.1.asTarget.line line.2)).searchTarget
        (ScsiDisk.asTarget ⟨controller, 1, 0⟩) ({} : Scripted.Board)).1 = some 2 := by
  intro controller named lines
  have level : ∀ line ∈ lines, line.1.controller.hops.length = controller.hops.length := by decide
  exact ⟨level, ((searchTarget_first_line _).2.2.2 ⟨controller, 1, 0⟩ lines level).trans (by decide)⟩

end BootOrder

end BootFlow
