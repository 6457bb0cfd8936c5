import BootFlow.Proofs.Device.Path
import BootFlow.Proofs.Order.Line

namespace BootFlow

open Segment Text

/-! Where a line matches the path of a device, both go over the same bridges and hubs to
the same place. -/

instance : DecidableEq Label := fun left right => decidable_of_iff (left.text = right.text) Label.ext_iff.symm

theorem Label.IsLiteral.ne_star {label : Label} (literal : label.IsLiteral) : label ≠ .star := by
  rintro rfl
  exact absurd literal (by decide)

theorem Segment.not_fits {label other : Label} {unit otherUnit : UnitAddress} (literal : label.IsLiteral)
    (apart : label ≠ other) : ¬Fits ⟨label, unit⟩ ⟨other, otherUnit⟩ := fun fits =>
  apart (congrArg Segment.label ((fits_literal literal).mp fits))

theorem Segment.fits_named {label : Label} {unit other : UnitAddress} (literal : label.IsLiteral) :
    Fits ⟨label, unit⟩ ⟨label, other⟩ ↔ unit = other := by
  rw [fits_literal literal, Segment.mk.injEq, eq_self, true_and]

theorem Segment.fits_open {label : Label} {unit other : UnitAddress} :
    Fits ⟨.star, unit⟩ ⟨label, other⟩ ↔ unit = other :=
  fits_star rfl

/-- A label that starts with a letter of its own stands for no label that starts with another. -/
theorem Segment.not_fits_initial {label other : Label} {unit otherUnit : UnitAddress} {first byte : UInt8}
    {later text : List UInt8} (patterned : bytes label.text = first :: later) (shown : bytes other.text = byte :: text)
    (letter : first ≠ Glob.star) (apart : first ≠ byte) : ¬Fits ⟨label, unit⟩ ⟨other, otherUnit⟩ := by
  rw [Fits, bytes_body, bytes_body, patterned, shown, List.cons_append, List.cons_append, Glob.stripBytes,
    if_neg letter]
  simp [apart]

namespace PciDevice

variable {device other : PciDevice} {label chosen : Label} {onwards others : List Segment}

/-- Root bus, and device and function numbers on the way. -/
def place (device : PciDevice) : UInt8 × List (UInt8 × UInt8) :=
  (device.rootBus, device.hops)

theorem place_inj : device.place = other.place ↔
    device.rootBus = other.rootBus ∧ device.bridges = other.bridges ∧ device.slot = other.slot := by
  rw [place, place, Prod.mk.injEq, hops_inj]

theorem opened_route (opened : label = .star ∨ label.IsLiteral) (rest : ∀ pattern ∈ onwards, pattern.Open) :
    ∀ pattern ∈ device.route label onwards, pattern.Open := by
  simp only [route, List.mem_cons, List.mem_append, List.mem_map]
  rintro pattern (rfl | ⟨hop, -, rfl⟩ | rfl | member)
  · exact .inr (show Label.pci.IsLiteral by decide)
  · exact .inr (show Label.bridge.IsLiteral by decide)
  · exact opened
  · exact rest pattern member

theorem filled_route {segments : List Segment} (filled : List.Forall₂ Filled (device.route label onwards) segments) :
    ∃ chosen others, segments = device.route chosen others ∧ chosen.IsLiteral ∧
      (label = .star ∨ chosen = label) ∧ List.Forall₂ Filled onwards others := by
  have named : ∀ pattern ∈ device.way, pattern.label ≠ .star := by
    intro pattern member
    rcases List.mem_cons.mp member with rfl | member
    · exact show Label.pci ≠ Label.star by decide
    · obtain ⟨hop, -, rfl⟩ := List.mem_map.mp member
      exact show Label.bridge ≠ Label.star by decide
  obtain ⟨rest, rfl, behind⟩ := filled_literal named (route_eq label onwards device ▸ filled)
  obtain ⟨segment, others, first, later, rfl⟩ := List.forall₂_cons_left_iff.mp behind
  obtain ⟨unit, literal, choice⟩ := first
  refine ⟨segment.label, others, ?_, literal, choice, later⟩
  rw [show segment = ⟨segment.label, UnitAddress.slot device.slot⟩ from Segment.ext rfl unit]
  rfl

/-- Behind equally many bridges an open controller is told by its place. -/
theorem heads_open (level : device.bridges.length = other.bridges.length) :
    Heads (device.route .star onwards) (other.route chosen others) ↔
      device.place = other.place ∧ Heads onwards others := by
  rw [heads_route level, fits_open, UnitAddress.slot_injective.eq_iff, place_inj, and_assoc, and_assoc]

/-- A controller with a name of its own is never taken for a bridge. -/
theorem heads_named (literal : label.IsLiteral) (apart : label ≠ .bridge) :
    Heads (device.route label onwards) (other.route label others) ↔
      device.place = other.place ∧ Heads onwards others := by
  have level : Heads (device.route label onwards) (other.route label others) →
      device.bridges.length = other.bridges.length := fun heads =>
    heads_run_length (fun _ _ fits => absurd fits (not_fits literal apart))
      (fun _ _ fits => absurd fits (not_fits (by decide) (Ne.symm apart))) heads.2
  have equal (places : device.place = other.place) : device.bridges.length = other.bridges.length :=
    congrArg List.length (place_inj.mp places).2.1
  have leveled (level : device.bridges.length = other.bridges.length) :
      Heads (device.route label onwards) (other.route label others) ↔
        device.place = other.place ∧ Heads onwards others := by
    rw [heads_route level, fits_named literal, UnitAddress.slot_injective.eq_iff, place_inj, and_assoc, and_assoc]
  exact ⟨fun heads => (leveled (level heads)).mp heads, fun found => (leveled (equal found.1)).mpr found⟩

end PciDevice

namespace UsbDevice

/-- The way over controller and hubs to the port, where the device goes by `label`. -/
def route (label : Label) (onwards : List Segment) (device : UsbDevice) : List Segment :=
  device.hub.controller.route .usb
    (device.hub.ports.map (fun number => ⟨.hub, UnitAddress.port number⟩) ++
      ⟨label, UnitAddress.port device.port⟩ :: onwards)

def place (device : UsbDevice) : (UInt8 × List (UInt8 × UInt8)) × List UInt32 :=
  (device.hub.controller.place, device.hub.ports)

/-- What is no hub is at its own port only. -/
theorem heads_route {device other : UsbDevice} {label otherLabel : Label} {onwards others : List Segment}
    (short : ∀ number, ¬Fits ⟨label, UnitAddress.port device.port⟩ ⟨.hub, UnitAddress.port number⟩)
    (long : otherLabel ≠ .hub) :
    Heads (device.route label onwards) (other.route otherLabel others) ↔
      device.place = other.place ∧
        Fits ⟨label, UnitAddress.port device.port⟩ ⟨otherLabel, UnitAddress.port other.port⟩ ∧
        Heads onwards others := by
  have hub : Label.hub.IsLiteral := by decide
  have places : device.place = other.place ↔
      device.hub.controller.place = other.hub.controller.place ∧ device.hub.ports = other.hub.ports := by
    rw [place, place, Prod.mk.injEq]
  rw [route, route, PciDevice.heads_named (by decide) (by decide), places, and_assoc]
  refine and_congr_right fun _ => ⟨fun heads => ?_, fun ⟨ports, found⟩ => ?_⟩
  · have level := heads_run_length (fun number _ fits => absurd fits (short number))
      (fun _ _ fits => absurd fits (not_fits hub (Ne.symm long))) heads
    exact (heads_run hub UnitAddress.port_injective level).mp heads
  · exact (heads_run hub UnitAddress.port_injective (congrArg List.length ports)).mpr ⟨ports, found⟩

theorem path_append (label : Label) (onwards : List Segment) (device : UsbDevice) :
    device.hub.controller.path "usb" ++ device.hub.path ++
        joined (⟨label, UnitAddress.port device.port⟩ :: onwards) = joined (device.route label onwards) := by
  rw [route, ← PciDevice.path_append, joined_append, UsbHub.path_eq, String.append_assoc]
  rfl

theorem opened_route {device : UsbDevice} {label : Label} {onwards : List Segment} (literal : label.IsLiteral)
    (rest : ∀ pattern ∈ onwards, pattern.Open) : ∀ pattern ∈ device.route label onwards, pattern.Open := by
  refine PciDevice.opened_route (.inr (by decide)) ?_
  simp only [List.mem_append, List.mem_map, List.mem_cons]
  rintro pattern (⟨number, -, rfl⟩ | rfl | member)
  · exact .inr (show Label.hub.IsLiteral by decide)
  · exact .inr literal
  · exact rest pattern member

theorem filled_route {device : UsbDevice} {label : Label} {onwards segments : List Segment} (named : label ≠ .star)
    (filled : List.Forall₂ Filled (device.route label onwards) segments) :
    ∃ others, segments = device.route label others ∧ List.Forall₂ Filled onwards others := by
  obtain ⟨chosen, others, rfl, -, starred | rfl, rest⟩ := PciDevice.filled_route filled
  · exact absurd starred (by decide)
  · have hubs : ∀ pattern ∈ device.hub.ports.map (fun number => Segment.mk .hub (UnitAddress.port number)),
        pattern.label ≠ .star := by
      intro pattern member
      obtain ⟨number, -, rfl⟩ := List.mem_map.mp member
      exact show Label.hub ≠ .star by decide
    obtain ⟨behind, rfl, later⟩ := filled_literal hubs rest
    have end_named : ∀ pattern ∈ [Segment.mk label (UnitAddress.port device.port)], pattern.label ≠ .star :=
      List.forall_mem_singleton.mpr named
    obtain ⟨others, rfl, last⟩ := filled_literal end_named later
    exact ⟨others, rfl, last⟩

end UsbDevice

end BootFlow
