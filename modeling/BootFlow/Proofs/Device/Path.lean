import BootFlow.Device
import BootFlow.Proofs.Order.Segment
import BootFlow.Proofs.Text.Numeral

namespace BootFlow

open Segment Text

/-! The paths of devices as segments. A unit address is one number or two, and no two
devices on a bus share one. -/

theorem Text.plain_of_isHexDigit {c : Char} (digit : isHexDigit c = true) :
    (c ≠ '/' ∧ c ≠ '*' ∧ isBlank c = false) ∧ c ≠ ',' := by
  have other {forbidden : Char} (unread : isHexDigit forbidden = false) : c ≠ forbidden := by
    rintro rfl
    rw [digit] at unread
    cases unread
  refine ⟨⟨other (by decide), other (by decide), Bool.eq_false_iff.mpr fun blank => ?_⟩, other (by decide)⟩
  have visible : 0x30 ≤ c.toNat ∧ c.toNat ≤ 0x66 := by
    simp only [isHexDigit, digitValue?] at digit
    have ordered (low high : Char) (within : low ≤ c ∧ c ≤ high) : low.toNat ≤ c.toNat ∧ c.toNat ≤ high.toNat :=
      within
    split at digit
    · have bounds := ordered '0' '9' ‹_›
      exact ⟨bounds.1, Nat.le_trans bounds.2 (by decide)⟩
    · split at digit
      · have bounds := ordered 'a' 'f' ‹_›
        exact ⟨Nat.le_trans (by decide) bounds.1, bounds.2⟩
      · split at digit
        · have bounds := ordered 'A' 'F' ‹_›
          exact ⟨Nat.le_trans (by decide) bounds.1, Nat.le_trans bounds.2 (by decide)⟩
        · cases digit
  simp only [isBlank, blankRanges, List.any_cons, List.any_nil, Bool.or_false, Bool.or_eq_true,
    Bool.and_eq_true, decide_eq_true_eq] at blank
  omega

namespace UnitAddress

/-- The second number of an address, where there is one. -/
def suffix : Option Nat → String
  | none => ""
  | some number => "," ++ hex number

theorem suffix_inj {left right : Option Nat} : suffix left = suffix right ↔ left = right := by
  have marked (number : Nat) : suffix (some number) ≠ "" := by
    simp [suffix, ← String.toList_inj]
  refine ⟨fun same => ?_, congrArg suffix⟩
  cases left with
  | none =>
      cases right with
      | none => rfl
      | some number => exact absurd same.symm (marked number)
  | some first =>
      cases right with
      | none => exact absurd same (marked first)
      | some second =>
          rw [suffix, suffix, String.append_right_inj, hex_inj] at same
          exact congrArg some same

theorem plain_suffix (part : Option Nat) :
    ∀ c ∈ (suffix part).toList, c ≠ '/' ∧ c ≠ '*' ∧ isBlank c = false := by
  cases part with
  | none => simp [suffix]
  | some number =>
      intro c member
      rw [suffix, String.toList_append, List.mem_append] at member
      rcases member with comma | digit
      · rw [List.mem_singleton.mp comma]
        decide
      · exact (plain_of_isHexDigit (isHexDigit_of_mem_hex digit)).1

theorem plain_append {front back : String}
    (plainFront : ∀ c ∈ front.toList, c ≠ '/' ∧ c ≠ '*' ∧ isBlank c = false)
    (plainBack : ∀ c ∈ back.toList, c ≠ '/' ∧ c ≠ '*' ∧ isBlank c = false) :
    ∀ c ∈ (front ++ back).toList, c ≠ '/' ∧ c ≠ '*' ∧ isBlank c = false := by
  intro c member
  rw [String.toList_append, List.mem_append] at member
  exact member.elim (plainFront c) (plainBack c)

/-- A number, and perhaps a second one behind a comma. -/
def numbers (number : Nat) (part : Option Nat) : UnitAddress where
  text := hex number ++ suffix part
  plain := plain_append (fun _ digit => (plain_of_isHexDigit (isHexDigit_of_mem_hex digit)).1)
    (plain_suffix part)

theorem numbers_inj {number other : Nat} {part otherPart : Option Nat} :
    numbers number part = numbers other otherPart ↔ number = other ∧ part = otherPart := by
  have front (number : Nat) (part : Option Nat) :
      (hex number ++ suffix part).toList.takeWhile (· != ',') = (hex number).toList := by
    have within : ∀ c ∈ (hex number).toList, (c != ',') = true := fun c digit =>
      bne_iff_ne.mpr (plain_of_isHexDigit (isHexDigit_of_mem_hex digit)).2
    rw [String.toList_append, List.takeWhile_append_of_pos within]
    cases part with
    | none => simp [suffix]
    | some second => simp [suffix]
  refine ⟨fun same => ?_, fun ⟨first, second⟩ => by rw [first, second]⟩
  have texts : hex number ++ suffix part = hex other ++ suffix otherPart := congrArg text same
  have firsts : hex number = hex other := by
    rw [← String.toList_inj, ← front number part, texts, front]
  rw [firsts, String.append_right_inj, suffix_inj] at texts
  exact ⟨hex_inj.mp firsts, texts⟩

def padded (width number : Nat) : UnitAddress where
  text := hexPadded width number
  plain := fun _ digit => (plain_of_isHexDigit (isHexDigit_of_mem_hexPadded digit)).1

/-- The port through which the machine's bus is reached, and the number of the root bus
unless it is zero. -/
def root (part : Option Nat) : UnitAddress where
  text := "i0cf8" ++ suffix part
  plain := plain_append (by decide) (plain_suffix part)

theorem root_inj {left right : Option Nat} : root left = root right ↔ left = right := by
  rw [UnitAddress.ext_iff, root, root, String.append_right_inj, suffix_inj]

/-- Numbers that are left out where they are zero. -/
def unlessZero (number : UInt8) : Option Nat :=
  if number = 0 then none else some number.toNat

theorem unlessZero_inj {left right : UInt8} : unlessZero left = unlessZero right ↔ left = right := by
  refine ⟨fun same => ?_, congrArg unlessZero⟩
  unfold unlessZero at same
  split at same <;> split at same
  · simp [*]
  · cases same
  · cases same
  · exact UInt8.toNat_inj.mp (Option.some.inj same)

theorem suffix_unlessZero (number : UInt8) :
    suffix (unlessZero number) = if number = 0 then "" else "," ++ hex number.toNat := by
  unfold unlessZero
  split <;> rfl

/-- Device and function number. -/
def slot (hop : UInt8 × UInt8) : UnitAddress :=
  numbers hop.1.toNat (unlessZero hop.2)

theorem slot_injective : Function.Injective slot := by
  intro left right same
  obtain ⟨devices, functions⟩ := numbers_inj.mp same
  exact Prod.ext (UInt8.toNat_inj.mp devices) (unlessZero_inj.mp functions)

/-- The ports of a hub count from one. -/
def port (number : UInt32) : UnitAddress :=
  numbers (number.toNat + 1) none

theorem port_injective : Function.Injective port := by
  intro left right same
  exact UInt32.toNat_inj.mp (Nat.succ.inj (numbers_inj.mp same).1)

end UnitAddress

namespace Label

def pci : Label := ⟨"pci", by decide⟩
def bridge : Label := ⟨"pci-bridge", by decide⟩
def isa : Label := ⟨"isa", by decide⟩
def usb : Label := ⟨"usb", by decide⟩
def drive : Label := ⟨"drive", by decide⟩
def disk : Label := ⟨"disk", by decide⟩
def floppyController : Label := ⟨"fdc", by decide⟩
def floppy : Label := ⟨"floppy", by decide⟩
def hub : Label := ⟨"hub", by decide⟩
def storage : Label := ⟨"storage", by decide⟩
def redirection : Label := ⟨"usb-*", by decide⟩

end Label

namespace PciDevice

def rootBus : PciDevice → UInt8
  | .root node => node.rootBus
  | .behind _ bridge => bridge.rootBus

/-- Device and function number of the hop that is the device itself. -/
def slot (device : PciDevice) : UInt8 × UInt8 :=
  (device.node.address.device, device.node.address.function)

/-- Device and function numbers of all hops, from the root bus down. -/
def hops : PciDevice → List (UInt8 × UInt8)
  | .root node => [(PciDevice.root node).slot]
  | .behind node bridge => bridge.hops ++ [(PciDevice.behind node bridge).slot]

/-- The bridges on the way to the device. -/
def bridges : PciDevice → List (UInt8 × UInt8)
  | .root _ => []
  | .behind _ bridge => bridge.hops

theorem hops_eq (device : PciDevice) : device.hops = device.bridges ++ [device.slot] := by
  cases device <;> rfl

theorem hops_inj {device other : PciDevice} :
    device.hops = other.hops ↔ device.bridges = other.bridges ∧ device.slot = other.slot := by
  rw [hops_eq, hops_eq, List.append_singleton_inj]

/-- The way up to the device's own hop. -/
def way (device : PciDevice) : List Segment :=
  ⟨.pci, .root (UnitAddress.unlessZero device.rootBus)⟩ ::
    device.bridges.map fun hop => ⟨.bridge, UnitAddress.slot hop⟩

/-- The way to the device, which goes by `label`, and on from it. -/
def route (label : Label) (onwards : List Segment) (device : PciDevice) : List Segment :=
  ⟨.pci, .root (UnitAddress.unlessZero device.rootBus)⟩ ::
    (device.bridges.map (fun hop => ⟨.bridge, UnitAddress.slot hop⟩) ++
      ⟨label, UnitAddress.slot device.slot⟩ :: onwards)

theorem route_eq (label : Label) (onwards : List Segment) (device : PciDevice) :
    device.route label onwards = device.way ++ ⟨label, UnitAddress.slot device.slot⟩ :: onwards := rfl

theorem way_behind (node : PciNode) (bridge : PciDevice) :
    (PciDevice.behind node bridge).way = bridge.way ++ [⟨.bridge, UnitAddress.slot bridge.slot⟩] := by
  have passed : (PciDevice.behind node bridge).bridges = bridge.bridges ++ [bridge.slot] := bridge.hops_eq
  rw [way, passed, List.map_append]
  rfl

theorem segment_eq (label : String) (address : PciAddress) :
    segment label address =
      "/" ++ (label ++ "@" ++ (UnitAddress.slot (address.device, address.function)).text) := by
  simp only [segment, UnitAddress.slot, UnitAddress.numbers, UnitAddress.suffix_unlessZero, String.append_assoc]

theorem path_eq_way (label : String) (device : PciDevice) :
    device.path label = joined device.way ++ ("/" ++ (label ++ "@" ++ (UnitAddress.slot device.slot).text)) := by
  induction device generalizing label with
  | root node =>
      rw [path, segment_eq, way, bridges, List.map_nil, joined, joined, String.append_empty,
        ← UnitAddress.suffix_unlessZero]
      rfl
  | behind node bridge ih =>
      rw [path, ih, segment_eq, way_behind, joined_append, joined, joined, String.append_empty]
      rfl

theorem path_eq (label : Label) (device : PciDevice) : device.path label.text = joined (device.route label []) := by
  rw [path_eq_way, route_eq, joined_append, joined, joined, String.append_empty]
  rfl

theorem path_append (label : Label) (onwards : List Segment) (device : PciDevice) :
    device.path label.text ++ joined onwards = joined (device.route label onwards) := by
  rw [path_eq, ← joined_append]
  simp [route]

section

variable {device other : PciDevice} {label otherLabel : Label} {onwards otherOnwards : List Segment}

/-- Behind equally many bridges one route matches the other hop by hop. -/
theorem heads_route (level : device.bridges.length = other.bridges.length) :
    Heads (device.route label onwards) (other.route otherLabel otherOnwards) ↔
      device.rootBus = other.rootBus ∧ device.bridges = other.bridges ∧
      Fits ⟨label, UnitAddress.slot device.slot⟩ ⟨otherLabel, UnitAddress.slot other.slot⟩ ∧
      Heads onwards otherOnwards := by
  have roots : Fits ⟨.pci, .root (UnitAddress.unlessZero device.rootBus)⟩
      ⟨.pci, .root (UnitAddress.unlessZero other.rootBus)⟩ ↔ device.rootBus = other.rootBus := by
    rw [fits_literal (show Label.pci.IsLiteral by decide), Segment.mk.injEq, eq_self, true_and,
      UnitAddress.root_inj, UnitAddress.unlessZero_inj]
  rw [route, route, Heads, roots, heads_run (by decide) UnitAddress.slot_injective level]

end

end PciDevice

namespace UsbHub

/-- The ports on the way from the controller to the hub. -/
def ports : UsbHub → List UInt32
  | .root _ => []
  | .external _ upstream port => upstream.ports ++ [port]

theorem path_eq (hub : UsbHub) :
    hub.path = joined (hub.ports.map fun number => ⟨.hub, UnitAddress.port number⟩) := by
  induction hub with
  | root controller => rfl
  | external controller upstream number ih =>
      rw [path, ports, List.map_append, joined_append, ih, String.append_assoc]
      congr 1
      simp only [List.map_cons, List.map_nil, joined, Segment.text, body, UnitAddress.port,
        UnitAddress.numbers, UnitAddress.suffix, String.append_empty, String.append_assoc]
      rfl

end UsbHub

end BootFlow
