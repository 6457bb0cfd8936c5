import BootFlow.Proofs.Order.Laws
import BootFlow.Proofs.Order.Route

namespace BootFlow

open Segment Text

/-! The path of a device tells where it is: bus numbers apart, and the root bus numbers of nodes
behind bridges, it is read back into the hops it was written from. Segments are told apart by their
slashes, and a controller from its bridges and hubs by the labels. -/

/-- Texts one after the other, each behind a slash. -/
def slashed : List String → String
  | [] => ""
  | part :: rest => "/" ++ part ++ slashed rest

theorem slashed_append (front back : List String) : slashed (front ++ back) = slashed front ++ slashed back := by
  induction front with
  | nil => rw [List.nil_append, slashed, String.empty_append]
  | cons part front ih => simp only [List.cons_append, slashed, ih, String.append_assoc]

theorem slashed_inj {left right : List String} (plain : ∀ part ∈ left, '/' ∉ part.toList)
    (others : ∀ part ∈ right, '/' ∉ part.toList) : slashed left = slashed right ↔ left = right := by
  have first {part : String} (single : '/' ∉ part.toList) (rest : List String) :
      (part.toList ++ (slashed rest).toList).takeWhile (· != '/') = part.toList := by
    have within : ∀ c ∈ part.toList, (c != '/') = true := fun c member =>
      bne_iff_ne.mpr fun same => single (same ▸ member)
    rw [List.takeWhile_append_of_pos within]
    cases rest <;> simp [slashed]
  refine ⟨fun same => ?_, congrArg slashed⟩
  induction left generalizing right with
  | nil =>
      cases right with
      | nil => rfl
      | cons => simp [slashed, ← String.toList_inj] at same
  | cons part left ih =>
      cases right with
      | nil => simp [slashed, ← String.toList_inj] at same
      | cons other right =>
          rw [List.forall_mem_cons] at plain others
          have behind : part.toList ++ (slashed left).toList = other.toList ++ (slashed right).toList := by
            simpa [slashed, ← String.toList_inj] using same
          have heads : part = other := by
            rw [← String.toList_inj, ← first plain.1 left, behind, first others.1 right]
          rw [heads, List.append_cancel_left_eq, String.toList_inj] at behind
          rw [heads, ih plain.2 others.2 behind]

namespace Segment

theorem joined_eq_slashed (segments : List Segment) : joined segments = slashed (segments.map body) := by
  induction segments with
  | nil => rfl
  | cons segment segments ih =>
      rw [joined, ih]
      rfl

theorem body_injective : Function.Injective body := fun _ _ same =>
  bytes_body_inj.mp (congrArg bytes same)

theorem plain_bodies (segments : List Segment) : ∀ part ∈ segments.map body, '/' ∉ part.toList :=
  List.forall_mem_map.mpr fun segment _ member =>
    slash_notMem_body segment ((ascii_mem_bytes '/' (by decide)).mpr member)

theorem joined_injective : Function.Injective joined := by
  intro left right same
  rw [joined_eq_slashed, joined_eq_slashed, slashed_inj (plain_bodies left) (plain_bodies right)] at same
  exact List.map_injective_iff.mpr body_injective same

theorem run_injective {α : Type} (label : Label) {unit : α → UnitAddress} (distinct : Function.Injective unit) :
    Function.Injective (List.map fun one => Segment.mk label (unit one)) :=
  List.map_injective_iff.mpr fun _ _ same => distinct (congrArg Segment.unit same)

theorem heads_self (segments : List Segment) : Heads segments segments := by
  induction segments with
  | nil => trivial
  | cons segment segments ih => exact ⟨(Glob.stripBytes_self_behind_stars _).1, ih⟩

end Segment

namespace PciDevice

theorem way_inj {device other : PciDevice} :
    device.way = other.way ↔ device.rootBus = other.rootBus ∧ device.bridges = other.bridges := by
  rw [way, way, List.cons.injEq, (run_injective .bridge UnitAddress.slot_injective).eq_iff, Segment.mk.injEq,
    eq_self, true_and, UnitAddress.root_inj, UnitAddress.unlessZero_inj]

theorem path_eq_slashed (label : String) (device : PciDevice) :
    device.path label =
      slashed (device.way.map body ++ [label ++ "@" ++ (UnitAddress.slot device.slot).text]) := by
  rw [path_eq_way, slashed_append, ← joined_eq_slashed, slashed, slashed, String.append_empty]

theorem path_inj {label : String} (single : '/' ∉ label.toList) {device other : PciDevice} :
    device.path label = other.path label ↔ device.rootBus = other.rootBus ∧ device.hops = other.hops := by
  have plain (device : PciDevice) :
      ∀ part ∈ device.way.map body ++ [label ++ "@" ++ (UnitAddress.slot device.slot).text], '/' ∉ part.toList := by
    have unit : '/' ∉ (UnitAddress.slot device.slot).text.toList := fun member =>
      ((UnitAddress.slot device.slot).plain '/' member).1 rfl
    rw [List.forall_mem_append, List.forall_mem_singleton]
    exact ⟨plain_bodies device.way, by simp [single, unit]⟩
  rw [path_eq_slashed, path_eq_slashed, slashed_inj (plain device) (plain other), List.append_singleton_inj,
    (List.map_injective_iff.mpr body_injective).eq_iff, way_inj, String.append_right_inj, ← UnitAddress.ext_iff,
    UnitAddress.slot_injective.eq_iff, hops_inj, and_assoc]

theorem appendPath_eq (front label : String) (device : PciDevice) :
    device.appendPath front label = front ++ device.path label := by
  induction device generalizing label with
  | root node => simp only [appendPath, path, String.append_assoc]
  | behind node bridge ih => rw [appendPath, path, ih, String.append_assoc]

end PciDevice

namespace UsbHub

theorem path_inj {hub other : UsbHub} : hub.path = other.path ↔ hub.ports = other.ports := by
  rw [path_eq, path_eq, joined_injective.eq_iff, (run_injective .hub UnitAddress.port_injective).eq_iff]

theorem appendPath_eq (front : String) (hub : UsbHub) : hub.appendPath front = front ++ hub.path := by
  induction hub with
  | root controller => rw [appendPath, path, String.append_empty]
  | external controller upstream port ih => simp only [appendPath, path, ih, String.append_assoc]

/-- The controller ends where its label stands, so the hubs are what follows. -/
theorem controller_path_inj {controller otherController : PciDevice} {hub other : UsbHub} :
    controller.path "usb" ++ hub.path = otherController.path "usb" ++ other.path ↔
      (controller.rootBus = otherController.rootBus ∧ controller.hops = otherController.hops) ∧
        hub.ports = other.ports := by
  have located : controller.path "usb" = otherController.path "usb" ↔
      controller.rootBus = otherController.rootBus ∧ controller.hops = otherController.hops :=
    PciDevice.path_inj (by decide)
  rw [← located, ← path_inj]
  refine ⟨fun same => ?_, fun ⟨controllers, hubs⟩ => by rw [controllers, hubs]⟩
  have routes : controller.route .usb (hub.ports.map fun number => ⟨.hub, UnitAddress.port number⟩) =
      otherController.route .usb (other.ports.map fun number => ⟨.hub, UnitAddress.port number⟩) := by
    refine joined_injective ?_
    rw [← PciDevice.path_append, ← PciDevice.path_append, ← path_eq, ← path_eq]
    exact same
  have heads := heads_self (controller.route .usb (hub.ports.map fun number => ⟨.hub, UnitAddress.port number⟩))
  nth_rewrite 2 [routes] at heads
  have places : controller.place = otherController.place :=
    ((PciDevice.heads_named (by decide) (by decide)).mp heads).1
  have controllers : controller.path "usb" = otherController.path "usb" :=
    located.mpr (Prod.mk.inj places)
  rw [controllers, String.append_right_inj] at same
  exact ⟨controllers, same⟩

end UsbHub

/-- What is written for a device goes behind what is already there, and it is the same only for
devices in the same place: on the same root bus behind the same hops, and behind the same ports. -/
theorem paths_tell_places (front : String) :
    (∀ (label : String) (device : PciDevice), device.appendPath front label = front ++ device.path label) ∧
    (∀ hub : UsbHub, hub.appendPath front = front ++ hub.path) ∧
    (∀ label : String, '/' ∉ label.toList → ∀ device other : PciDevice,
      device.path label = other.path label ↔ device.rootBus = other.rootBus ∧ device.hops = other.hops) ∧
    (∀ hub other : UsbHub, hub.path = other.path ↔ hub.ports = other.ports) ∧
    (∀ (controller otherController : PciDevice) (hub other : UsbHub),
      hub.appendPath (controller.appendPath front "usb") =
          other.appendPath (otherController.appendPath front "usb") ↔
        (controller.rootBus = otherController.rootBus ∧ controller.hops = otherController.hops) ∧
          hub.ports = other.ports) := by
  refine ⟨fun label device => device.appendPath_eq front label, fun hub => hub.appendPath_eq front,
    fun label single device other => PciDevice.path_inj single, fun hub other => UsbHub.path_inj, ?_⟩
  intro controller otherController hub other
  simp only [UsbHub.appendPath_eq, PciDevice.appendPath_eq, String.append_assoc, String.append_right_inj]
  exact UsbHub.controller_path_inj

/-- Neither bus numbers nor the root bus number of a node behind a bridge are written. -/
theorem paths_tell_places_bridged :
    let device : PciDevice := .behind ⟨.pack 1 3 1, 0⟩ (.root ⟨.pack 0 2 0, 1⟩)
    let renumbered : PciDevice := .behind ⟨.pack 7 3 1, 9⟩ (.root ⟨.pack 5 2 0, 1⟩)
    let unbridged : PciDevice := .root ⟨.pack 1 3 1, 1⟩
    '/' ∉ "*@3".toList ∧ device.path "*@3" = renumbered.path "*@3" ∧ device.path "*@3" ≠ unbridged.path "*@3" := by
  intro device renumbered unbridged
  have single : '/' ∉ "*@3".toList := by decide
  have told := (paths_tell_places "").2.2.1 "*@3" single
  exact ⟨single, (told device renumbered).mpr (by decide), fun same => absurd ((told device unbridged).mp same) (by decide)⟩

end BootFlow
