import BootFlow.Text

namespace BootFlow

open Text

/-- Bus, device and function numbers packed into eight, five and three bits. -/
structure PciAddress where
  packed : UInt16
  deriving DecidableEq, Repr

namespace PciAddress

/-- Device and function numbers keep the bits that fit. -/
def pack (bus device function : UInt8) : PciAddress where
  packed := (bus.toUInt16 <<< 8) ||| ((device &&& 0x1f).toUInt16 <<< 3) ||| (function &&& 0x07).toUInt16

def device (address : PciAddress) : UInt8 :=
  ((address.packed >>> 3) &&& 0x1f).toUInt8

def function (address : PciAddress) : UInt8 :=
  (address.packed &&& 0x07).toUInt8

end PciAddress

/-- One hop of a path over PCI buses. The root bus number counts at the first
hop only. -/
structure PciNode where
  address : PciAddress
  rootBus : UInt8 := 0
  deriving DecidableEq, Repr

/-- A PCI function on a root bus or behind a bridge. -/
inductive PciDevice
  | root (node : PciNode)
  | behind (node : PciNode) (bridge : PciDevice)
  deriving DecidableEq, Repr

namespace PciDevice

def node : PciDevice → PciNode
  | .root node => node
  | .behind node _ => node

/-- The bus of the whole machine, reached through the I/O port it is named for. -/
def domain : String := "/pci@i0cf8"

def bridgeLabel : String := "pci-bridge"

/-- One segment: label, device number, and the function number unless it is zero. -/
def segment (label : String) (address : PciAddress) : String :=
  "/" ++ label ++ "@" ++ hex address.device.toNat
    ++ (if address.function = 0 then "" else "," ++ hex address.function.toNat)

/-- The path from the machine's bus down to the device, which goes by `label`. -/
def path (label : String) : PciDevice → String
  | .root node =>
      domain ++ (if node.rootBus = 0 then "" else "," ++ hex node.rootBus.toNat)
        ++ segment label node.address
  | .behind node bridge => path bridgeLabel bridge ++ segment label node.address

/-- Writes the path behind what is already there. -/
def appendPath (front label : String) : PciDevice → String
  | .root node =>
      front ++ domain ++ (if node.rootBus = 0 then "" else "," ++ hex node.rootBus.toNat)
        ++ segment label node.address
  | .behind node bridge => bridge.appendPath front bridgeLabel ++ segment label node.address

end PciDevice

/-- The hub that a host controller provides, or one plugged into a port of
another hub. Ports count from zero. -/
inductive UsbHub
  | root (controller : PciDevice)
  | external (controller : PciDevice) (upstream : UsbHub) (port : UInt32)
  deriving DecidableEq, Repr

namespace UsbHub

def controller : UsbHub → PciDevice
  | .root controller => controller
  | .external controller _ _ => controller

/-- One segment for each external hub, the one next to the controller first.
Paths count ports from one. -/
def path : UsbHub → String
  | .root _ => ""
  | .external _ upstream port => upstream.path ++ "/hub@" ++ hex (port.toNat + 1)

/-- Writes the path behind what is already there. -/
def appendPath (front : String) : UsbHub → String
  | .root _ => front
  | .external _ upstream port => upstream.appendPath front ++ "/hub@" ++ hex (port.toNat + 1)

end UsbHub

structure UsbDevice where
  hub : UsbHub
  port : UInt32
  deriving DecidableEq, Repr

/-- A device that a driver looks up in the boot order. Disks and floppies are
looked up only when their controller is known. -/
inductive Target
  | pci (device : PciDevice)
  | scsi (controller : Option PciDevice) (target lun : UInt32)
  | ata (controller : Option PciDevice) (channel slave : UInt32)
  | floppy (bridge : Option PciDevice) (port : UInt16) (drive : UInt32)
  | pciRom (device : PciDevice) (instanceNumber : UInt32)
  | namedRom (file : String) (instanceNumber : UInt32)
  | usb (device : UsbDevice) (lun : UInt32)
  deriving DecidableEq, Repr

namespace Target

/-- The first image of a device has no suffix. -/
def romSuffix (instanceNumber : UInt32) : String :=
  if instanceNumber = 0 then "" else ":rom" ++ hex instanceNumber.toNat

/-- The path patterns a device goes by, the preferred one first. Labels that
the boot order may choose freely are stars. -/
def paths : Target → List String
  | .pci device => [device.path "*"]
  | .scsi controller target lun =>
      controller.toList.map fun controller =>
        controller.path "*" ++ "/*@0/*@" ++ hex target.toNat ++ "," ++ hex lun.toNat
  | .ata controller channel slave =>
      controller.toList.map fun controller =>
        controller.path "*" ++ "/drive@" ++ hex channel.toNat ++ "/disk@" ++ hex slave.toNat
  | .floppy bridge port drive =>
      bridge.toList.map fun bridge =>
        bridge.path "isa" ++ "/fdc@" ++ hexPadded 4 port.toNat ++ "/floppy@" ++ hex drive.toNat
  | .pciRom device instanceNumber => [device.path "*" ++ romSuffix instanceNumber]
  | .namedRom file instanceNumber => ["/rom@" ++ file ++ romSuffix instanceNumber]
  | .usb device lun =>
      let base := device.hub.controller.path "usb" ++ device.hub.path
      let port := hex (device.port.toNat + 1)
      [base ++ "/storage@" ++ port ++ "/*@0/*@0," ++ hex lun.toNat, base ++ "/usb-*@" ++ port]

end Target

end BootFlow
