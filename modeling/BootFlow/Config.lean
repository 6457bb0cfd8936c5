import BootFlow.Keyboard
import BootFlow.Order
import BootFlow.Registry
import BootFlow.Text

namespace BootFlow

open Text

/-- Named settings: the text of a setting's file, if there is one. -/
abbrev Settings := String → Option String

namespace Settings

/-- An integer setting. A file that is missing or holds no number gives the default. -/
def number (settings : Settings) (name : String) (default : Nat) : Nat :=
  ((settings name).bind fun text => readNumber? (trim text.toList)).getD default

def bootOrderFile : String := "bootorder"
def failWaitFile : String := "etc/boot-fail-wait"
def menuEnabledFile : String := "etc/show-boot-menu"
def menuKeyFile : String := "etc/boot-menu-key"
def menuWaitFile : String := "etc/boot-menu-wait"
def menuMessageFile : String := "etc/boot-menu-message"

end Settings

/-- What happens once no entry is left to boot. -/
inductive RetryPolicy
  /-- Wait this many milliseconds, then restart the platform. -/
  | after (millis : UInt32)
  | never
  deriving DecidableEq, Repr

/-- The largest wait stands for no retry at all. -/
def RetryPolicy.ofMillis (millis : UInt32) : RetryPolicy :=
  if millis = 0xffffffff then .never else .after millis

structure Config where
  retry : RetryPolicy := .after 60000
  menuEnabled : Bool := true
  menuWait : UInt32 := 2500
  menuKey : MenuKey := MenuKey.f12
  /-- Printed before the countdown. -/
  menuMessage : Option String := none
  selectionTimeout : UInt32 := 15000
  /-- How long after the device list is shown an escape is not heard. -/
  escapeDebounce : UInt32 := 1500
  checkFloppySignature : Bool := true
  defaults : Defaults := {}
  deriving DecidableEq, Repr

namespace Config

/-- Times keep their low thirty-two bits, the menu key its low sixty-four. -/
def load (settings : Settings) : Config where
  retry := .ofMillis (UInt32.ofNat (settings.number Settings.failWaitFile 60000))
  menuEnabled := settings.number Settings.menuEnabledFile 1 != 0
  menuWait := UInt32.ofNat (settings.number Settings.menuWaitFile 2500)
  menuKey :=
    { packed := UInt64.ofNat (settings.number Settings.menuKeyFile MenuKey.f12.packed.toNat) }
  menuMessage := settings Settings.menuMessageFile

/-- Applies the NVRAM boot order of an emulated machine. The lowest bit of the
first flag switches off the check of floppy boot sectors. -/
def withBootFlags (config : Config) (flag1 flag2 : UInt8) : Config :=
  { config with
    defaults := .ofBootFlags flag1 flag2
    checkFloppySignature := flag1 &&& 1 == 0 }

end Config

end BootFlow
