import BootFlow.Text

namespace BootFlow

namespace ScanCode

def escape : UInt8 := 0x01
def digit1 : UInt8 := 0x02
def digit9 : UInt8 := 0x0a
def enter : UInt8 := 0x1c
def f1 : UInt8 := 0x3b
def f9 : UInt8 := 0x43
def f11 : UInt8 := 0x85
def f12 : UInt8 := 0x86

/-- The digit key of a function key from F1 to F9. Other keys stay. -/
def digitOfFunctionKey (scan : UInt8) : UInt8 :=
  if f1 ≤ scan && scan ≤ f9 then digit1 + (scan - f1) else scan

/-- The menu position of a key: its code less one, so that the digit keys give
their number and escape gives zero. -/
def position (scan : UInt8) : Nat :=
  scan.toNat - 1

end ScanCode

/-- The key that opens the menu: its code in the low sixteen bits, and above it
up to six bytes of label, the first of them lowest. -/
structure MenuKey where
  packed : UInt64
  deriving DecidableEq, Repr

namespace MenuKey

def code (key : MenuKey) : UInt16 :=
  key.packed.toUInt16

def isPressed (key : MenuKey) (scan : UInt8) : Bool :=
  key.code == scan.toUInt16

/-- The bytes above the code. -/
def labelBytes (key : MenuKey) : List UInt8 :=
  ([2, 3, 4, 5, 6, 7] : List UInt64).map fun index => (key.packed >>> (8 * index)).toUInt8

/-- The label ends before its first zero byte. Bytes that are no text show nothing. -/
def label (key : MenuKey) : String :=
  (Text.ofBytes? (key.labelBytes.takeWhile (· != 0))).getD ""

/-- A key with a code of one byte. Labels are cut to five bytes. -/
def make (scan : UInt8) (label : String) : MenuKey where
  packed :=
    let text : UInt64 := ((Text.bytes label).take 5).foldr
      (fun byte above => byte.toUInt64 ||| (above <<< 8)) 0
    scan.toUInt64 ||| (text <<< 16)

def escape : MenuKey := make ScanCode.escape "ESC"
def f1 : MenuKey := make ScanCode.f1 "F1"
def f11 : MenuKey := make ScanCode.f11 "F11"
def f12 : MenuKey := make ScanCode.f12 "F12"

end MenuKey

end BootFlow
