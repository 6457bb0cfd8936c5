import BootFlow.Device
import BootFlow.Text

namespace BootFlow

open Text

namespace Glob

/-! Device path patterns, matched on UTF-8 bytes. A star takes bytes up to the
next slash, the end of the text, or the byte that follows the star in the
pattern; every other byte stands for itself. A match ends at the end of the
text or before a slash, so it never ends inside a path segment. -/

def star : UInt8 := 0x2a

def slash : UInt8 := 0x2f

/-- Whether a match may end before these bytes. -/
def atBoundary : List UInt8 → Bool
  | [] => true
  | byte :: _ => byte == slash

/-- What is left of the text after a star that is followed by `stop`. -/
def skipStar (stop : Option UInt8) (text : List UInt8) : List UInt8 :=
  text.dropWhile fun byte => byte != slash && some byte != stop

/-- What follows the part of the text that the pattern matches. -/
def stripBytes : List UInt8 → List UInt8 → Option (List UInt8)
  | [], text => if atBoundary text then some text else none
  | first :: pattern, text =>
      if first = star then stripBytes pattern (skipStar pattern.head? text)
      else match text with
        | [] => none
        | byte :: rest => if first = byte then stripBytes pattern rest else none

/-- The text after the part that the pattern matches. -/
def strip? (pattern text : String) : Option String :=
  (stripBytes (Text.bytes pattern) (Text.bytes text)).bind Text.ofBytes?

/-- Either side may be the one with the stars. -/
def matchesEither (left right : String) : Bool :=
  (strip? left right).isSome || (strip? right left).isSome

end Glob

/-- The configured order of preference: one device path pattern a line, the
most preferred first. The rank of a device is the number of the first line
that matches it. Blank lines count but match nothing. -/
structure BootOrder where
  entries : List String := []
  deriving DecidableEq, Repr

namespace BootOrder

/-- Lines end at line feeds only and lose their trailing blanks. A text without
a single line of content gives no entries. -/
def parse (raw : String) : BootOrder where
  entries :=
    if raw.toList.all isBlank then []
    else (lines raw.toList).map fun line => String.ofList (trimEnd line)

/-- A missing file configures nothing. -/
def ofFile (file : Option String) : BootOrder :=
  match file with
  | some raw => parse raw
  | none => {}

def rank? (order : BootOrder) (path : String) : Option Nat :=
  (order.entries.findIdx? fun entry => entry != "" && Glob.matchesEither path entry).map (· + 1)

/-- The entry that stops the boot. -/
def haltEntry : String := "HALT"

def haltRank? (order : BootOrder) : Option Nat :=
  order.rank? haltEntry

/-- The rank of the first of the device's paths that has one. -/
def targetRank? (order : BootOrder) (target : Target) : Option Nat :=
  target.paths.findSome? order.rank?

end BootOrder

end BootFlow
