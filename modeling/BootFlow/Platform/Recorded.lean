import BootFlow.Platform.Basic

namespace BootFlow

/-- A call on a platform. A call with an answer holds the answer. -/
inductive Call
  | readRegister (register : UInt16) (value : UInt8)
  | writeRegister (register : UInt16) (value : UInt8)
  | pollKey (scan : Option UInt8)
  | readClock (millis : Nat)
  | idle (budget : Option UInt32)
  | print (text : String)
  | status (text : String)
  | clear
  | showSplash (label : String)
  | hideSplash
  | showPaused
  | beginInputWait
  | endInputWait
  | printPlatformInfo
  | mapFloppy (drive : Drive)
  | mapHardDisk (drive : Drive) (id : UInt32)
  | mapCdRom (drive : Drive)
  | callConnectionVector (vector : FarPointer)
  | bootFloppy (checkSignature : Bool)
  | bootHardDisk (id : UInt32)
  | bootCdRom (drive : Drive)
  | bootCbfs (file : PayloadFile)
  | bootRom (vector : FarPointer)
  | post (code : UInt8)
  | reset
  | halt
  deriving DecidableEq, Repr

namespace Call

/-- Calls that only look at the platform or wait for it. -/
def isQuiet : Call → Bool
  | .readRegister .. | .pollKey _ | .readClock _ | .idle _ => true
  | _ => false

def isAttempt : Call → Bool
  | .bootFloppy _ | .bootHardDisk _ | .bootCdRom _ | .bootCbfs _ | .bootRom _ => true
  | _ => false

end Call

/-! Any platform can be run under record. The record changes nothing that the
platform does; log lines are not calls and pass through. -/

/-- A platform that tells when a call is made without being asked for its clock. -/
class Timeline (σ : Type) where
  moment : σ → Nat

structure Event where
  time : Nat
  call : Call
  deriving DecidableEq, Repr

/-- A platform and the calls made on it, in order. -/
structure Recorded (σ : Type) where
  platform : σ
  events : Array Event := #[]

namespace Recorded

variable {σ α : Type}

/-- Work on the platform, without a record of it. -/
def silently (action : Action σ α) : Action (Recorded σ) α :=
  fun recorded =>
    let (answer, platform) := (action.run recorded.platform).run
    (answer, { recorded with platform })

variable [Timeline σ]

/-- Work on the platform that is recorded as the call with its answer. -/
def recording (call : α → Call) (action : Action σ α) : Action (Recorded σ) α :=
  fun recorded =>
    let (answer, platform) := (action.run recorded.platform).run
    let event := { time := Timeline.moment recorded.platform, call := call answer }
    (answer, { platform, events := recorded.events.push event })

/-- Work without an answer. -/
def doing (call : Call) (action : Action σ Unit) : Action (Recorded σ) Unit :=
  recording (fun _ => call) action

instance [Logging σ] : Logging (Recorded σ) where
  emit level text := silently (Logging.emit level text)
  recent count recorded := Logging.recent count recorded.platform

instance [Registers σ] : Registers (Recorded σ) where
  readRegister register := recording (.readRegister register) (Registers.readRegister register)
  writeRegister register value :=
    doing (.writeRegister register value) (Registers.writeRegister register value)

instance [Keyboard σ] : Keyboard (Recorded σ) where
  pollKey := recording .pollKey Keyboard.pollKey

instance [Clock σ] : Clock (Recorded σ) where
  now := recording .readClock Clock.now
  idle budget := doing (.idle budget) (Clock.idle budget)

instance [Console σ] : Console (Recorded σ) where
  print text := doing (.print text) (Console.print text)
  status text := doing (.status text) (Console.status text)
  clear := doing .clear Console.clear
  showSplash label := doing (.showSplash label) (Console.showSplash label)
  hideSplash := doing .hideSplash Console.hideSplash
  splashActive recorded := Console.splashActive recorded.platform
  showPaused := doing .showPaused Console.showPaused
  beginInputWait := doing .beginInputWait Console.beginInputWait
  endInputWait := doing .endInputWait Console.endInputWait
  printPlatformInfo := doing .printPlatformInfo Console.printPlatformInfo

instance [DriveMapper σ] : DriveMapper (Recorded σ) where
  mapFloppy drive := doing (.mapFloppy drive) (DriveMapper.mapFloppy drive)
  mapHardDisk drive := recording (.mapHardDisk drive) (DriveMapper.mapHardDisk drive)
  mapCdRom drive := doing (.mapCdRom drive) (DriveMapper.mapCdRom drive)
  callConnectionVector vector :=
    doing (.callConnectionVector vector) (DriveMapper.callConnectionVector vector)

instance [Launcher σ] : Launcher (Recorded σ) where
  bootFloppy checkSignature :=
    doing (.bootFloppy checkSignature) (Launcher.bootFloppy checkSignature)
  bootHardDisk id := doing (.bootHardDisk id) (Launcher.bootHardDisk id)
  bootCdRom drive := doing (.bootCdRom drive) (Launcher.bootCdRom drive)
  bootCbfs file := doing (.bootCbfs file) (Launcher.bootCbfs file)
  bootRom vector := doing (.bootRom vector) (Launcher.bootRom vector)

instance [Machine σ] : Machine (Recorded σ) where
  post code := doing (.post code) (Machine.post code)
  reset := doing .reset Machine.reset
  halt := doing .halt Machine.halt

/-- The events that someone outside could notice. -/
def visible (recorded : Recorded σ) : List Event :=
  recorded.events.toList.filter (!·.call.isQuiet)

def budgets (recorded : Recorded σ) : List (Option UInt32) :=
  recorded.events.toList.filterMap fun event =>
    match event.call with
    | .idle budget => some budget
    | _ => none

end Recorded

/-- Events with adjacent prints of the same moment made one. -/
def joinPrints : List Event → List Event
  | [] => []
  | event :: rest =>
      match event.call, joinPrints rest with
      | .print text, { time, call := .print more } :: others =>
          if event.time = time then { time, call := .print (text ++ more) } :: others
          else event :: { time, call := .print more } :: others
      | _, joined => event :: joined

end BootFlow
