import BootFlow.Config
import BootFlow.Recovery
import BootFlow.Wait

namespace BootFlow.Menu

open Console Logging Machine Registers Text Waiting

/-- The phases of the boot menu. A run goes through them downwards and skips
some: autoselect always comes first and done always last. -/
inductive Phase
  | autoselect
  | countdown
  | awaitMenuKey
  | paused
  | deviceList
  | awaitSelection
  | done
  deriving DecidableEq, Repr

namespace Phase

def initial : Phase := .autoselect

def name : Phase → String
  | .autoselect => "autoselect"
  | .countdown => "countdown"
  | .awaitMenuKey => "await-menu-key"
  | .paused => "paused"
  | .deviceList => "device-list"
  | .awaitSelection => "await-selection"
  | .done => "done"

def isTerminal : Phase → Bool
  | .done => true
  | _ => false

end Phase

/-! The boot menu runs once per boot, before the candidates are flattened. It
starts with what recovery selects, so that a board that nobody watches still
goes through its entries. Where the debug jumper is fitted an operator may then
open a list of the candidates and pick one. -/

/-- The first 59 characters of a description, the width of the menu's column. -/
def describe (description : String) : String :=
  String.ofList (description.toList.take 59)

/-- Lines of the menu: position, counted from `position`, and description. -/
def printCandidates {σ : Type} [Console σ] (indent : String) (position : Nat) :
    List Candidate → Action σ Unit
  | [] => return ()
  | candidate :: others => do
      print (indent ++ decimal position ++ ". " ++ describe candidate.description ++ "\n")
      printCandidates indent (position + 1) others

/-- Promotes the candidate at a position and announces it. -/
def select {σ : Type} [Console σ] (registry : Registry) (position : Nat) : Action σ Registry := do
  match registry.at? position with
  | some candidate =>
      print ("\nChose bootmenu item " ++ decimal position ++ ": " ++ candidate.description ++ "\n\n")
      return registry.promote position
  | none => return registry

/-- Leaves the bus of the front candidate and the chosen position for the next boot. -/
def recordSelection {σ : Type} [Registers σ] (registry : Registry) (position : Nat) :
    Action σ Unit :=
  let source := match registry.first? with
    | some candidate => BootSource.classify candidate.description
    | none => .none
  writeRegister Register.bootSource (source.encode position)

structure Session where
  registry : Registry
  /-- The position, counted from one, that goes into the boot source register. -/
  selection : Nat := 0
  /-- The recovery rule behind the selection, unless an operator made it. -/
  rule : Option Recovery.Rule := none
  operatorChoice : Bool := false
  splashShown : Bool := false
  /-- A restart of the platform was asked for. -/
  restarted : Bool := false
  deriving DecidableEq, Repr

section

variable {σ : Type} [Logging σ]

/-- Says in the log that the menu moves from one phase to another. -/
def move (source target : Phase) : Action σ Unit :=
  emit .debug ("bootmenu: " ++ source.name ++ " -> " ++ target.name)

/-- Leaves a phase for the end of the menu. -/
def leave (source : Phase) (session : Session) : Action σ Session := do
  move source .done
  return session

end

variable {σ : Type}
  [Registers σ] [Keyboard σ] [Clock σ] [Console σ] [Machine σ] [Logging σ]

def awaitKey (patience : Nat) (timeout : Timeout) : Waiting σ (Option UInt8) := do
  perform beginInputWait
  let scan ← Keystroke.await patience timeout
  perform endInputWait
  return scan

/-- What a key means to the device list. -/
inductive Reply
  /-- Go on with the selection there is. -/
  | keep
  | choose (position : Nat)
  | ignore
  deriving DecidableEq, Repr

/-- Enter and escape keep the selection, though an escape is not heard before
`escapeFrom`. A key that gives the position of one of `count` candidates chooses
it, and other keys are passed over. -/
def reply (escapeFrom : Deadline) (count : Nat) (scan : UInt8) : Action σ Reply := do
  if scan = ScanCode.enter then
    return .keep
  else if scan = ScanCode.escape then
    return if ← escapeFrom.expired then .keep else .ignore
  else
    let position := ScanCode.position (ScanCode.digitOfFunctionKey scan)
    return if 1 ≤ position ∧ position ≤ count then .choose position else .ignore

def choose (session : Session) (position : Nat) : Action σ Session := do
  let registry ← select session.registry position
  return { session with registry, selection := position, rule := none, operatorChoice := true }

/-- Waits for the operator's reply to the device list, or for the end of the
time for it. The last argument bounds the keys that are passed over. -/
def awaitSelection (config : Config) (patience : Nat) (escapeFrom : Deadline) (session : Session) :
    Nat → Waiting σ Session
  | 0 => outOfPatience
  | keys + 1 => do
      match ← awaitKey patience (.millis config.selectionTimeout) with
      | none => return session
      | some scan =>
          match ← perform (reply escapeFrom session.registry.candidates.length scan) with
          | .keep =>
              perform (print "\n")
              return session
          | .choose position =>
              perform (print "\n")
              perform (choose session position)
          | .ignore => awaitSelection config patience escapeFrom session keys

/-- Shows the candidates. The answer is the moment from which an escape is heard:
habitual ones do not skip the list right away. -/
def showDevices (config : Config) (session : Session) : Action σ Deadline := do
  clear
  print "Select boot device:\n\n"
  printCandidates "" 1 session.registry.candidates
  let count := decimal session.registry.candidates.length
  status ("Hit 1 - " ++ count ++ " or F1 - F" ++ count ++ " to boot or ESC to continue")
  emit .info ("Hit 1 - " ++ count ++ " to boot or ENTER to continue")
  Deadline.after config.escapeDebounce

/-- Lets the operator pick a candidate. Keys typed before the list is there do
not count. -/
def deviceList (config : Config) (patience : Nat) (session : Session) : Waiting σ Session := do
  Keystroke.drain patience
  let escapeFrom ← perform (showDevices config session)
  perform (move .deviceList .awaitSelection)
  let session ← awaitSelection config patience escapeFrom session patience
  perform (leave .awaitSelection session)

def restart : Action σ Unit := do
  emit .info "Rebooting."
  reset

/-- Keeps the splash until the next key, which restarts the platform. -/
def paused (patience : Nat) (session : Session) : Waiting σ Session := do
  perform showPaused
  let _ ← awaitKey patience .forever
  perform restart
  perform (leave .paused { session with restarted := true })

/-- The phase that the first key leads to: F1 pauses a splash that is shown,
enter and the menu key open the device list, and anything else boots on. -/
def phaseOfKey (config : Config) (splash : Bool) : Option UInt8 → Phase
  | none => .done
  | some scan =>
      if scan = ScanCode.f1 ∧ splash then .paused
      else if scan = ScanCode.enter ∨ config.menuKey.isPressed scan then .deviceList
      else .done

/-- Waits for the first key and goes where it leads. -/
def awaitMenuKey (config : Config) (patience : Nat) (session : Session) : Waiting σ Session := do
  let scan ← awaitKey patience (.millis config.menuWait)
  match phaseOfKey config (splashActive (← get)) scan with
  | .paused =>
      perform (move .awaitMenuKey .paused)
      paused patience session
  | .deviceList =>
      perform (move .awaitMenuKey .deviceList)
      deviceList config patience session
  | _ => perform (leave .awaitMenuKey session)

def listCandidates (session : Session) : Action σ Unit := do
  Diagnostics.writeStage Stage.splash
  print "\nBootmenu:\n"
  printCandidates "  " 1 session.registry.candidates

/-- Prints the configured message and shows the splash. -/
def raiseSplash (config : Config) : Action σ Unit := do
  if let some message := config.menuMessage then
    print message
  showSplash config.menuKey.label

/-- Shows what there is and offers the menu. -/
def countdown (config : Config) (patience : Nat) (session : Session) : Waiting σ Session := do
  perform (listCandidates session)
  Keystroke.drain patience
  perform (raiseSplash config)
  perform (move .countdown .awaitMenuKey)
  awaitMenuKey config patience { session with splashShown := true }

/-- Selects the candidate that recovery decides on. -/
def selectByRecovery (registry : Registry) : Action σ Session := do
  let decision ← Recovery.evaluate
  let registry ← select registry decision.position
  recordSelection registry decision.position
  return { registry, selection := decision.position, rule := some decision.rule }

/-- Whether the menu is offered: it has to be enabled, and the debug jumper
fitted. Without the jumper the console shows what board this is. -/
def offered (config : Config) : Action σ Bool := do
  if !config.menuEnabled then
    return false
  else if ← Diagnostics.debugEnabled then
    return true
  else
    printPlatformInfo
    return false

/-- Follows recovery, and asks an operator where the menu is offered. -/
def autoselect (config : Config) (patience : Nat) (registry : Registry) : Waiting σ Session := do
  let session ← perform (selectByRecovery registry)
  if ← perform (offered config) then
    perform (move .autoselect .countdown)
    countdown config patience session
  else
    perform (leave .autoselect session)

/-- Records the selection and takes the splash away. -/
def finish (session : Session) : Action σ Unit := do
  recordSelection session.registry session.selection
  if session.splashShown then
    Diagnostics.writeStage Stage.splashOff
  hideSplash

def run (config : Config) (patience : Nat) (registry : Registry) : Waiting σ Session := do
  perform Diagnostics.markHappy
  let session ← autoselect config patience registry
  perform (finish session)
  return session

end BootFlow.Menu
