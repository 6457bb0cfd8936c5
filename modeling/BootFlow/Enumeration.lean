import BootFlow.Order
import BootFlow.Platform.Basic
import BootFlow.Registry

namespace BootFlow

open Logging Text

/-! None of these stops the firmware: the worst of them ends the boot cycle in
its bounded wait and restart. -/

/-- Why an operation of the boot flow did not give what it was asked for. -/
inductive BootError
  | orderAbsent
  | outOfMemory
  | noMatch
  | attemptReturned
  | sequenceExhausted
  deriving DecidableEq, Repr

def BootError.message : BootError → String
  | .orderAbsent => "Boot order not configured"
  | .outOfMemory => "Out of memory"
  | .noMatch => "No matching boot order entry"
  | .attemptReturned => "Boot attempt failed"
  | .sequenceExhausted => "No bootable device"

/-- Whether the boot cycle moves on to its next entry after this error. -/
def BootError.retryable : BootError → Bool
  | .attemptReturned => true
  | _ => false

/-! While devices are enumerated, what is read from the boot order and what is
put into the registry is written to the log. -/

variable {σ : Type} [Logging σ]

namespace BootOrder

/-- Numbers the entries in the log from `position` on. -/
def logEntries (position : Nat) : List String → Action σ Unit
  | [] => return ()
  | entry :: rest => do
      emit .info (decimal position ++ ": " ++ entry)
      logEntries (position + 1) rest

/-- Reads the boot order and writes its entries to the log. -/
def load (file : Option String) : Action σ BootOrder := do
  let order := ofFile file
  if file.isNone then
    emit .debug BootError.orderAbsent.message
  else if !order.entries.isEmpty then
    emit .info "boot order:"
    logEntries 1 order.entries
  return order

/-- Looks a path up, and says so in the log. -/
def search (order : BootOrder) (path : String) : Action σ (Except BootError Nat) := do
  emit .info ("Searching bootorder for: " ++ path)
  return match order.rank? path with
    | some rank => .ok rank
    | none => .error .noMatch

/-- The rank of the first path that has one. Paths behind it are not searched. -/
def searchFirst (order : BootOrder) : List String → Action σ (Option Nat)
  | [] => return none
  | path :: others => do
      match ← order.search path with
      | .ok rank => return some rank
      | .error _ => order.searchFirst others

def searchTarget (order : BootOrder) (target : Target) : Action σ (Option Nat) :=
  order.searchFirst target.paths

def searchHalt (order : BootOrder) : Action σ (Option Nat) :=
  order.searchFirst [haltEntry]

end BootOrder

namespace Registry

/-- Registers a candidate, and says so in the log. -/
def register (registry : Registry) (candidate : Candidate) : Action σ Registry := do
  emit .debug ("Registering bootable: " ++ candidate.description
    ++ " (type:" ++ decimal candidate.kind.code.toNat
    ++ " prio:" ++ signedDecimal candidate.priority
    ++ " data:" ++ candidate.payload.render ++ ")")
  return registry.insert candidate

def registerReport (registry : Registry) (report : Report) : Action σ Registry := do
  let registry ← registry.register (registry.candidateOf report)
  return registry.spend report.finding

end Registry

inductive Query
  | path (path : String)
  | halt
  | target (target : Target)
  deriving DecidableEq, Repr

def BootOrder.ask (order : BootOrder) : Query → Action σ (Option Nat)
  | .path path => order.searchFirst [path]
  | .halt => order.searchHalt
  | .target target => order.searchTarget target

inductive Placement
  | given (priority : Option Int)
  | ranked (query : Query)
  deriving DecidableEq, Repr

def Placement.resolve (order : BootOrder) : Placement → Action σ (Option Int)
  | .given priority => return priority
  | .ranked query => return (← order.ask query).map Int.ofNat

inductive Enrolment
  | finding (finding : Finding) (description : Option String) (placement : Placement)
  | halt (placement : Placement)
  | candidate (candidate : Candidate)
  deriving DecidableEq, Repr

namespace Registry

/-- Every step registers one candidate. A stop mark has no default of its own, so
without a rank it is unplaced. -/
def enrol (registry : Registry) (order : BootOrder) : Enrolment → Action σ Registry
  | .finding finding description placement => do
      let priority ← placement.resolve order
      registry.registerReport { finding, description, priority }
  | .halt placement => do
      let priority ← placement.resolve order
      registry.register (.halt (priority.getD unplaced))
  | .candidate candidate => registry.register candidate

def enrolAll (registry : Registry) (order : BootOrder) : List Enrolment → Action σ Registry
  | [] => return registry
  | enrolment :: others => do
      let registry ← registry.enrol order enrolment
      registry.enrolAll order others

end Registry

end BootFlow
