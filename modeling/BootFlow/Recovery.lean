import BootFlow.Diagnostics
import BootFlow.Text

namespace BootFlow.Recovery

open Console Logging Text

/-! A payload that keeps resetting the board is given up after a few attempts:
the next boot starts with the candidate behind it. -/

/-- Failed boots in a row after which the next entry is due. -/
def threshold : UInt8 := 3

/-- Why a position was chosen. -/
inductive Rule
  /-- The last boot did not get as far as a payload. -/
  | noPayloadAttempt
  /-- The last boot reached the operating system. -/
  | osReached
  /-- The reset was none that a failing payload causes. -/
  | notRecoverable
  /-- The same entry again: there are not enough failures yet. -/
  | waiting (count : UInt8)
  /-- Too many failures: the next entry. -/
  | failed
  deriving DecidableEq, Repr

/-- How log lines show a rule. -/
def Rule.render : Rule → String
  | .noPayloadAttempt => "NoPayloadAttempt"
  | .osReached => "OsReached"
  | .notRecoverable => "NotRecoverable"
  | .waiting count => "Waiting \x7b count: " ++ decimal count.toNat ++ " \x7d"
  | .failed => "Failed"

/-- The first rule whose condition holds. -/
def Rule.ofState (state : RecoveryState) : Rule :=
  if state.lastStage < Stage.payload then .noPayloadAttempt
  else if Stage.osDriver ≤ state.lastStage then .osReached
  else if !state.resetCause.isRecoverable then .notRecoverable
  else if state.failureCount < threshold then .waiting state.failureCount
  else .failed

/-- A menu position, counted from one, and the rule it comes from. Position zero
leaves the order as it is. -/
structure Decision where
  position : Nat
  rule : Rule
  deriving DecidableEq, Repr

/-- A boot that was none of the payload's failures ends the row of them. -/
def Decision.clearsCount (decision : Decision) : Bool :=
  match decision.rule with
  | .noPayloadAttempt | .osReached | .notRecoverable => true
  | .waiting _ | .failed => false

def Decision.ofState (state : RecoveryState) : Decision where
  rule := .ofState state
  position :=
    match Rule.ofState state with
    | .noPayloadAttempt | .osReached | .notRecoverable => 1
    | .waiting _ => state.lastPosition.toNat
    | .failed => state.lastPosition.toNat + 1

/-- The console line that explains a decision. -/
def Decision.explain (decision : Decision) (state : RecoveryState) : String :=
  match decision.rule with
  | .noPayloadAttempt =>
      "RECOVERY: SKIP stage 0x" ++ hexPadded 2 state.lastStage.toNat
        ++ " < 0x" ++ hexPadded 2 Stage.payload.toNat ++ "\n"
  | .osReached =>
      "RECOVERY: CLEAR stage 0x" ++ hexPadded 2 state.lastStage.toNat
        ++ " >= 0x" ++ hexPadded 2 Stage.osDriver.toNat ++ "\n"
  | .notRecoverable => "RECOVERY: CLEAR not SW or WD\n"
  | .waiting count => "RECOVERY: WAIT reset_cnt=" ++ decimal count.toNat ++ "\n"
  | .failed => "RECOVERY: FAIL, booting " ++ decimal decision.position ++ "\n"

/-- The console line that shows what the previous boot left behind. -/
def summary (state : RecoveryState) : String :=
  "RECOVERY: cause=0x" ++ hexPadded 2 state.resetCause.code.toNat
    ++ " stage=0x" ++ hexPadded 2 state.lastStage.toNat
    ++ " boots=0x" ++ hexPadded 2 state.bootSource.toNat ++ "\n"

variable {σ : Type} [Registers σ] [Console σ] [Logging σ]

/-- Reads the recovery state, reports it with the decision, and clears the count
of failed boots where the decision says so. -/
def evaluate : Action σ Decision := do
  let state ← Diagnostics.readRecoveryState
  print (summary state)
  let decision := Decision.ofState state
  print (decision.explain state)
  emit .info ("recovery: " ++ decision.rule.render ++ " -> entry " ++ decimal decision.position)
  if decision.clearsCount then
    Diagnostics.clearFailureCount
  return decision

end BootFlow.Recovery
