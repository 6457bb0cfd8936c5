import BootFlow.Hardware.Cpu1900
import BootFlow.Proofs.Platform.RegisterFile
import BootFlow.Scripted.Rig

namespace BootFlow

open Clock Console Logging Ports Registers

/-! The register window of the CPU-1900 keeps what is written to it as its ports do,
and what goes over the serial line does not reach it. -/

namespace SerialLine

variable {σ : Type} [Ports σ] {relation : σ → σ → Prop} [IsPreorder σ relation] {line : SerialLine}
  (looks : (readPort line.statusPort : Action σ UInt8).Keeps relation)
  (writes : ∀ value, (writePort line.base value : Action σ Unit).Keeps relation)

include looks writes

theorem sendWithin_keeps (byte : UInt8) (tries : Nat) :
    (line.sendWithin byte tries : Action σ Unit).Keeps relation := by
  induction tries with
  | zero => exact .pure _
  | succ tries ih => exact looks.bind fun _ => .ite (fun _ => writes _) fun _ => ih

theorem sendBytes_keeps (bytes : List UInt8) : (line.sendBytes bytes : Action σ Unit).Keeps relation := by
  induction bytes with
  | nil => exact .pure _
  | cons byte rest ih => exact (sendWithin_keeps looks writes byte maxTries).bind fun _ => ih

end SerialLine

/-- Ports that keep what is written to them. The log is not behind any of them. -/
class PortMemory (σ : Type) [Ports σ] [Logging σ] where
  store : ByteStore (σ := σ) readPort writePort
  emit_keeps (level : Log.Level) (text : String) :
    (emit level text : Action σ Unit).Keeps (Undisturbed store.held [])

def stored {σ : Type} [Ports σ] [Logging σ] [PortMemory σ] (state : σ) (port : UInt16) : Option UInt8 :=
  PortMemory.store.held state port

variable {σ α : Type} [Ports σ] [Logging σ] [PortMemory σ]

theorem readPort_keeps (port : UInt16) (written : List UInt16) :
    (readPort port : Action σ UInt8).Keeps (Undisturbed stored written) :=
  fun state => (PortMemory.store.read_keeps port state).mono (List.nil_subset written)

theorem writePort_keeps (port : UInt16) (value : UInt8) :
    (writePort port value : Action σ Unit).Keeps (Undisturbed stored [port]) :=
  PortMemory.store.write_keeps port value

namespace RegisterWindow

theorem port_inj {left right : UInt16} (same : base + left = base + right) : left = right :=
  UInt16.add_right_inj base |>.mp same

theorem com1_outside {register : UInt16} (inside : register < size) :
    base + register ≠ SerialLine.com1.base := by
  intro same
  have bound : register.toNat < 0x200 := UInt16.lt_iff_toNat_lt.mp inside
  have sum := congrArg UInt16.toNat same
  rw [UInt16.toNat_add] at sum
  change (0x1100 + register.toNat) % 65536 = 0x3f8 at sum
  omega

end RegisterWindow

namespace Cpu1900

def windowHeld (board : Cpu1900 σ) (register : UInt16) : Option UInt8 :=
  if register < RegisterWindow.size then stored board.machine (RegisterWindow.base + register) else none

theorem windowHeld_eq_some {board : Cpu1900 σ} {register : UInt16} {value : UInt8} :
    board.windowHeld register = some value ↔
      register < RegisterWindow.size ∧ stored board.machine (RegisterWindow.base + register) = some value :=
  Option.ite_none_right_eq_some

theorem onMachine_keeps {action : Action σ α} {ports registers : List UInt16}
    (kept : action.Keeps (Undisturbed stored ports))
    (window : ∀ register < RegisterWindow.size,
      RegisterWindow.base + register ∈ ports → register ∈ registers) :
    (onMachine action).Keeps (Undisturbed windowHeld registers) := by
  intro board register value elsewhere held
  obtain ⟨inside, held⟩ := windowHeld_eq_some.mp held
  refine windowHeld_eq_some.mpr ⟨inside, ?_⟩
  exact kept board.machine _ _ (fun member => elsewhere (window register inside member)) held

theorem quiet_keeps {action : Action σ α} (kept : action.Keeps (Undisturbed stored [])) :
    (onMachine action).Keeps (Undisturbed windowHeld []) :=
  onMachine_keeps kept (by simp)

theorem sendText_keeps (text : String) :
    (onMachine (SerialLine.com1.sendText text) : Action (Cpu1900 σ) Unit).Keeps
      (Undisturbed windowHeld []) := by
  have sends : (SerialLine.com1.sendText text : Action σ Unit).Keeps
      (Undisturbed stored [SerialLine.com1.base]) :=
    SerialLine.sendBytes_keeps (readPort_keeps _ _) (writePort_keeps _) _
  refine onMachine_keeps sends fun register inside member => ?_
  exact absurd (List.mem_singleton.mp member) (RegisterWindow.com1_outside inside)

instance : RegisterFile (Cpu1900 σ) where
  store :=
    { held := windowHeld
      read_answer := by
        intro board register value held
        obtain ⟨inside, held⟩ := windowHeld_eq_some.mp held
        have reads : (RegisterWindow.read register : Action σ UInt8) =
            readPort (RegisterWindow.base + register) := if_pos inside
        change (RegisterWindow.read register board.machine).1 = value
        rw [reads]
        exact PortMemory.store.read_answer held
      read_keeps := fun _ => quiet_keeps (.ite (fun _ => readPort_keeps _ _) fun _ => .pure _)
      held_write := by
        intro board register value present
        obtain ⟨earlier, held⟩ := Option.isSome_iff_exists.mp present
        obtain ⟨inside, held⟩ := windowHeld_eq_some.mp held
        have writes : (RegisterWindow.write register value : Action σ Unit) =
            writePort (RegisterWindow.base + register) value := if_pos inside
        refine windowHeld_eq_some.mpr ⟨inside, ?_⟩
        change stored (RegisterWindow.write register value board.machine).2 _ = _
        rw [writes]
        exact PortMemory.store.held_write value (Option.isSome_of_eq_some held)
      write_keeps := by
        intro register value
        have kept : (RegisterWindow.write register value : Action σ Unit).Keeps
            (Undisturbed stored [RegisterWindow.base + register]) :=
          .ite (fun _ => writePort_keeps _ _) fun _ => .pure _
        refine onMachine_keeps kept fun other _ member => ?_
        rw [RegisterWindow.port_inj (List.mem_singleton.mp member)]
        exact List.mem_singleton_self register }

instance : RegistersApart (Cpu1900 σ) where
  print_keeps := sendText_keeps
  hideSplash_keeps := .pure ()
  printPlatformInfo_keeps :=
    (RegisterFile.read_keeps _).bind fun _ => sendText_keeps _
  emit_keeps level text := quiet_keeps (PortMemory.emit_keeps level text)

end Cpu1900

namespace Scripted.Rig

theorem lookup_cons_ite (port first : UInt16) (value : UInt8) (rest : List (UInt16 × UInt8)) :
    ((first, value) :: rest).lookup port = if port = first then some value else rest.lookup port := by
  by_cases same : port = first
  · rw [same, List.lookup_cons_self, if_pos rfl]
  · rw [List.lookup_cons, beq_false_of_ne same, if_neg same]

theorem lookup_setPort (port other : UInt16) (value : UInt8) (values : List (UInt16 × UInt8)) :
    (setPort other value values).lookup port = if port = other then some value else values.lookup port := by
  induction values with
  | nil => exact lookup_cons_ite port other value []
  | cons pair rest ih =>
      obtain ⟨first, old⟩ := pair
      unfold setPort
      split
      · rename_i here
        rw [lookup_cons_ite, lookup_cons_ite, here]
        split <;> rfl
      · rename_i elsewhere
        rw [lookup_cons_ite, lookup_cons_ite, ih]
        by_cases own : port = first
        · rw [if_pos own, if_pos own, if_neg (own ▸ elsewhere)]
        · rw [if_neg own, if_neg own]

theorem takeQueued_cons_none {port first : UInt16} {values : List UInt8}
    {rest : List (UInt16 × List UInt8)} :
    takeQueued port ((first, values) :: rest) = none ↔
      (if first = port then values else []) = [] ∧ takeQueued port rest = none := by
  cases own : if first = port then values else [] with
  | nil => simp [takeQueued, own]
  | cons value more => simp [takeQueued, own]

theorem takeQueued_later {port other : UInt16} {queues later : List (UInt16 × List UInt8)} {value : UInt8}
    (taken : takeQueued other queues = some (value, later)) (empty : takeQueued port queues = none) :
    takeQueued port later = none := by
  induction queues generalizing later with
  | nil => cases taken
  | cons queue rest ih =>
      obtain ⟨first, values⟩ := queue
      obtain ⟨noneOwn, noneBehind⟩ := takeQueued_cons_none.mp empty
      simp only [takeQueued] at taken
      split at taken
      · rename_i next more own
        cases taken
        refine takeQueued_cons_none.mpr ⟨if_neg ?_, noneBehind⟩
        intro here
        rw [if_pos here] at noneOwn
        simp [noneOwn] at own
      · obtain ⟨⟨_, queues⟩, behind, same⟩ := Option.map_eq_some_iff.mp taken
        cases same
        exact takeQueued_cons_none.mpr ⟨noneOwn, ih behind noneBehind⟩

theorem read_leaves (rig : Rig) (port : UInt16) :
    (rig.read port).2.values = rig.values ∧
      ∀ other, takeQueued other rig.queued = none → takeQueued other (rig.read port).2.queued = none := by
  simp only [read]
  cases taken : takeQueued port rig.queued with
  | some result => exact ⟨rfl, fun other => takeQueued_later taken⟩
  | none =>
      simp only
      split
      · split
        · exact ⟨rfl, fun _ empty => empty⟩
        · split <;> exact ⟨rfl, fun _ empty => empty⟩
      · exact ⟨rfl, fun _ empty => empty⟩

/-- A port that has no answers of its own: it is not the serial line's, and nothing is
queued for it. -/
def Plain (rig : Rig) (port : UInt16) : Prop :=
  port ≠ SerialLine.com1.base ∧ port ≠ SerialLine.com1.statusPort ∧ takeQueued port rig.queued = none

instance (rig : Rig) (port : UInt16) : Decidable (rig.Plain port) :=
  inferInstanceAs (Decidable (_ ∧ _))

def plainHeld (rig : Rig) (port : UInt16) : Option UInt8 :=
  if rig.Plain port then rig.values.lookup port else none

theorem plainHeld_eq_some {rig : Rig} {port : UInt16} {value : UInt8} :
    rig.plainHeld port = some value ↔ rig.Plain port ∧ rig.values.lookup port = some value :=
  Option.ite_none_right_eq_some

theorem read_plain {rig : Rig} {port : UInt16} {value : UInt8} (held : rig.plainHeld port = some value) :
    (rig.read port).1 = value := by
  obtain ⟨⟨notData, notStatus, unqueued⟩, found⟩ := plainHeld_eq_some.mp held
  simp only [read, unqueued, found, Option.getD_some, notData, notStatus, if_false]
  split <;> rfl

instance : PortMemory Rig where
  store :=
    { held := plainHeld
      read_answer := read_plain
      read_keeps := by
        intro port rig other value _ held
        obtain ⟨⟨notData, notStatus, unqueued⟩, found⟩ := plainHeld_eq_some.mp held
        obtain ⟨values, queues⟩ := rig.read_leaves port
        refine plainHeld_eq_some.mpr ⟨⟨notData, notStatus, queues other unqueued⟩, ?_⟩
        exact (congrArg (List.lookup other) values).trans found
      held_write := by
        intro rig port value present
        obtain ⟨_, held⟩ := Option.isSome_iff_exists.mp present
        refine plainHeld_eq_some.mpr ⟨(plainHeld_eq_some.mp held).1, ?_⟩
        exact (lookup_setPort port port value rig.values).trans (if_pos rfl)
      write_keeps := by
        intro port value rig other earlier elsewhere held
        obtain ⟨plain, found⟩ := plainHeld_eq_some.mp held
        refine plainHeld_eq_some.mpr ⟨plain, ?_⟩
        rw [← found]
        exact (lookup_setPort other port value rig.values).trans (if_neg (by simpa using elsewhere)) }
  emit_keeps _ _ _ _ _ _ held := held

end Scripted.Rig

end BootFlow
