import BootFlow.Proofs.Hardware.Receiver
import BootFlow.Proofs.Menu.Handover
import BootFlow.Proofs.Menu.Keys
import BootFlow.Proofs.Menu.Supply

namespace BootFlow

open Clock Keyboard Logging Ports Receiver Registers SerialLine Waiting

/-! On the CPU-1900 the menu is contained. There is no splash to pause, so it comes to its end and
restarts nothing. The line has keys for the first nine positions only. All that is written goes to
the data port of the line and to four registers. -/

theorem Scripted.Rig.read_writes (rig : Rig) (port : UInt16) : (rig.read port).2.writes = rig.writes := by
  simp only [read]
  cases takeQueued port rig.queued with
  | some result => rfl
  | none =>
      simp only
      split
      · split
        · rfl
        · split <;> rfl
      · rfl

/-- A machine of which it is told what was written to its ports, and in which order. -/
class PortJournal (σ : Type) [Ports σ] [Clock σ] [Logging σ] where
  written : σ → List (UInt16 × UInt8)
  written_read (port : UInt16) (state : σ) : written (readPort port state).2 = written state
  written_write (port : UInt16) (value : UInt8) (state : σ) :
    written (writePort port value state).2 = written state ++ [(port, value)]
  written_now (state : σ) : written (now state).2 = written state
  written_idle (budget : Option UInt32) (state : σ) : written (idle budget state).2 = written state
  written_emit (level : Log.Level) (text : String) (state : σ) :
    written (emit level text state).2 = written state

instance : PortJournal Scripted.Rig where
  written rig := rig.writes.toList
  written_read port rig := congrArg Array.toList (rig.read_writes port)
  written_write port value rig := by
    change (rig.writes.push (port, value)).toList = _
    exact Array.toList_push
  written_now _ := rfl
  written_idle _ _ := rfl
  written_emit _ _ _ := rfl

/-- All that was written between the two went to these ports. -/
def WritesAmong {σ : Type} [Ports σ] [Clock σ] [Logging σ] [PortJournal σ] (ports : List UInt16)
    (before after : σ) : Prop :=
  ∃ writes, PortJournal.written after = PortJournal.written before ++ writes ∧
    ∀ write ∈ writes, write.1 ∈ ports

/-- No more than so many bytes are left in the line or to come. -/
def BytesWithin {σ : Type} [Ports σ] [Clock σ] [Logging σ] [Receiver σ] (bytes : Nat) (state : σ) : Prop :=
  ∃ box, inbox state = some box ∧ box.length ≤ bytes

/-- No byte is added between the two. -/
def Dwindles {σ : Type} [Ports σ] [Clock σ] [Logging σ] [Receiver σ] (before after : σ) : Prop :=
  ∀ bytes, BytesWithin bytes before → BytesWithin bytes after

theorem Inbox.Polls.length {before after : Inbox} {answer : Option UInt8} (polls : before.Polls answer after) :
    after.length + answer.toList.length ≤ before.length := by
  have one : answer.toList.length ≤ 1 := Option.length_toList_le
  cases polls with
  | empty nothing delivers => exact Nat.le_of_eq delivers.length
  | taken waits delivers =>
      rw [delivers.length]
      simp only [Inbox.length, waits, List.length_cons]
      omega

section

variable {σ : Type} [Ports σ] [Clock σ] [Logging σ]

/-- The relation holds across looks at the line and at other ports, and across writes to these. -/
structure SparesPorts (relation : σ → σ → Prop) (ports : List UInt16) : Prop where
  polls : (com1.pollKey : Action σ (Option UInt8)).Keeps relation
  reads {port : UInt16} (elsewhere : port ≠ com1.base) : (readPort port : Action σ UInt8).Keeps relation
  writes (value : UInt8) {port : UInt16} (among : port ∈ ports) :
    (writePort port value : Action σ Unit).Keeps relation
  looks : (now : Action σ Nat).Keeps relation
  idles (budget : Option UInt32) : (idle budget : Action σ Unit).Keeps relation
  emits (level : Log.Level) (text : String) : (emit level text : Action σ Unit).Keeps relation

section

variable [PortJournal σ] {ports : List UInt16} {before after : σ}

theorem WritesAmong.of_eq (same : PortJournal.written after = PortJournal.written before) :
    WritesAmong ports before after :=
  ⟨[], by rw [same, List.append_nil], nofun⟩

instance (ports : List UInt16) : IsPreorder σ (WritesAmong ports) where
  refl _ := .of_eq rfl
  trans := by
    rintro before middle after ⟨first, toMiddle, firstAmong⟩ ⟨second, toAfter, secondAmong⟩
    refine ⟨first ++ second, by rw [toAfter, toMiddle, List.append_assoc], fun write member => ?_⟩
    rcases List.mem_append.mp member with earlier | later
    · exact firstAmong write earlier
    · exact secondAmong write later

theorem writesAmong_spares (ports : List UInt16) : SparesPorts (σ := σ) (WritesAmong ports) ports where
  polls := by
    have reads (port : UInt16) : (readPort port : Action σ UInt8).Keeps (WritesAmong ports) :=
      fun state => .of_eq (PortJournal.written_read port state)
    have receives : (com1.receive : Action σ (Option UInt8)).Keeps (WritesAmong ports) :=
      (reads _).bind fun _ => .ite (fun _ => (reads _).bind fun _ => .pure _) fun _ => .pure _
    exact receives.bind fun _ => .pure _
  reads _ state := .of_eq (PortJournal.written_read _ state)
  writes value port among state := by
    refine ⟨[(port, value)], PortJournal.written_write port value state, fun write member => ?_⟩
    rw [List.mem_singleton.mp member]
    exact among
  looks state := .of_eq (PortJournal.written_now state)
  idles budget state := .of_eq (PortJournal.written_idle budget state)
  emits level text state := .of_eq (PortJournal.written_emit level text state)

end

section

variable [Receiver σ]

instance : IsPreorder σ Dwindles where
  refl _ _ within := within
  trans _ _ _ first second bytes within := second bytes (first bytes within)

theorem Receives.dwindles {before after : σ} (receives : Receives inbox before after) : Dwindles before after := by
  rintro bytes ⟨box, known, bound⟩
  obtain ⟨later, knownLater, delivers⟩ := receives box known
  exact ⟨later, knownLater, delivers.length ▸ bound⟩

theorem pollKey_spends {bytes : Nat} {state : σ} (within : BytesWithin bytes state) :
    ∃ fewer, fewer + (com1.pollKey state).1.toList.length ≤ bytes ∧ BytesWithin fewer (com1.pollKey state).2 := by
  obtain ⟨box, known, bound⟩ := within
  obtain ⟨later, knownLater, polls⟩ := pollKey_polls known
  exact ⟨later.length, Nat.le_trans polls.length bound, later, knownLater, Nat.le_refl _⟩

theorem pollKey_dwindles : (com1.pollKey : Action σ (Option UInt8)).Keeps Dwindles := by
  intro state bytes within
  obtain ⟨fewer, spent, later, known, bound⟩ := pollKey_spends within
  exact ⟨later, known, Nat.le_trans bound (Nat.le_trans (Nat.le_add_right _ _) spent)⟩

theorem dwindles_spares {ports : List UInt16} (spared : ∀ port ∈ ports, port ∉ com1.controlPorts) :
    SparesPorts (σ := σ) Dwindles ports where
  polls := pollKey_dwindles
  reads elsewhere state := (read_keeps elsewhere state).dwindles
  writes value _ among state := (write_keeps value (spared _ among) state).dwindles
  looks state := (now_keeps state).dwindles
  idles budget state := (idle_keeps budget state).dwindles
  emits level text state := (emit_keeps level text state).dwindles

end

end

/-- The keys that the line has. -/
def IsTyped (scan : UInt8) : Prop :=
  ∃ byte, scanOfByte byte = some scan

theorem pollKey_typed {σ : Type} [Ports σ] (line : SerialLine) :
    (line.pollKey : Action σ (Option UInt8)).Answers (HeardAmong IsTyped) := by
  intro state scan heard
  change (line.receive state).1.bind scanOfByte = some scan at heard
  obtain ⟨byte, _, scans⟩ := Option.bind_eq_some_iff.mp heard
  exact ⟨byte, scans⟩

theorem digitOfFunctionKey_of_lt {scan : UInt8} (below : scan < ScanCode.f1) :
    ScanCode.digitOfFunctionKey scan = scan := by
  simp only [ScanCode.digitOfFunctionKey, UInt8.not_le.mpr below, decide_false, Bool.false_and, Bool.false_eq_true,
    if_false]

theorem IsTyped.position {scan : UInt8} (typed : IsTyped scan) (other : scan ≠ ScanCode.enter) :
    1 ≤ ScanCode.position (ScanCode.digitOfFunctionKey scan) ∧
      ScanCode.position (ScanCode.digitOfFunctionKey scan) ≤ 9 := by
  obtain ⟨byte, scans⟩ := typed
  unfold scanOfByte at scans
  split at scans
  · rename_i digit
    obtain rfl := Option.some.inj scans
    -- The codes of the digits are below that of F1, and so they stay as they are.
    obtain ⟨low, high⟩ := Bool.and_eq_true_iff.mp digit
    have above : (byte - 0x31).toNat = byte.toNat - 0x31 := UInt8.toNat_sub_of_le _ _ (of_decide_eq_true low)
    have low : 0x31 ≤ byte.toNat := UInt8.le_iff_toNat_le.mp (of_decide_eq_true low)
    have high : byte.toNat ≤ 0x39 := UInt8.le_iff_toNat_le.mp (of_decide_eq_true high)
    have code : (ScanCode.digit1 + (byte - 0x31)).toNat = 2 + (byte.toNat - 0x31) := by
      rw [UInt8.toNat_add, above]
      change (2 + (byte.toNat - 0x31)) % 256 = _
      omega
    have below : ScanCode.digit1 + (byte - 0x31) < ScanCode.f1 := by
      rw [UInt8.lt_iff_toNat_lt, code]
      change _ < 0x3b
      omega
    rw [digitOfFunctionKey_of_lt below, ScanCode.position, code]
    omega
  · split at scans
    · exact absurd (Option.some.inj scans).symm other
    · cases scans

namespace Cpu1900

variable {σ α : Type} [Ports σ] [Clock σ] [Logging σ] {relation : σ → σ → Prop}

/-- The relation holds between the machines. -/
def OnMachine (relation : σ → σ → Prop) (before after : Cpu1900 σ) : Prop :=
  relation before.machine after.machine

instance [order : IsPreorder σ relation] : IsPreorder (Cpu1900 σ) (OnMachine relation) where
  refl board := order.refl board.machine
  trans _ _ _ first second := order.trans _ _ _ first second

omit [Ports σ] [Clock σ] [Logging σ] in
theorem onMachine_spares {action : Action σ α} (kept : action.Keeps relation) :
    (onMachine action).Keeps (OnMachine relation) :=
  fun board => kept board.machine

/-- The ports that the menu writes to: the data port of the first serial line, and the registers of
the window. -/
def menuPorts : List UInt16 :=
  [com1.base, 0x1117, 0x1118, 0x111a, 0x111b]

section

variable (spares : SparesPorts relation menuPorts) [IsPreorder σ relation]

include spares

theorem sendWithin_spares (byte : UInt8) (tries : Nat) :
    (com1.sendWithin byte tries : Action σ Unit).Keeps relation :=
  sendWithin_keeps (spares.reads com1_apart) (fun value => spares.writes value (by decide)) byte tries

theorem sendBytes_spares (bytes : List UInt8) : (com1.sendBytes bytes : Action σ Unit).Keeps relation :=
  sendBytes_keeps (spares.reads com1_apart) (fun value => spares.writes value (by decide)) bytes

theorem readRegister_spares (register : UInt16) :
    (readRegister register : Action (Cpu1900 σ) UInt8).Keeps (OnMachine relation) :=
  onMachine_spares (.ite (fun _ => spares.reads (RegisterWindow.com1_outside ‹_›)) fun _ => .pure _)

theorem menu_spares : Menu.SparesWaits (σ := Cpu1900 σ) (OnMachine relation) where
  emits level text := onMachine_spares (spares.emits level text)
  prints _ := onMachine_spares (sendBytes_spares spares _)
  identifies := (readRegister_spares spares _).bind fun _ => onMachine_spares (sendBytes_spares spares _)
  tells _ := onMachine_spares ((sendBytes_spares spares _).bind fun _ => sendWithin_spares spares _ _)
  clears := onMachine_spares (sendWithin_spares spares _ _)
  shows _ := .pure _
  hides := .pure _
  begins := .pure _
  ends := .pure _
  reads := onMachine_spares spares.looks
  polls := onMachine_spares spares.polls
  idles budget := onMachine_spares (spares.idles budget)

theorem registers_spares : Menu.SparesRegisters (σ := Cpu1900 σ) (OnMachine relation) Menu.writtenRegisters where
  looks := readRegister_spares spares
  writes value register among := by
    have port : RegisterWindow.base + register ∈ menuPorts := by
      simp only [Menu.writtenRegisters, List.mem_cons, List.not_mem_nil, or_false] at among
      rcases among with rfl | rfl | rfl | rfl <;> decide
    exact onMachine_spares (.ite (fun _ => spares.writes value port) fun _ => .pure _)

end

section

variable [Receiver σ]

instance : KeySupply (Cpu1900 σ) where
  Within keys board := BytesWithin keys board.machine
  poll_within {keys board} within := pollKey_dwindles board.machine keys within
  poll_spends {keys board} within {scan} heard := by
    -- Every key is a byte, though not every byte is a key.
    obtain ⟨fewer, spent, left⟩ := pollKey_spends within
    change (com1.pollKey board.machine).1 = some scan at heard
    rw [heard] at spent
    exact ⟨fewer, spent, left⟩
  now_within {keys board} within := (now_keeps board.machine).dwindles keys within
  idle_within budget {keys board} within := (idle_keeps budget board.machine).dwindles keys within
  now_le_now {keys board} within := by
    obtain ⟨box, known, _⟩ := within
    have ahead : (now board.machine).1 ≤ (now (now board.machine).2).1 :=
      now_le_now (Option.isSome_of_eq_some known)
    exact ahead
  now_le_poll {keys board} within := by
    obtain ⟨box, known, _⟩ := within
    have ahead : (now board.machine).1 ≤ (now (com1.pollKey board.machine).2).1 :=
      now_le_pollKey (Option.isSome_of_eq_some known)
    exact ahead
  now_lt_idle budget {keys board} within := by
    obtain ⟨box, known, _⟩ := within
    have ahead : (now board.machine).1 < (now (idle (some budget) board.machine).2).1 :=
      now_lt_idle budget (Option.isSome_of_eq_some known)
    exact ahead

theorem supply_spares : SparesPorts (σ := σ) Dwindles menuPorts :=
  dwindles_spares (by simp [menuPorts, controlPorts, com1])

variable (config : Config) (registry : Registry)

theorem run_returns {board : Cpu1900 σ} {box : Inbox} (known : inbox board.machine = some box) :
    Returns (fun patience => Menu.run config patience registry) board := by
  have waits : Menu.SparesWaits (σ := Cpu1900 σ) Supplied := menu_spares supply_spares
  have registers : Menu.SparesRegisters (σ := Cpu1900 σ) Supplied Menu.writtenRegisters :=
    registers_spares supply_spares
  have within : KeySupply.Within box.length board := ⟨box, known, Nat.le_refl _⟩
  exact Menu.run_returns_within waits registers config registry within fun _ _ _ _ opens =>
    Menu.untilKey_unpaused (fun _ => rfl) _ _ _ _ _ _ opens

end

omit [Clock σ] [Logging σ] in
theorem keys_typed : KeysAmong (Cpu1900 σ) IsTyped :=
  fun board => pollKey_typed com1 board.machine

theorem run_spares (spares : SparesPorts relation menuPorts) [IsPreorder σ relation] (config : Config)
    (patience : Nat) (registry : Registry) :
    (Menu.run config patience registry : Waiting (Cpu1900 σ) Menu.Session).Keeps (OnMachine relation) := by
  have waits := menu_spares spares
  have registers := registers_spares spares
  intro before session after ran
  rw [Menu.run_eq] at ran
  obtain ⟨⟨offered, phase⟩, opened, opens, rest⟩ := bind_eq_some.mp ran
  obtain ⟨session, left, proceeds, rest⟩ := bind_eq_some.mp rest
  have answered := perform_bind_eq_some.mp rest
  cases answered
  have toOpened := Menu.untilKey_keeps waits registers config patience registry (List.Subset.refl _) _ _ _ opens
  have toLeft : OnMachine relation opened left := by
    cases phase with
    -- Only here would the reset control be written to.
    | paused => exact absurd rfl (Menu.untilKey_unpaused (fun _ => rfl) _ _ _ _ _ _ opens)
    | deviceList => exact Menu.deviceList_keeps waits config patience offered _ _ _ proceeds
    | autoselect | countdown | awaitMenuKey | awaitSelection | done =>
        cases proceeds
        exact refl opened
  have toEnd := Menu.finish_keeps registers waits.hides session (by decide) (fun _ => by decide) left
  exact IsTrans.trans _ _ _ toOpened (IsTrans.trans _ _ _ toLeft toEnd)

/-- Whatever the registers hold, whenever the bytes come in and however the transmitter behaves, the
menu comes to its end on the board. It asks for no restart and writes to its own ports alone, none
of which shows progress or resets the board, and an operator chooses one of the first nine. -/
theorem run_contained [Receiver σ] [PortJournal σ] {board : Cpu1900 σ} {box : Inbox}
    (known : inbox board.machine = some box) (config : Config) (registry : Registry) :
    Returns (fun patience => Menu.run config patience registry) board ∧
    ∀ patience session after, Menu.run config patience registry board = some (session, after) →
      session.restarted = false ∧
      (∃ writes, PortJournal.written after.machine = PortJournal.written board.machine ++ writes ∧
        ∀ write ∈ writes, write.1 ∈ menuPorts ∧
          write.1 ∉ [SystemControl.progressPort, SystemControl.resetControlPort,
            SystemControl.keyboardControllerPort]) ∧
      (session.operatorChoice = true → 1 ≤ session.selection ∧ session.selection ≤ 9) := by
  refine ⟨run_returns config registry known, fun patience session after ran => ?_⟩
  obtain ⟨writes, told, among⟩ :=
    run_spares (writesAmong_spares menuPorts) config patience registry board session after ran
  have apart : ∀ port ∈ menuPorts, port ∉ [SystemControl.progressPort, SystemControl.resetControlPort,
      SystemControl.keyboardControllerPort] := by
    simp [menuPorts, com1, SystemControl.progressPort, SystemControl.resetControlPort,
      SystemControl.keyboardControllerPort]
  obtain ⟨splashShown, replied⟩ := Menu.run_replied (keys_typed (σ := σ)) ran fun _ _ _ opens =>
    Menu.untilKey_unpaused (fun _ => rfl) _ _ _ _ _ _ opens
  have journal := fun write member => And.intro (among write member) (apart _ (among write member))
  cases replied with
  | kept => exact ⟨rfl, ⟨writes, told, journal⟩, nofun⟩
  | chosen typed other => exact ⟨rfl, ⟨writes, told, journal⟩, fun _ => typed.position other⟩

section

open Scripted

/-- A board with the debug jumper fitted, on which enter is typed during the countdown and the key
two soon after. -/
def attendedBoard : Cpu1900 Rig where
  machine :=
    { values :=
        [(com1.statusPort, transmitterEmpty), (RegisterWindow.base + Register.options, 0),
          (RegisterWindow.base + Register.resetCause, 1),
          (RegisterWindow.base + Register.lastStage, Stage.payload)]
      arrivals := [{ idles := 3, byte := 0x0d }, { idles := 5, byte := 0x32 }] }

/-- The second disk is chosen, and among all the writes there is none that resets the board. -/
theorem run_contained_attended :
    inbox attendedBoard.machine = some ⟨[], [0x0d, 0x32]⟩ ∧
    ∃ (session : Menu.Session) (after : Cpu1900 Rig),
      Menu.run {} 20 Menu.threeDisks attendedBoard = some (session, after) ∧
      session.operatorChoice = true ∧ session.selection = 2 ∧ session.restarted = false ∧
      ∀ value, (SystemControl.resetControlPort, value) ∉ PortJournal.written after.machine := by
  have known : inbox attendedBoard.machine = some ⟨[], [0x0d, 0x32]⟩ := by decide +kernel
  have told : (Menu.run {} 20 Menu.threeDisks attendedBoard).map (fun (session, _) =>
      (session.operatorChoice, session.selection)) = some (true, 2) := by
    decide +kernel
  obtain ⟨⟨session, after⟩, ran, same⟩ := Option.map_eq_some_iff.mp told
  obtain ⟨chosen, selected⟩ := Prod.mk.inj same
  obtain ⟨running, ⟨writes, journal, among⟩, _⟩ :=
    (run_contained known {} Menu.threeDisks).2 20 session after ran
  have fresh : PortJournal.written attendedBoard.machine = [] := rfl
  rw [fresh, List.nil_append] at journal
  refine ⟨known, session, after, ran, chosen, selected, running, fun value member => ?_⟩
  exact (among _ (journal ▸ member)).2 (List.mem_cons_of_mem _ List.mem_cons_self)

end

end Cpu1900

end BootFlow
