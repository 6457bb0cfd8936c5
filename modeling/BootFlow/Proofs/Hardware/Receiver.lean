import BootFlow.Proofs.Hardware.Cpu1900

namespace BootFlow

open Clock Keyboard Logging Ports SerialLine

/-! What the first serial line has received waits there until it is read. A byte may arrive at any
time, also between two looks at the line. -/

/-- The bytes that a line has received and not given out yet, and those that are still to come. -/
structure Inbox where
  waiting : List UInt8
  coming : List UInt8
  deriving DecidableEq, Repr

namespace Inbox

def length (inbox : Inbox) : Nat :=
  inbox.waiting.length + inbox.coming.length

/-- Some of the bytes that were to come have arrived. -/
def Delivers (before after : Inbox) : Prop :=
  ∃ arrived, after.waiting = before.waiting ++ arrived ∧ before.coming = arrived ++ after.coming

theorem Delivers.refl (inbox : Inbox) : inbox.Delivers inbox :=
  ⟨[], (List.append_nil _).symm, rfl⟩

theorem Delivers.trans {before middle after : Inbox} (first : before.Delivers middle)
    (second : middle.Delivers after) : before.Delivers after := by
  obtain ⟨early, waiting, coming⟩ := first
  obtain ⟨late, more, rest⟩ := second
  refine ⟨early ++ late, ?_, ?_⟩
  · rw [more, waiting, List.append_assoc]
  · rw [coming, rest, List.append_assoc]

theorem Delivers.length {before after : Inbox} (delivers : before.Delivers after) :
    after.length = before.length := by
  obtain ⟨arrived, waiting, coming⟩ := delivers
  rw [Inbox.length, Inbox.length, waiting, coming, List.length_append, List.length_append, Nat.add_assoc]

theorem Delivers.eq {waiting : List UInt8} {after : Inbox} (delivers : Delivers ⟨waiting, []⟩ after) :
    after = ⟨waiting, []⟩ := by
  obtain ⟨after, coming⟩ := after
  obtain ⟨arrived, more, rest⟩ := delivers
  obtain ⟨rfl, rfl⟩ := List.append_eq_nil_iff.mp rest.symm
  rw [List.append_nil] at more
  exact congrArg (Inbox.mk · []) more

/-- How a look for a key can go. It takes the first byte, whether that is a key or not. -/
inductive Polls (before : Inbox) : Option UInt8 → Inbox → Prop
  | empty {after : Inbox} (nothing : before.waiting = []) (delivers : before.Delivers after) :
      Polls before none after
  | taken {first : UInt8} {rest : List UInt8} {after : Inbox} (waits : before.waiting = first :: rest)
      (delivers : Delivers ⟨rest, before.coming⟩ after) : Polls before (scanOfByte first) after

end Inbox

/-- Ports by which a line is set up. -/
def SerialLine.controlPorts (line : SerialLine) : List UInt16 :=
  [1, 2, 3, 4, 5, 6, 7].map (line.base + ·)

/-- The two states agree on what is known of the line, but for bytes that arrived. -/
def Receives {σ : Type} (inbox : σ → Option Inbox) (before after : σ) : Prop :=
  ∀ box, inbox before = some box → ∃ later, inbox after = some later ∧ box.Delivers later

instance {σ : Type} (inbox : σ → Option Inbox) : IsPreorder σ (Receives inbox) where
  refl _ box known := ⟨box, known, .refl box⟩
  trans _ _ _ first second box known := by
    obtain ⟨later, knownLater, delivers⟩ := first box known
    obtain ⟨last, knownLast, more⟩ := second later knownLater
    exact ⟨last, knownLast, delivers.trans more⟩

/-- A machine whose first serial line receives while its clock goes on. Nothing is said of the
transmitter, nor of any other port. -/
class Receiver (σ : Type) [Ports σ] [Clock σ] [Logging σ] where
  /-- What the line holds, and what is to come, in the states of which that is known. -/
  inbox : σ → Option Inbox
  status_answer {state : σ} {box : Inbox} (known : inbox state = some box) :
    (readPort com1.statusPort state).1 &&& dataReady = 0 ↔ box.waiting = []
  data_answer {state : σ} {first : UInt8} {rest coming : List UInt8}
    (known : inbox state = some ⟨first :: rest, coming⟩) :
    (readPort com1.base state).1 = first ∧
      ∃ later, inbox (readPort com1.base state).2 = some later ∧ Inbox.Delivers ⟨rest, coming⟩ later
  read_keeps {port : UInt16} (elsewhere : port ≠ com1.base) :
    (readPort port : Action σ UInt8).Keeps (Receives inbox)
  write_keeps {port : UInt16} (value : UInt8) (elsewhere : port ∉ com1.controlPorts) :
    (writePort port value : Action σ Unit).Keeps (Receives inbox)
  now_keeps : (now : Action σ Nat).Keeps (Receives inbox)
  idle_keeps (budget : Option UInt32) : (idle budget : Action σ Unit).Keeps (Receives inbox)
  emit_keeps (level : Log.Level) (text : String) : (emit level text : Action σ Unit).Keeps (Receives inbox)
  now_le_now {state : σ} (known : (inbox state).isSome) : (now state).1 ≤ (now (now state).2).1
  now_le_read (port : UInt16) {state : σ} (known : (inbox state).isSome) :
    (now state).1 ≤ (now (readPort port state).2).1
  now_lt_idle (budget : UInt32) {state : σ} (known : (inbox state).isSome) :
    (now state).1 < (now (idle (some budget) state).2).1

namespace SerialLine

variable {σ : Type} [Ports σ] {line : SerialLine} {state : σ}

theorem pollKey_of_idle (idle : (readPort line.statusPort state).1 &&& dataReady = 0) :
    line.pollKey state = (none, (readPort line.statusPort state).2) := by
  simp only [pollKey, receive, Action.bind_apply, idle, bne_self_eq_false, Bool.false_eq_true, if_false]
  rfl

theorem pollKey_of_ready (ready : (readPort line.statusPort state).1 &&& dataReady ≠ 0) :
    line.pollKey state =
      (scanOfByte (readPort line.base (readPort line.statusPort state).2).1,
        (readPort line.base (readPort line.statusPort state).2).2) := by
  simp only [pollKey, receive, Action.bind_apply, bne_iff_ne, ready, ne_eq, not_false_eq_true, if_true]
  rfl

end SerialLine

namespace Receiver

variable {σ : Type} [Ports σ] [Clock σ] [Logging σ] [Receiver σ] {state : σ} {box : Inbox}

theorem com1_apart : com1.statusPort ≠ com1.base := by decide

theorem pollKey_polls (known : inbox state = some box) :
    ∃ later, inbox (com1.pollKey state).2 = some later ∧ box.Polls (com1.pollKey state).1 later := by
  obtain ⟨looked, knownLooked, arrives⟩ := read_keeps com1_apart state box known
  by_cases idle : (readPort com1.statusPort state).1 &&& dataReady = 0
  · rw [pollKey_of_idle idle]
    exact ⟨looked, knownLooked, .empty ((status_answer known).mp idle) arrives⟩
  · obtain ⟨waiting, coming⟩ := box
    obtain ⟨lookedWaiting, lookedComing⟩ := looked
    have waits : waiting ≠ [] := fun nothing => idle ((status_answer known).mpr nothing)
    obtain ⟨first, rest, rfl⟩ := List.exists_cons_of_ne_nil waits
    -- By the second read more may have arrived, but behind what was waiting.
    obtain ⟨arrived, more, left⟩ := arrives
    dsimp only at more left
    subst more left
    obtain ⟨taken, later, knownLater, more⟩ := data_answer knownLooked
    rw [pollKey_of_ready idle, taken]
    exact ⟨later, knownLater, .taken rfl (.trans ⟨arrived, rfl, rfl⟩ more)⟩

theorem now_le_pollKey (known : (inbox state).isSome) : (now state).1 ≤ (now (com1.pollKey state).2).1 := by
  obtain ⟨box, held⟩ := Option.isSome_iff_exists.mp known
  obtain ⟨looked, knownLooked, _⟩ := read_keeps com1_apart state box held
  have once := now_le_read com1.statusPort known
  by_cases idle : (readPort com1.statusPort state).1 &&& dataReady = 0
  · rw [pollKey_of_idle idle]
    exact once
  · rw [pollKey_of_ready idle]
    exact Nat.le_trans once (now_le_read com1.base (Option.isSome_of_eq_some knownLooked))

end Receiver

namespace Scripted.Rig

/-- A clock that every idle moves on. -/
def ticking : Timer → Bool
  | .steady _ step => 0 < step
  | .ticks .. => false

theorem now_of_ticking {timer : Timer} (ticks : ticking timer) : timer.now.2 = timer := by
  cases timer with
  | steady now step => rfl
  | ticks clock counter step => cases ticks

theorem advance_of_ticking {timer : Timer} (ticks : ticking timer) :
    ticking timer.advance ∧ timer.now.1 < timer.advance.now.1 := by
  cases timer with
  | steady now step => exact ⟨ticks, Nat.lt_add_of_pos_right (of_decide_eq_true ticks)⟩
  | ticks clock counter step => cases ticks

/-- The line gives out what arrives and nothing else, while the clock goes on. -/
def IsReceiving (rig : Rig) : Prop :=
  takeQueued com1.base rig.queued = none ∧ takeQueued com1.statusPort rig.queued = none ∧
    (rig.values.lookup com1.statusPort).getD 0xff &&& dataReady = 0 ∧ ticking rig.timer

instance (rig : Rig) : Decidable rig.IsReceiving :=
  inferInstanceAs (Decidable (_ ∧ _))

/-- Bytes that have arrived after so many idles, and the others. -/
def inboxAt (idles : Nat) (arrivals : List Arrival) : Inbox where
  waiting := (arrivals.takeWhile (·.idles ≤ idles)).map (·.byte)
  coming := (arrivals.dropWhile (·.idles ≤ idles)).map (·.byte)

theorem inboxAt_cons_arrived {idles : Nat} {first : Arrival} (arrived : first.idles ≤ idles) (rest : List Arrival) :
    inboxAt idles (first :: rest) =
      { inboxAt idles rest with waiting := first.byte :: (inboxAt idles rest).waiting } := by
  simp [inboxAt, arrived]

theorem inboxAt_cons_coming {idles : Nat} {first : Arrival} (coming : ¬first.idles ≤ idles) (rest : List Arrival) :
    inboxAt idles (first :: rest) = ⟨[], (first :: rest).map (·.byte)⟩ := by
  simp [inboxAt, coming]

theorem inboxAt_delivers {earlier later : Nat} (forward : earlier ≤ later) (arrivals : List Arrival) :
    (inboxAt earlier arrivals).Delivers (inboxAt later arrivals) := by
  induction arrivals with
  | nil => exact .refl _
  | cons first rest ih =>
      by_cases arrived : first.idles ≤ earlier
      · obtain ⟨more, waiting, coming⟩ := ih
        rw [inboxAt_cons_arrived arrived, inboxAt_cons_arrived (Nat.le_trans arrived forward)]
        exact ⟨more, congrArg (first.byte :: ·) waiting, coming⟩
      · -- A byte that is not there yet holds back all behind it.
        rw [inboxAt_cons_coming arrived]
        refine ⟨(inboxAt later (first :: rest)).waiting, rfl, ?_⟩
        rw [inboxAt, ← List.map_append, List.takeWhile_append_dropWhile]

/-- What a rig is known to receive. -/
def inbox? (rig : Rig) : Option Inbox :=
  if rig.IsReceiving then some (inboxAt rig.idles rig.arrivals) else none

theorem inbox?_eq_some {rig : Rig} {box : Inbox} :
    rig.inbox? = some box ↔ rig.IsReceiving ∧ inboxAt rig.idles rig.arrivals = box :=
  Option.ite_none_right_eq_some.trans (and_congr_right fun _ => Option.some_inj)

theorem read_arrivals (rig : Rig) (port : UInt16) :
    (rig.read port).2.idles = rig.idles ∧ (rig.read port).2.timer = rig.timer ∧
      (port ≠ com1.base → (rig.read port).2.arrivals = rig.arrivals) := by
  simp only [read]
  cases takeQueued port rig.queued with
  | some result => exact ⟨rfl, rfl, fun _ => rfl⟩
  | none =>
      simp only
      split
      · split
        · rename_i data
          exact ⟨rfl, rfl, fun elsewhere => absurd data elsewhere⟩
        · split <;> exact ⟨rfl, rfl, fun _ => rfl⟩
      · exact ⟨rfl, rfl, fun _ => rfl⟩

theorem isReceiving_read {rig : Rig} (receives : rig.IsReceiving) (port : UInt16) :
    (rig.read port).2.IsReceiving := by
  obtain ⟨data, status, quiet, ticks⟩ := receives
  obtain ⟨values, queues⟩ := rig.read_leaves port
  obtain ⟨_, timer, _⟩ := rig.read_arrivals port
  exact ⟨queues _ data, queues _ status, by rw [values]; exact quiet, by rw [timer]; exact ticks⟩

theorem arrived_cases (rig : Rig) :
    (rig.arrived = none ∧ (inboxAt rig.idles rig.arrivals).waiting = []) ∨
      ∃ first rest, rig.arrivals = first :: rest ∧ rig.arrived = some (first.byte, rest) ∧
        first.idles ≤ rig.idles := by
  unfold arrived
  cases arrivals : rig.arrivals with
  | nil => exact .inl ⟨rfl, rfl⟩
  | cons first rest =>
      by_cases due : first.idles ≤ rig.idles
      · exact .inr ⟨first, rest, rfl, if_pos due, due⟩
      · exact .inl ⟨if_neg due, by rw [inboxAt_cons_coming due]⟩

theorem read_unqueued {rig : Rig} {port : UInt16} (empty : takeQueued port rig.queued = none) :
    rig.read port =
      let looked := { rig with reads := rig.reads.push port }
      let value := (rig.values.lookup port).getD 0xff
      match rig.arrived with
      | some (byte, later) =>
          if port = com1.base then (byte, { looked with arrivals := later })
          else if port = com1.statusPort then (value ||| dataReady, looked)
          else (value, looked)
      | none => (value, looked) := by
  simp only [read, empty]
  rfl

theorem ready_of_or (value : UInt8) : (value ||| dataReady) &&& dataReady ≠ 0 := by
  have absorbed : (value ||| dataReady) &&& dataReady = dataReady := by
    refine UInt8.eq_of_toBitVec_eq ?_
    ext bit inside
    simpa using Or.inr
  rw [absorbed]
  decide

theorem read_status {rig : Rig} (receives : rig.IsReceiving) :
    (rig.read com1.statusPort).1 &&& dataReady = 0 ↔ (inboxAt rig.idles rig.arrivals).waiting = [] := by
  obtain ⟨_, status, quiet, _⟩ := receives
  rw [read_unqueued status]
  obtain ⟨none, nothing⟩ | ⟨first, rest, arrivals, arrived, due⟩ := rig.arrived_cases
  · rw [none, nothing]
    exact iff_of_true quiet rfl
  · rw [arrived, arrivals, inboxAt_cons_arrived due]
    refine iff_of_false (ready_of_or _) (List.cons_ne_nil _ _)

theorem read_data {rig : Rig} (receives : rig.IsReceiving) {first : UInt8} {rest coming : List UInt8}
    (held : inboxAt rig.idles rig.arrivals = ⟨first :: rest, coming⟩) :
    (rig.read com1.base).1 = first ∧
      inboxAt rig.idles (rig.read com1.base).2.arrivals = ⟨rest, coming⟩ := by
  obtain ⟨data, _, _, _⟩ := receives
  rw [read_unqueued data]
  obtain ⟨_, nothing⟩ | ⟨arrival, later, arrivals, arrived, due⟩ := rig.arrived_cases
  · rw [held] at nothing
    cases nothing
  · rw [arrivals, inboxAt_cons_arrived due, Inbox.mk.injEq, List.cons.injEq] at held
    obtain ⟨⟨rfl, rfl⟩, rfl⟩ := held
    rw [arrived]
    exact ⟨rfl, rfl⟩

theorem ticking_of_known {rig : Rig} (known : rig.inbox?.isSome) : ticking rig.timer := by
  obtain ⟨_, held⟩ := Option.isSome_iff_exists.mp known
  exact (inbox?_eq_some.mp held).1.2.2.2

instance : Receiver Rig where
  inbox := inbox?
  status_answer := by
    intro rig box known
    obtain ⟨receives, rfl⟩ := inbox?_eq_some.mp known
    exact read_status receives
  data_answer := by
    intro rig first rest coming known
    obtain ⟨receives, held⟩ := inbox?_eq_some.mp known
    obtain ⟨answer, left⟩ := read_data receives held
    obtain ⟨idles, _, _⟩ := rig.read_arrivals com1.base
    refine ⟨answer, _, inbox?_eq_some.mpr ⟨isReceiving_read receives _, ?_⟩, .refl _⟩
    change inboxAt (rig.read com1.base).2.idles (rig.read com1.base).2.arrivals = _
    rw [idles]
    exact left
  read_keeps := by
    intro port elsewhere rig box known
    obtain ⟨receives, rfl⟩ := inbox?_eq_some.mp known
    obtain ⟨idles, _, arrivals⟩ := rig.read_arrivals port
    refine ⟨_, inbox?_eq_some.mpr ⟨isReceiving_read receives _, ?_⟩, .refl _⟩
    change inboxAt (rig.read port).2.idles (rig.read port).2.arrivals = _
    rw [idles, arrivals elsewhere]
  write_keeps := by
    intro port value elsewhere rig box known
    obtain ⟨⟨data, status, quiet, ticks⟩, rfl⟩ := inbox?_eq_some.mp known
    have apart : com1.statusPort ≠ port := fun same => elsewhere (same ▸ by decide)
    refine ⟨_, inbox?_eq_some.mpr ⟨⟨data, status, ?_, ticks⟩, rfl⟩, .refl _⟩
    change ((setPort port value rig.values).lookup com1.statusPort).getD 0xff &&& dataReady = 0
    rw [lookup_setPort, if_neg apart]
    exact quiet
  now_keeps := by
    intro rig box known
    obtain ⟨⟨data, status, quiet, ticks⟩, rfl⟩ := inbox?_eq_some.mp known
    refine ⟨_, inbox?_eq_some.mpr ⟨⟨data, status, quiet, ?_⟩, rfl⟩, .refl _⟩
    change ticking rig.timer.now.2
    rw [now_of_ticking ticks]
    exact ticks
  idle_keeps := by
    intro budget rig box known
    obtain ⟨⟨data, status, quiet, ticks⟩, rfl⟩ := inbox?_eq_some.mp known
    exact ⟨_, inbox?_eq_some.mpr ⟨⟨data, status, quiet, (advance_of_ticking ticks).1⟩, rfl⟩,
      inboxAt_delivers (Nat.le_succ _) _⟩
  emit_keeps _ _ _ box known := ⟨box, known, .refl box⟩
  now_le_now := by
    intro rig known
    change rig.timer.now.1 ≤ rig.timer.now.2.now.1
    exact Nat.le_of_eq (by rw [now_of_ticking (ticking_of_known known)])
  now_le_read := by
    intro port rig known
    change rig.timer.now.1 ≤ (rig.read port).2.timer.now.1
    exact Nat.le_of_eq (by rw [(rig.read_arrivals port).2.1])
  now_lt_idle := by
    intro _ rig known
    exact (advance_of_ticking (ticking_of_known known)).2

end Scripted.Rig

end BootFlow
