import BootFlow.Proofs.Scripted.Board
import BootFlow.Proofs.Wait.Supply

namespace BootFlow.Scripted.Board

open Clock Keyboard Keystroke Waiting

/-! On a board with a prepared keyboard time goes by while it idles, and only then. -/

/-- Neither time nor keys have gone by. -/
structure Still (before after : Board) : Prop where
  now : after.now = before.now
  keys : after.keys = before.keys
  step : after.step = before.step

theorem Still.trans {before middle after : Board} (first : Still before middle) (second : Still middle after) :
    Still before after :=
  ⟨second.now.trans first.now, second.keys.trans first.keys, second.step.trans first.step⟩

instance : IsPreorder Board Still where
  refl _ := ⟨rfl, rfl, rfl⟩
  trans _ _ _ := Still.trans

theorem still_display : Menu.SparesDisplay Still where
  emits _ _ _ := ⟨rfl, rfl, rfl⟩
  prints _ _ := ⟨rfl, rfl, rfl⟩
  identifies _ := ⟨rfl, rfl, rfl⟩
  tells _ _ := ⟨rfl, rfl, rfl⟩
  clears _ := ⟨rfl, rfl, rfl⟩
  shows _ _ := ⟨rfl, rfl, rfl⟩
  hides _ := ⟨rfl, rfl, rfl⟩
  pauses _ := ⟨rfl, rfl, rfl⟩
  begins _ := ⟨rfl, rfl, rfl⟩
  ends _ := ⟨rfl, rfl, rfl⟩
  reads _ := ⟨rfl, rfl, rfl⟩
  resets _ := ⟨rfl, rfl, rfl⟩

theorem still_registers (written : List UInt16) : Menu.SparesRegisters Still written where
  looks _ _ := ⟨rfl, rfl, rfl⟩
  writes _ _ _ _ := ⟨rfl, rfl, rfl⟩

theorem takeKey_cases (board : Board) :
    (∃ key others, board.keys = key :: others ∧ key.time ≤ board.now ∧
      (pollKey board : Option UInt8 × Board) = (some key.scan, { board with keys := others })) ∨
    (∀ key ∈ board.keys.head?, board.now < key.time) ∧
      (pollKey board : Option UInt8 × Board) = (none, board) := by
  change (∃ key others, board.keys = key :: others ∧ key.time ≤ board.now ∧ board.takeKey = _) ∨ _ ∧ board.takeKey = _
  unfold takeKey
  cases keys : board.keys with
  | nil => exact .inr ⟨by simp, rfl⟩
  | cons key others =>
      by_cases due : key.time ≤ board.now
      · exact .inl ⟨key, others, rfl, due, if_pos due⟩
      · exact .inr ⟨by simpa using Nat.lt_of_not_le due, if_neg due⟩

/-- While its idles take time, the prepared keys are all that a board can hear. -/
instance : KeySupply Board where
  Within keys board := 1 ≤ board.step ∧ board.keys.length ≤ keys
  poll_within {keys board} within := by
    obtain ⟨ticks, bound⟩ := within
    rcases board.takeKey_cases with ⟨_, others, first, _, polled⟩ | ⟨_, polled⟩
    · rw [polled]
      rw [first] at bound
      exact ⟨ticks, Nat.le_of_succ_le bound⟩
    · rw [polled]
      exact ⟨ticks, bound⟩
  poll_spends {keys board} within {scan} heard := by
    obtain ⟨ticks, bound⟩ := within
    rcases board.takeKey_cases with ⟨_, others, first, _, polled⟩ | ⟨_, polled⟩
    · rw [polled]
      rw [first] at bound
      exact ⟨others.length, bound, ticks, Nat.le_refl _⟩
    · rw [polled] at heard
      cases heard
  now_within within := within
  idle_within _ {keys board} within := within
  now_le_now _ := Nat.le_refl _
  now_le_poll {keys board} within := by
    have stands : (pollKey board : Option UInt8 × Board).2.now = board.now := by
      rcases board.takeKey_cases with ⟨_, _, _, _, polled⟩ | ⟨_, polled⟩
      · exact congrArg (·.2.now) polled
      · exact congrArg (·.2.now) polled
    exact Nat.le_of_eq stands.symm
  now_lt_idle budget {keys board} within := by
    change board.now < board.now + max 1 (min budget.toNat board.step)
    omega

/-- Nothing but a key that is heard uses up the supply. -/
theorem supplied_waits : Menu.SparesWaits (σ := Board) Supplied where
  emits _ _ _ _ within := within
  prints _ _ _ within := within
  identifies _ _ within := within
  tells _ _ _ within := within
  clears _ _ within := within
  shows _ _ _ within := within
  hides _ _ within := within
  begins _ _ within := within
  ends _ _ within := within
  reads _ _ within := within
  polls _ _ within := KeySupply.poll_within within
  idles _ _ _ within := within

theorem supplied_registers (written : List UInt16) : Menu.SparesRegisters (σ := Board) Supplied written where
  looks _ _ _ within := within
  writes _ _ _ _ _ within := within

/-- How one look at the keyboard can go. -/
inductive Looks (deadline : Option Deadline) (before : Board) : Turn → Board → Prop
  | key {key : TimedKey} {others : List TimedKey} (first : before.keys = key :: others) :
      Looks deadline before (.key key.scan) { before with keys := others }
  | timeUp {moment : Deadline} (timed : deadline = some moment) (passed : moment.endMillis ≤ before.now) :
      Looks deadline before .timeUp before
  | idled {time : Nat} (early : ∀ key ∈ before.keys.head?, before.now < key.time)
      (forward : 1 ≤ before.step → 0 < time)
      (within : ∀ moment, deadline = some moment → before.now + time ≤ moment.endMillis) :
      Looks deadline before .idled { before with now := before.now + time }

theorem turn_looks (deadline : Option Deadline) (board : Board) :
    Looks deadline board (turn deadline board).1 (turn deadline board).2 := by
  rcases board.takeKey_cases with ⟨key, others, first, _, polled⟩ | ⟨early, polled⟩
  · have turned : turn deadline board = (.key key.scan, { board with keys := others }) := by
      simp only [turn, Action.bind_apply, polled, Action.pure_apply]
    rw [turned]
    exact .key first
  · cases deadline with
    | none =>
        have turned : turn none board = (.idled, { board with now := board.now + board.step }) := by
          simp only [turn, Action.bind_apply, polled]
          rfl
        rw [turned]
        exact .idled early id fun _ timed => by cases timed
    | some moment =>
        by_cases passed : moment.endMillis ≤ (Clock.now board : Nat × Board).1
        · have turned : turn (some moment) board = (.timeUp, board) := by
            simp only [turn, Action.bind_apply, polled, Deadline.idleOnce_passed passed]
            rfl
          rw [turned]
          exact .timeUp rfl passed
        · let time := max 1 (min (moment.left board.now).toNat board.step)
          have turned : turn (some moment) board = (.idled, { board with now := board.now + time }) := by
            simp only [turn, Action.bind_apply, polled, Deadline.idleOnce_ahead passed]
            rfl
          have ahead : board.now < moment.endMillis := Nat.lt_of_not_le passed
          have budget : (moment.left board.now).toNat ≤ moment.endMillis - board.now := by
            rw [Deadline.left, UInt32.toNat_ofNat']
            exact Nat.le_trans (Nat.mod_le _ _) (Nat.min_le_left _ _)
          rw [turned]
          refine .idled early (fun _ => Nat.lt_of_lt_of_le Nat.one_pos (Nat.le_max_left _ _)) ?_
          rintro _ ⟨rfl⟩
          have bounded : time ≤ moment.endMillis - board.now := by omega
          omega

/-- So many keys, or more, and no more time than this go by. -/
structure Spends (keys millis : Nat) (before after : Board) : Prop where
  step : after.step = before.step
  forward : before.now ≤ after.now
  within : after.now ≤ before.now + millis
  typed : after.keys.length + keys ≤ before.keys.length

theorem Still.spends {before after : Board} (still : Still before after) : Spends 0 0 before after where
  step := still.step
  forward := Nat.le_of_eq still.now.symm
  within := Nat.le_of_eq still.now
  typed := Nat.le_of_eq (congrArg List.length still.keys)

theorem Spends.trans {keys more millis longer : Nat} {before middle after : Board}
    (first : Spends keys millis before middle) (second : Spends more longer middle after) :
    Spends (keys + more) (millis + longer) before after where
  step := second.step.trans first.step
  forward := Nat.le_trans first.forward second.forward
  within := by
    have := first.within
    have := second.within
    omega
  typed := by
    have := first.typed
    have := second.typed
    omega

theorem Spends.weaken {keys fewer millis longer : Nat} {before after : Board}
    (spends : Spends keys millis before after) (fewerKeys : fewer ≤ keys) (longerTime : millis ≤ longer) :
    Spends fewer longer before after where
  step := spends.step
  forward := spends.forward
  within := Nat.le_trans spends.within (Nat.add_le_add_left longerTime _)
  typed := Nat.le_trans (Nat.add_le_add_left fewerKeys _) spends.typed

theorem awaitBy_spends {moment : Deadline} {patience : Nat} {before after : Board} {scan : Option UInt8}
    (ended : awaitBy (some moment) patience before = some (scan, after)) :
    Spends scan.toList.length (moment.endMillis - before.now) before after := by
  induction patience generalizing before with
  | zero => cases ended
  | succ patience ih =>
      have looks := turn_looks (some moment) before
      rw [awaitBy_succ] at ended
      generalize turn (some moment) before = turned at looks ended
      obtain ⟨answer, middle⟩ := turned
      cases looks with
      | key first =>
          cases ended
          exact ⟨rfl, Nat.le_refl _, Nat.le_add_right _ _, by simp [first]⟩
      | timeUp _ _ =>
          cases ended
          exact (Still.spends ⟨rfl, rfl, rfl⟩).weaken (Nat.le_refl _) (Nat.zero_le _)
      | idled _ _ within =>
          obtain ⟨steady, forward, bounded, typed⟩ := ih ended
          have ahead := within moment rfl
          dsimp only at steady forward bounded typed
          exact ⟨steady, by omega, by omega, typed⟩

theorem await_spends {patience : Nat} {millis : UInt32} {before after : Board} {scan : Option UInt8}
    (ended : await patience (.millis millis) before = some (scan, after)) :
    Spends scan.toList.length millis.toNat before after := by
  have rest := perform_bind_eq_some.mp ended
  exact (awaitBy_spends rest).weaken (Nat.le_refl _) (Nat.le_of_eq (Nat.add_sub_cancel_left _ _))

theorem drainUpTo_spends {patience keys : Nat} {before after : Board}
    (ended : drainUpTo patience keys before = some ((), after)) : Spends 0 0 before after := by
  induction keys generalizing before with
  | zero => cases ended
  | succ keys ih =>
      obtain ⟨scan, middle, awaited, rest⟩ := bind_eq_some.mp ended
      have spends := (await_spends awaited).weaken (Nat.zero_le _) (Nat.le_refl _)
      cases scan with
      | none =>
          cases rest
          exact spends
      | some scan => exact spends.trans (ih rest)

/-- A wait has an end: its deadline, or else the time of the next key. -/
def EndsBy (deadline : Option Deadline) (board : Board) (limit : Nat) : Prop :=
  deadline = some ⟨limit⟩ ∨ board.keys.head?.map TimedKey.time = some limit

/-- Idling goes forward to the end of the wait and not beyond it, so the time that is left
bounds the turns. -/
theorem awaitBy_returns {deadline : Option Deadline} {limit : Nat} {board : Board} (ticks : 1 ≤ board.step)
    (ends : EndsBy deadline board limit) : Returns (awaitBy deadline) board := by
  generalize left : limit - board.now = rest
  induction rest using Nat.strongRecOn generalizing board with
  | ind rest ih =>
      have looks := turn_looks deadline board
      refine .of_succ (.perform_bind ?_)
      generalize turn deadline board = turned at looks
      obtain ⟨answer, middle⟩ := turned
      cases looks with
      | key _ => exact .pure _ _
      | timeUp _ _ => exact .pure _ _
      | idled early forward within =>
          have later := forward ticks
          have ahead : board.now < limit := by
            rcases ends with timed | keyed
            · exact Nat.lt_of_lt_of_le (Nat.lt_add_of_pos_right later) (within _ timed)
            · obtain ⟨key, first, rfl⟩ := Option.map_eq_some_iff.mp keyed
              exact early key first
          exact ih _ (by dsimp only; omega) ticks ends rfl

theorem await_returns {board : Board} (ticks : 1 ≤ board.step) {timeout : Timeout}
    (ends : timeout = .forever → board.keys ≠ []) :
    Returns (fun patience => await patience timeout) board := by
  cases timeout with
  | millis count => exact .perform_bind (awaitBy_returns ticks (.inl rfl))
  | forever =>
      obtain ⟨key, first⟩ := Option.isSome_iff_exists.mp (List.isSome_head?.mpr (ends rfl))
      exact awaitBy_returns ticks (.inr (by rw [first]; rfl))

/-- Without a deadline and without keys there is no end. -/
theorem awaitBy_starves {board : Board} (silent : board.keys = []) (patience : Nat) :
    awaitBy none patience board = none := by
  induction patience generalizing board with
  | zero => rfl
  | succ patience ih =>
      have looks := turn_looks none board
      rw [awaitBy_succ]
      generalize turn none board = turned at looks
      obtain ⟨answer, middle⟩ := turned
      cases looks with
      | key first => exact nomatch silent.symm.trans first
      | timeUp timed _ => cases timed
      | idled _ _ _ => exact ih silent

theorem drain_returns {board : Board} (ticks : 1 ≤ board.step) : Returns drain board :=
  Keystroke.drain_returns (show KeySupply.Within board.keys.length board from ⟨ticks, Nat.le_refl _⟩)

end BootFlow.Scripted.Board
