import BootFlow.Proofs.Scripted.Time

namespace BootFlow

open Clock Keyboard Keystroke Waiting

/-! A wait with a deadline looks at the keyboard when it starts, at every step from there, and at
its deadline. In between it idles, for no more than the time that is left. -/

/-- The moment of an idle and its budget, if the event is one. -/
def Event.idle? (event : Event) : Option (Nat × Option UInt32) :=
  match event.call with
  | .idle budget => some (event.time, budget)
  | _ => none

namespace Keystroke

variable {σ : Type} [Keyboard σ] [Clock σ] {state : σ}

theorem turn_heard {deadline : Option Deadline} {scan : UInt8} (heard : (pollKey state).1 = some scan) :
    turn deadline state = (.key scan, (pollKey state).2) := by
  simp only [turn, Action.bind_apply, heard, Action.pure_apply]

theorem turn_silent {deadline : Deadline} (silent : (pollKey state).1 = none) :
    turn (some deadline) state =
      (if (deadline.idleOnce (pollKey state).2).1 then .timeUp else .idled,
        (deadline.idleOnce (pollKey state).2).2) := by
  simp only [turn, Action.bind_apply, silent, Action.pure_apply]

end Keystroke

namespace Recorded

variable {σ α : Type}

def idles (recorded : Recorded σ) : List (Nat × Option UInt32) :=
  recorded.events.toList.filterMap Event.idle?

variable [Timeline σ]

theorem idles_recording (call : α → Call) (action : Action σ α) (recorded : Recorded σ) :
    (recording call action recorded).2.idles =
      recorded.idles ++
        (Event.idle? ⟨Timeline.moment recorded.platform, call (action recorded.platform).1⟩).toList := by
  simp only [recording, idles, Array.toList_push, List.filterMap_append, List.filterMap_cons, List.filterMap_nil]
  congr 1

theorem idles_pollKey [Keyboard σ] (recorded : Recorded σ) : (pollKey recorded).2.idles = recorded.idles :=
  (idles_recording Call.pollKey pollKey recorded).trans (List.append_nil _)

variable [Clock σ]

theorem idles_now (recorded : Recorded σ) : (now recorded).2.idles = recorded.idles :=
  (idles_recording Call.readClock now recorded).trans (List.append_nil _)

theorem idles_idle (budget : Option UInt32) (recorded : Recorded σ) :
    (idle budget recorded).2.idles = recorded.idles ++ [(Timeline.moment recorded.platform, budget)] :=
  idles_recording _ (idle budget) recorded

instance [Keyboard σ] [KeySupply σ] : KeySupply (Recorded σ) where
  Within keys recorded := KeySupply.Within keys recorded.platform
  poll_within within := KeySupply.poll_within (σ := σ) within
  poll_spends within _ heard := KeySupply.poll_spends (σ := σ) within heard
  now_within within := KeySupply.now_within (σ := σ) within
  idle_within budget _ _ within := KeySupply.idle_within (σ := σ) budget within
  now_le_now within := KeySupply.now_le_now (σ := σ) within
  now_le_poll within := KeySupply.now_le_poll (σ := σ) within
  now_lt_idle budget _ _ within := KeySupply.now_lt_idle (σ := σ) budget within

end Recorded

namespace Scripted

/-- When a wait looks at the keyboard: from its start on, step by step, up to its limit. -/
structure Watch where
  start : Nat
  step : Nat
  limit : Nat

namespace Watch

/-- The moment of the look that has so many turns before it. -/
def look (watch : Watch) (turns : Nat) : Nat :=
  min (watch.start + turns * watch.step) watch.limit

/-- The first look that is not before this time is at this moment. -/
def Sees (watch : Watch) (time moment : Nat) : Prop :=
  ∃ turns, watch.look turns = moment ∧ time ≤ moment ∧ ∀ earlier < turns, watch.look earlier < time

/-- The idles of a wait that came to its end at this moment: one after each look before it, and
each is given exactly the time that is left until the limit, which is never none. -/
def Idles (watch : Watch) (moment : Nat) (idles : List (Nat × Option UInt32)) : Prop :=
  (∃ turns, watch.look turns = moment ∧ idles.map Prod.fst = (List.range turns).map watch.look) ∧
    ∀ idle ∈ idles, ∃ left : UInt32, idle.2 = some left ∧ 0 < left.toNat ∧ idle.1 + left.toNat = watch.limit

def next (watch : Watch) : Watch :=
  { watch with start := min (watch.start + watch.step) watch.limit }

variable {watch : Watch} {time moment : Nat}

theorem look_zero (started : watch.start ≤ watch.limit) : watch.look 0 = watch.start := by
  rw [look, Nat.zero_mul]
  exact Nat.min_eq_left started

theorem look_le (watch : Watch) (turns : Nat) : watch.look turns ≤ watch.limit :=
  Nat.min_le_right _ _

theorem look_instant (started : watch.start ≤ watch.limit) (instant : watch.limit ≤ watch.start) (turns : Nat) :
    watch.look turns = watch.start := by
  rw [look]
  omega

theorem look_next (watch : Watch) (turns : Nat) : watch.next.look turns = watch.look (turns + 1) := by
  change min (min (watch.start + watch.step) watch.limit + turns * watch.step) watch.limit =
    min (watch.start + (turns + 1) * watch.step) watch.limit
  rw [Nat.succ_mul]
  omega

theorem sees_start (started : watch.start ≤ watch.limit) (due : time ≤ watch.start) :
    watch.Sees time watch.start :=
  ⟨0, look_zero started, due, nofun⟩

theorem Sees.of_next (started : watch.start ≤ watch.limit) (early : watch.start < time)
    (seen : watch.next.Sees time moment) : watch.Sees time moment := by
  obtain ⟨turns, looked, due, first⟩ := seen
  refine ⟨turns + 1, by rw [← look_next, looked], due, fun earlier before => ?_⟩
  cases earlier with
  | zero => rwa [look_zero started]
  | succ earlier =>
      rw [← look_next]
      exact first earlier (Nat.lt_of_succ_lt_succ before)

theorem idles_nil (started : watch.start ≤ watch.limit) : watch.Idles watch.start [] :=
  ⟨⟨0, look_zero started, rfl⟩, nofun⟩

theorem Idles.of_next {idles : List (Nat × Option UInt32)} {left : UInt32} (someLeft : 0 < left.toNat)
    (allLeft : watch.start + left.toNat = watch.limit) (later : watch.next.Idles moment idles) :
    watch.Idles moment ((watch.start, some left) :: idles) := by
  obtain ⟨⟨turns, looked, times⟩, given⟩ := later
  refine ⟨⟨turns + 1, by rw [← look_next, looked], ?_⟩,
    List.forall_mem_cons.mpr ⟨⟨left, rfl, someLeft, allLeft⟩, given⟩⟩
  rw [List.map_cons, times, List.range_succ_eq_map, List.map_cons, look_zero (by omega), List.map_map]
  exact congrArg _ (List.map_congr_left fun turn _ => look_next watch turn)

theorem Idles.eq_nil {idles : List (Nat × Option UInt32)} (instant : watch.limit ≤ watch.start)
    (made : watch.Idles moment idles) : idles = [] := by
  obtain ⟨⟨turns, _, times⟩, given⟩ := made
  refine List.eq_nil_iff_forall_not_mem.mpr fun idle member => ?_
  obtain ⟨left, _, someLeft, allLeft⟩ := given idle member
  have looks : idle.1 ∈ (List.range turns).map watch.look := times ▸ List.mem_map_of_mem member
  obtain ⟨turn, _, looked⟩ := List.mem_map.mp looks
  rw [look] at looked
  omega

end Watch

def Board.watch (board : Board) (limit : Nat) : Watch where
  start := board.now
  step := board.step
  limit := limit

namespace Board

/-- How a wait until the limit ends. It takes the first key or none, and time goes by. -/
inductive Waits (limit : Nat) (before : Board) : Option UInt8 → Board → Prop
  | heard {key : TimedKey} {others : List TimedKey} {moment : Nat} (first : before.keys = key :: others)
      (seen : (before.watch limit).Sees key.time moment) :
      Waits limit before (some key.scan) { before with keys := others, now := moment }
  | silent (late : ∀ key ∈ before.keys.head?, limit < key.time) :
      Waits limit before none { before with now := limit }

theorem Waits.none_iff {limit : Nat} {before after : Board} {answer : Option UInt8}
    (waits : Waits limit before answer after) : answer = none ↔ ∀ key ∈ before.keys.head?, limit < key.time := by
  cases waits with
  | @heard key others moment first seen =>
      obtain ⟨turns, rfl, due, _⟩ := seen
      have inTime : key.time ≤ limit := Nat.le_trans due (Watch.look_le _ turns)
      simpa [first] using inTime
  | silent late => exact ⟨fun _ => late, fun _ => rfl⟩

/-- How a look at the keyboard goes when a wait has not come to its limit, or just has. -/
inductive Paces (limit : Nat) (before : Recorded Board) : Turn → Recorded Board → Prop
  | key {key : TimedKey} {others : List TimedKey} {after : Recorded Board}
      (first : before.platform.keys = key :: others) (due : key.time ≤ before.platform.now)
      (taken : after.platform = { before.platform with keys := others }) (quiet : after.idles = before.idles) :
      Paces limit before (.key key.scan) after
  | timeUp {after : Recorded Board} (early : ∀ key ∈ before.platform.keys.head?, before.platform.now < key.time)
      (passed : limit ≤ before.platform.now) (same : after.platform = before.platform)
      (quiet : after.idles = before.idles) : Paces limit before .timeUp after
  | idled {left : UInt32} {after : Recorded Board}
      (early : ∀ key ∈ before.platform.keys.head?, before.platform.now < key.time)
      (someLeft : 0 < left.toNat) (allLeft : before.platform.now + left.toNat = limit)
      (went : after.platform = { before.platform with now := (before.platform.watch limit).next.start })
      (idles : after.idles = before.idles ++ [(before.platform.now, some left)]) : Paces limit before .idled after

/-- An idle before the limit is given what is left until then, and takes one step of it. -/
theorem idleOnce_paces {limit : Nat} {before : Recorded Board} (ticks : 1 ≤ before.platform.step)
    (near : limit ≤ before.platform.now + 0xffffffff) (ahead : before.platform.now < limit) :
    ∃ (left : UInt32) (after : Recorded Board), Deadline.idleOnce ⟨limit⟩ before = (false, after) ∧
      0 < left.toNat ∧ before.platform.now + left.toNat = limit ∧
      after.platform = { before.platform with now := (before.platform.watch limit).next.start } ∧
      after.idles = before.idles ++ [(before.platform.now, some left)] := by
  let left := Deadline.left ⟨limit⟩ before.platform.now
  let looked := (Clock.now (Clock.now before).2).2
  have allLeft : left.toNat = limit - before.platform.now := Deadline.toNat_left near
  have stepped : before.platform.now + idleTime before.platform.step (some left) =
      (before.platform.watch limit).next.start := by
    change before.platform.now + max 1 (min left.toNat before.platform.step) =
      min (before.platform.now + before.platform.step) limit
    omega
  refine ⟨left, (idle (some left) looked).2, Deadline.idleOnce_ahead (Nat.not_le.mpr ahead), by omega, by omega, ?_, ?_⟩
  · rw [← stepped]
    rfl
  · rw [Recorded.idles_idle, Recorded.idles_now, Recorded.idles_now]
    rfl

theorem turn_paces {limit : Nat} {before : Recorded Board} (ticks : 1 ≤ before.platform.step)
    (near : limit ≤ before.platform.now + 0xffffffff) :
    Paces limit before (turn (some ⟨limit⟩) before).1 (turn (some ⟨limit⟩) before).2 := by
  have quiet := Recorded.idles_pollKey before
  rcases before.platform.takeKey_cases with ⟨key, others, first, due, taken⟩ | ⟨early, taken⟩
  · have heard : (pollKey before).1 = some key.scan := congrArg Prod.fst taken
    rw [turn_heard heard]
    exact .key first due (congrArg Prod.snd taken) quiet
  · have same : (pollKey before).2.platform = before.platform := congrArg Prod.snd taken
    have silent : (pollKey before).1 = none := congrArg Prod.fst taken
    rw [turn_silent silent]
    by_cases passed : limit ≤ before.platform.now
    · have up : limit ≤ (Clock.now (pollKey before).2).1 := by rwa [← same] at passed
      rw [Deadline.idleOnce_passed up]
      exact .timeUp early passed same ((Recorded.idles_now _).trans quiet)
    · rw [← same] at ticks near passed
      obtain ⟨left, after, idled, someLeft, allLeft, went, idles⟩ := idleOnce_paces ticks near (Nat.lt_of_not_le passed)
      rw [idled]
      rw [same] at allLeft went idles
      exact .idled early someLeft allLeft went (by rw [idles, quiet])

/-- A wait until the limit has gone like this, and so have its idles. -/
structure Waited (limit : Nat) (before : Recorded Board) (answer : Option UInt8) (after : Recorded Board) : Prop where
  waits : Waits limit before.platform answer after.platform
  idles : ∃ idles, after.idles = before.idles ++ idles ∧
    (before.platform.watch limit).Idles after.platform.now idles

variable {limit : Nat} {before middle after : Recorded Board} {answer : Option UInt8}

theorem Waited.of_idled (idled : Paces limit before .idled middle) (waited : Waited limit middle answer after) :
    Waited limit before answer after := by
  cases idled with
  | idled early someLeft allLeft went idles =>
      have started : (before.platform.watch limit).start ≤ limit := Nat.le.intro allLeft
      obtain ⟨waits, more, made, onwards⟩ := waited
      rw [went] at waits onwards
      refine ⟨?_, _, ?_, onwards.of_next someLeft allLeft⟩
      · generalize after.platform = ended at waits
        cases waits with
        | heard first seen => exact .heard first (seen.of_next started (early _ (by rw [first]; rfl)))
        | silent late => exact .silent late
      · rw [made, idles, List.append_assoc]
        rfl

theorem awaitBy_waited {patience : Nat} (ticks : 1 ≤ before.platform.step) (started : before.platform.now ≤ limit)
    (near : limit ≤ before.platform.now + 0xffffffff)
    (ended : awaitBy (some ⟨limit⟩) patience before = some (answer, after)) : Waited limit before answer after := by
  induction patience generalizing before with
  | zero => cases ended
  | succ patience ih =>
      have paces := turn_paces ticks near
      rw [awaitBy_succ] at ended
      generalize turn (some ⟨limit⟩) before = turned at paces ended
      obtain ⟨turn, middle⟩ := turned
      cases paces with
      | key first due taken quiet =>
          cases ended
          refine ⟨taken ▸ .heard first (Watch.sees_start started due), [], by rw [quiet, List.append_nil], ?_⟩
          rw [taken]
          exact Watch.idles_nil started
      | timeUp early passed same quiet =>
          cases ended
          have now : before.platform.now = limit := Nat.le_antisymm started passed
          refine ⟨?_, [], by rw [quiet, List.append_nil], ?_⟩
          · rw [same]
            subst now
            exact .silent early
          · rw [same]
            exact Watch.idles_nil started
      | idled early someLeft allLeft went idles =>
          have onwards : middle.platform.now = min (before.platform.now + before.platform.step) limit :=
            congrArg Board.now went
          have within : middle.platform.now ≤ limit := onwards ▸ Nat.min_le_right _ _
          have forward : before.platform.now ≤ middle.platform.now := by omega
          have waited := ih (by rwa [went]) within (Nat.le_trans near (Nat.add_le_add_right forward _)) ended
          exact waited.of_idled (.idled early someLeft allLeft went idles)

theorem await_waited {patience : Nat} {millis : UInt32} (ticks : 1 ≤ before.platform.step)
    (ended : await patience (.millis millis) before = some (answer, after)) :
    Waited (before.platform.now + millis.toNat) before answer after := by
  have rest := perform_bind_eq_some.mp ended
  have small : millis.toNat ≤ 0xffffffff := Nat.le_of_lt_succ millis.toNat_lt
  have quiet : (Deadline.after millis before).2.idles = before.idles := Recorded.idles_now before
  have waited : Waited (before.platform.now + millis.toNat) (Deadline.after millis before).2 answer after :=
    awaitBy_waited ticks (Nat.le_add_right _ _) (Nat.add_le_add_left small _) rest
  exact ⟨waited.waits, quiet ▸ waited.idles⟩

theorem await_instant {patience : Nat} (ticks : 1 ≤ before.platform.step)
    (ended : await patience (.millis 0) before = some (answer, after)) :
    Waits before.platform.now before.platform answer after.platform ∧ after.platform.now = before.platform.now ∧
      after.idles = before.idles := by
  obtain ⟨waits, made, idles, watched⟩ := await_waited ticks ended
  obtain rfl := watched.eq_nil (Nat.le_refl _)
  obtain ⟨⟨turns, instant, _⟩, _⟩ := watched
  rw [Watch.look_instant (Nat.le_refl _) (Nat.le_refl _)] at instant
  exact ⟨waits, instant.symm, by rw [idles, List.append_nil]⟩

theorem drainUpTo_clears {patience rounds : Nat} (ticks : 1 ≤ before.platform.step)
    (ended : drainUpTo patience rounds before = some ((), after)) :
    after.platform = { before.platform with keys := before.platform.keys.dropWhile (·.time ≤ before.platform.now) } ∧
      after.idles = before.idles := by
  induction rounds generalizing before with
  | zero => cases ended
  | succ rounds ih =>
      obtain ⟨scan, middle, awaited, rest⟩ := bind_eq_some.mp ended
      obtain ⟨waits, instant, quiet⟩ := await_instant ticks awaited
      generalize same : middle.platform = board at waits instant
      cases waits with
      | @heard key others moment first seen =>
          obtain ⟨_, _, due, _⟩ := seen
          obtain rfl : moment = before.platform.now := instant
          obtain ⟨cleared, silent⟩ := ih (by rwa [same]) rest
          refine ⟨?_, by rw [silent, quiet]⟩
          rw [cleared, same, first, List.dropWhile_cons_of_pos (by simpa using due)]
      | silent late =>
          cases rest
          have kept : before.platform.keys.dropWhile (·.time ≤ before.platform.now) = before.platform.keys := by
            cases keys : before.platform.keys with
            | nil => rfl
            | cons key others =>
                have early : before.platform.now < key.time := late key (by rw [keys]; rfl)
                exact List.dropWhile_cons_of_neg (by simpa using early)
          exact ⟨by rw [same, kept], quiet⟩

theorem drain_clears (ticks : 1 ≤ before.platform.step) :
    ∃ drained, Settles drain before () drained ∧
      drained.platform =
        { before.platform with keys := before.platform.keys.dropWhile (·.time ≤ before.platform.now) } ∧
      drained.idles = before.idles := by
  have within : KeySupply.Within before.platform.keys.length before := ⟨ticks, Nat.le_refl _⟩
  obtain ⟨_, drained, settles⟩ := Keystroke.drain_returns within
  obtain ⟨patience, ended⟩ := settles.ends
  exact ⟨drained, settles, drainUpTo_clears ticks ended⟩

/-- A timed wait comes to its end, and there is no answer exactly if no key comes in time. It then
has taken all of its time and no key. Otherwise it has taken the first key, at the first look that
is not before the key's time, and no other. Each idle in between is given just the time that was
left. What was typed ahead is cleared without an idle, up to the first key whose time is to come. -/
theorem waits_to_the_moment {before : Recorded Board} (ticks : 1 ≤ before.platform.step) (millis : UInt32) :
    (∃ answer after, Settles (fun patience => await patience (.millis millis)) before answer after ∧
      (answer = none ↔ ∀ key ∈ before.platform.keys.head?, before.platform.now + millis.toNat < key.time) ∧
      Waits (before.platform.now + millis.toNat) before.platform answer after.platform ∧
      ∃ idles, after.idles = before.idles ++ idles ∧
        (before.platform.watch (before.platform.now + millis.toNat)).Idles after.platform.now idles) ∧
    ∃ drained, Settles drain before () drained ∧
      drained.platform =
        { before.platform with keys := before.platform.keys.dropWhile (·.time ≤ before.platform.now) } ∧
      drained.idles = before.idles := by
  have within : KeySupply.Within before.platform.keys.length before := ⟨ticks, Nat.le_refl _⟩
  obtain ⟨answer, after, settles⟩ := Keystroke.await_returns millis within
  obtain ⟨patience, ended⟩ := settles.ends
  obtain ⟨waits, idles⟩ := await_waited ticks ended
  exact ⟨⟨answer, after, settles, waits.none_iff, waits, idles⟩, drain_clears ticks⟩

/-- A key that comes at the deadline, and not at a step from the start, is taken at the deadline. -/
theorem waits_to_the_moment_last :
    let before : Recorded Board := { platform := { keys := [⟨24, 0x04⟩, ⟨24, 0x05⟩], now := 4, step := 7 } }
    1 ≤ before.platform.step ∧ ∃ after, Settles (fun patience => await patience (.millis 20)) before (some 0x04) after ∧
      after.platform.now = 24 ∧ after.platform.keys = [⟨24, 0x05⟩] := by
  intro before
  have ticks : 1 ≤ before.platform.step := by decide
  obtain ⟨⟨answer, after, settles, -, waits, -⟩, -⟩ := waits_to_the_moment ticks 20
  refine ⟨ticks, after, ?_⟩
  generalize after.platform = ended at waits
  cases waits with
  | heard first seen =>
      obtain ⟨rfl, rfl⟩ := List.cons.inj first
      obtain ⟨turns, rfl, due, _⟩ := seen
      exact ⟨settles, Nat.le_antisymm (Watch.look_le _ turns) due, rfl⟩
  | silent late => exact absurd (late _ rfl) (by decide)

end Board

end Scripted

end BootFlow
