import BootFlow.Proofs.Menu.Calls
import BootFlow.Proofs.Menu.Duration
import BootFlow.Proofs.Scripted.Moments

namespace BootFlow.Menu

open Clock Console Keyboard Logging Machine Recorded Registers Scripted Scripted.Board Waiting

/-! The device list goes by its keys. What a key means depends on its code and on the moment when it
is heard, and each key that is passed over starts the time for the next. -/

/-- A device list that waits for its operator. It hears escape from a moment on, waits so long for
each key, and looks at the keyboard at every step. -/
structure Listing where
  escapeFrom : Nat
  count : Nat
  timeout : Nat
  step : Nat

namespace Listing

def of (config : Config) (session : Session) (escapeFrom step : Nat) : Listing where
  escapeFrom := escapeFrom
  count := session.registry.candidates.length
  timeout := config.selectionTimeout.toNat
  step := step

/-- The wait for a key from this moment on. -/
def watch (listing : Listing) (since : Nat) : Watch where
  start := since
  step := listing.step
  limit := since + listing.timeout

/-- What a key means that is heard at this moment. -/
def meaning (listing : Listing) (moment : Nat) (scan : UInt8) : Reply :=
  let position := ScanCode.position (ScanCode.digitOfFunctionKey scan)
  if scan = ScanCode.enter ∨ (scan = ScanCode.escape ∧ listing.escapeFrom ≤ moment) then .keep
  else if 1 ≤ position ∧ position ≤ listing.count then .choose position
  else .ignore

/-- From one moment to another these keys are heard and passed over. The wait for each of them starts
where the one before was heard. -/
inductive PassesOver (listing : Listing) : Nat → List TimedKey → Nat → Prop
  | none (since : Nat) : PassesOver listing since [] since
  | key {since moment last : Nat} {key : TimedKey} {others : List TimedKey}
      (seen : (listing.watch since).Sees key.time moment) (ignored : listing.meaning moment key.scan = .ignore)
      (later : PassesOver listing moment others last) : PassesOver listing since (key :: others) last

/-- How the list ends, where it waits since some moment: with which session, when, and with which
keys left. -/
inductive Ends (listing : Listing) (session : Session) (since : Nat) :
    List TimedKey → Session → Nat → List TimedKey → Prop
  | silent {queue : List TimedKey} (late : ∀ key ∈ queue.head?, since + listing.timeout < key.time) :
      Ends listing session since queue session (since + listing.timeout) queue
  | kept {key : TimedKey} {others : List TimedKey} {moment : Nat}
      (seen : (listing.watch since).Sees key.time moment) (keeps : listing.meaning moment key.scan = .keep) :
      Ends listing session since (key :: others) session moment others
  | chosen {key : TimedKey} {others : List TimedKey} {moment position : Nat}
      (seen : (listing.watch since).Sees key.time moment)
      (chooses : listing.meaning moment key.scan = .choose position) :
      Ends listing session since (key :: others)
        { session with
          registry := session.registry.promote position
          selection := position
          rule := none
          operatorChoice := true }
        moment others

end Listing

/-- Under record as well, no time and no keys have gone by. -/
def Standstill (before after : Recorded Board) : Prop :=
  Still before.platform after.platform

instance : IsPreorder (Recorded Board) Standstill where
  refl recorded := refl (r := Still) recorded.platform
  trans _ _ _ := Still.trans

theorem standstill_screen : SparesScreen Standstill :=
  still_display.screen.recorded

theorem reply_answer (listing : Listing) (scan : UInt8) (heard : Recorded Board) :
    (reply ⟨listing.escapeFrom⟩ listing.count scan heard).1 = listing.meaning heard.platform.now scan := by
  unfold reply Listing.meaning
  by_cases enter : scan = ScanCode.enter
  · rw [if_pos enter, if_pos (.inl enter), Action.pure_apply]
  · rw [if_neg enter]
    by_cases escape : scan = ScanCode.escape
    · rw [if_pos escape]
      by_cases late : listing.escapeFrom ≤ heard.platform.now
      · have expired : (Deadline.expired ⟨listing.escapeFrom⟩ heard).1 = true := decide_eq_true late
        simp only [Action.bind_apply, Action.pure_apply, expired, escape, late, and_self, or_true, if_true]
      · have pending : (Deadline.expired ⟨listing.escapeFrom⟩ heard).1 = false := decide_eq_false late
        -- No list has a candidate for escape, so an early one is passed over like other keys.
        have unlisted : ¬1 ≤ ScanCode.position (ScanCode.digitOfFunctionKey scan) := by
          rw [escape]
          decide
        simp only [Action.bind_apply, Action.pure_apply, pending, enter, late, unlisted, and_false, false_and,
          or_false, if_false, Bool.false_eq_true]
    · simp only [enter, escape, false_and, or_false, if_false, Action.pure_apply]

variable {config : Config} {patience : Nat} {session chosen : Session} {before after : Recorded Board}

theorem awaitKey_waits {millis : UInt32} {scan : Option UInt8} (ticks : 1 ≤ before.platform.step)
    (ended : awaitKey patience (.millis millis) before = some (scan, after)) :
    Waits (before.platform.now + millis.toNat) before.platform scan after.platform := by
  obtain ⟨heard, awaited, rfl⟩ := awaitKey_parts ended
  have ticks : 1 ≤ (beginInputWait before).2.platform.step := ticks
  exact (await_waited ticks awaited).waits

theorem heard_replied {escapeFrom : Nat} {scan : UInt8} {answer : Reply} {heard replied : Recorded Board}
    (ticks : 1 ≤ before.platform.step)
    (awaited : awaitKey patience (.millis config.selectionTimeout) before = some (some scan, heard))
    (replies : reply ⟨escapeFrom⟩ session.registry.candidates.length scan heard = (answer, replied)) :
    let listing := Listing.of config session escapeFrom before.platform.step
    ∃ key, key.scan = scan ∧ before.platform.keys = key :: replied.platform.keys ∧
      (listing.watch before.platform.now).Sees key.time replied.platform.now ∧
      listing.meaning replied.platform.now scan = answer ∧ replied.platform.step = before.platform.step := by
  intro listing
  have quiet : Standstill heard replied := (reply_keeps standstill_screen.reads ⟨escapeFrom⟩ _ scan).of_eq replies
  have means : (reply ⟨escapeFrom⟩ listing.count scan heard).1 = listing.meaning heard.platform.now scan :=
    reply_answer listing scan heard
  have waits := awaitKey_waits ticks awaited
  rw [quiet.keys, quiet.now, quiet.step, ← means]
  generalize heard.platform = board at waits
  cases waits with
  | @heard key others moment first seen => exact ⟨key, rfl, first, seen, congrArg Prod.fst replies, rfl⟩

theorem awaitSelection_step {escapeFrom rounds : Nat} (ticks : 1 ≤ before.platform.step)
    (ended : awaitSelection config patience ⟨escapeFrom⟩ session (rounds + 1) before = some (chosen, after)) :
    let listing := Listing.of config session escapeFrom before.platform.step
    listing.Ends session before.platform.now before.platform.keys chosen after.platform.now after.platform.keys ∨
      ∃ key middle, before.platform.keys = key :: middle.platform.keys ∧
        (listing.watch before.platform.now).Sees key.time middle.platform.now ∧
        listing.meaning middle.platform.now key.scan = .ignore ∧ middle.platform.step = before.platform.step ∧
        awaitSelection config patience ⟨escapeFrom⟩ session rounds middle = some (chosen, after) := by
  have output := standstill_screen.toSparesOutput
  have round := awaitSelection_round ended
  cases round with
  | silent awaited =>
      have waits := awaitKey_waits ticks awaited
      generalize after.platform = board at waits
      cases waits with
      | silent late => exact .inl (.silent late)
  | kept awaited replies =>
      obtain ⟨key, rfl, first, seen, keeps, -⟩ := heard_replied ticks awaited replies
      rw [first]
      exact .inl (.kept seen keeps)
  | @chosen _ position _ replied awaited replies =>
      obtain ⟨key, rfl, first, seen, chooses, -⟩ := heard_replied ticks awaited replies
      have still : Standstill (print "\n" replied).2 _ := choose_keeps output session position _
      rw [first, still.now, still.keys]
      exact .inl (.chosen seen chooses)
  | ignored awaited replies rest =>
      obtain ⟨key, rfl, first, seen, ignores, steps⟩ := heard_replied ticks awaited replies
      exact .inr ⟨key, _, first, seen, ignores, steps, rest⟩

theorem awaitSelection_obeys {escapeFrom rounds : Nat} (ticks : 1 ≤ before.platform.step)
    (ended : awaitSelection config patience ⟨escapeFrom⟩ session rounds before = some (chosen, after)) :
    let listing := Listing.of config session escapeFrom before.platform.step
    ∃ passed queue since, before.platform.keys = passed ++ queue ∧
      listing.PassesOver before.platform.now passed since ∧
      listing.Ends session since queue chosen after.platform.now after.platform.keys := by
  intro listing
  induction rounds generalizing before with
  | zero => cases ended
  | succ rounds ih =>
      rcases awaitSelection_step ticks ended with ends | ⟨key, middle, first, seen, ignored, steps, rest⟩
      · exact ⟨[], _, _, rfl, .none _, ends⟩
      · -- The key that is passed over goes in front of those that the other rounds pass over.
        obtain ⟨passed, queue, since, left, passes, ends⟩ := ih (steps ▸ ticks) rest
        rw [steps] at passes ends
        exact ⟨key :: passed, queue, since, by rw [first, left, List.cons_append], .key seen ignored passes, ends⟩

theorem showDevices_answer (config : Config) (session : Session) (recorded : Recorded Board) :
    (showDevices config session recorded).1 = ⟨recorded.platform.now + config.escapeDebounce.toNat⟩ := by
  have still : Standstill recorded (showDevices config session recorded).2 :=
    showDevices_keeps standstill_screen config session recorded
  rw [← still.now]
  rfl

theorem deviceList_obeys (ticks : 1 ≤ before.platform.step)
    (ended : deviceList config patience session before = some (chosen, after)) :
    let listing := Listing.of config session (before.platform.now + config.escapeDebounce.toNat) before.platform.step
    ∃ passed queue since, before.platform.keys.dropWhile (·.time ≤ before.platform.now) = passed ++ queue ∧
      listing.PassesOver before.platform.now passed since ∧
      listing.Ends session since queue chosen after.platform.now after.platform.keys := by
  intro listing
  obtain ⟨drained, selects, drains, awaited, rfl⟩ := deviceList_parts ended
  obtain ⟨cleared, _⟩ := drainUpTo_clears ticks drains
  have listed : Standstill drained _ := listing_keeps standstill_screen config session drained
  have left : Standstill selects _ := leave_keeps standstill_screen.toSparesOutput .awaitSelection chosen selects
  rw [showDevices_answer] at awaited
  have obeys := awaitSelection_obeys (by rw [listed.step, cleared]; exact ticks) awaited
  rw [listed.keys, listed.now, listed.step, cleared] at obeys
  rw [left.keys, left.now]
  exact obeys

/-- The device list comes to its end, and nothing is written to a register meanwhile. What was typed
before it was shown does not count. Then it passes over the keys that mean nothing to it, and ends
when time is up or with the first key that means something. The keys behind that one are left. -/
theorem listing_ends_by_its_keys (config : Config) (session : Session) {before : Recorded Board}
    (ticks : 1 ≤ before.platform.step) :
    let listing := Listing.of config session (before.platform.now + config.escapeDebounce.toNat) before.platform.step
    ∃ chosen after, Settles (fun patience => deviceList config patience session) before chosen after ∧
      (∃ passed queue since, before.platform.keys.dropWhile (·.time ≤ before.platform.now) = passed ++ queue ∧
        listing.PassesOver before.platform.now passed since ∧
        listing.Ends session since queue chosen after.platform.now after.platform.keys) ∧
      Undisturbed held [] before after ∧
      Extends (fun call => ∀ register value, call ≠ .writeRegister register value) before after := by
  intro listing
  have within : KeySupply.Within before.platform.keys.length before := ⟨ticks, Nat.le_refl _⟩
  have supplied : SparesWaits (σ := Recorded Board) Supplied := supplied_waits.recorded
  have returns : Returns (fun patience => deviceList config patience session) before :=
    deviceList_returns_within supplied within
  obtain ⟨chosen, after, settles⟩ := returns
  obtain ⟨patience, ended⟩ := settles.ends
  have undisturbed := deviceList_keeps RegistersAlone.spares.waits config patience session _ _ _ ended
  have conversed := deviceList_keeps converses_spares.waits config patience session _ _ _ ended
  refine ⟨chosen, after, settles, deviceList_obeys ticks ended, undisturbed, conversed.mono ?_⟩
  rintro call spoken register value rfl
  cases spoken

/-- Enter is typed ahead and the ninth disk is not there, so the third one is chosen. -/
theorem listing_ends_by_its_keys_third :
    let session : Session := { registry := threeDisks, selection := 1 }
    let before : Recorded Board :=
      { platform := { keys := [⟨5, 0x1c⟩, ⟨30, 0x0a⟩, ⟨100, 0x04⟩, ⟨300, 0x02⟩], now := 5 } }
    1 ≤ before.platform.step ∧ ∃ chosen after,
      Settles (fun patience => deviceList {} patience session) before chosen after ∧
      chosen.selection = 3 ∧ chosen.registry = threeDisks.promote 3 ∧ after.platform.keys = [⟨300, 0x02⟩] := by
  intro session before
  have ticks : 1 ≤ before.platform.step := by decide
  obtain ⟨chosen, after, settles, ⟨passed, queue, since, typed, passes, ends⟩, -⟩ :=
    listing_ends_by_its_keys {} session ticks
  refine ⟨ticks, chosen, after, settles, ?_⟩
  have left : before.platform.keys.dropWhile (·.time ≤ before.platform.now) =
      [⟨30, 0x0a⟩, ⟨100, 0x04⟩, ⟨300, 0x02⟩] := by
    decide
  rw [left] at typed
  generalize after.platform.now = moment at ends
  generalize after.platform.keys = unread at ends ⊢
  cases passes with
  | none =>
      obtain rfl : _ = queue := typed
      cases ends with
      | silent late => exact absurd (late _ rfl) (by decide)
      | kept _ keeps => cases keeps
      | chosen _ chooses => cases chooses
  | key _ _ later =>
      obtain ⟨rfl, rest⟩ := List.cons.inj typed
      cases later with
      | none =>
          obtain rfl : _ = queue := rest
          cases ends with
          | silent late =>
              have late : since + 15000 < 100 := late _ rfl
              omega
          | kept _ keeps => cases keeps
          | chosen _ chooses =>
              cases chooses
              exact ⟨rfl, rfl, rfl⟩
      | key _ ignored _ =>
          obtain ⟨rfl, _⟩ := List.cons.inj rest
          cases ignored

end BootFlow.Menu
