import BootFlow.Proofs.Menu.Course
import BootFlow.Proofs.Menu.Stages
import BootFlow.Proofs.Registry.Promotion
import BootFlow.Scripted.Board

namespace BootFlow

open Clock Console Keyboard Logging Machine Recorded Registers Waiting

/-! The device list takes the position of a candidate from the code of a key. The number keys give
their numbers, so on a list of up to nine candidates no other key chooses. On a longer list the keys
behind the ninth digit key go on counting. -/

namespace ScanCode

/-- The number on a key, from 1 to 9 or from F1 to F9. -/
def number? (scan : UInt8) : Option Nat :=
  if digit1 ≤ scan ∧ scan ≤ digit9 then some (scan.toNat - digit1.toNat + 1)
  else if f1 ≤ scan ∧ scan ≤ f9 then some (scan.toNat - f1.toNat + 1)
  else none

/-- The key chooses this position of a list: by its number, or else as the key whose code comes that
far behind the code of escape. -/
def Picks (count : Nat) (scan : UInt8) (position : Nat) : Prop :=
  position ≤ count ∧ (number? scan = some position ∨
    number? scan = none ∧ scan ≠ enter ∧ 10 ≤ position ∧ scan.toNat = escape.toNat + position)

variable {scan : UInt8} {number count chosen : Nat}

theorem position_of_number (numbered : number? scan = some number) :
    position (digitOfFunctionKey scan) = number ∧ 1 ≤ number ∧ number ≤ 9 ∧ scan ≠ enter ∧ scan ≠ escape := by
  have table : ∀ code < 256, ∀ number ∈ number? (.ofNat code),
      position (digitOfFunctionKey (.ofNat code)) = number ∧ 1 ≤ number ∧ number ≤ 9 ∧
        UInt8.ofNat code ≠ enter ∧ UInt8.ofNat code ≠ escape := by
    decide +kernel
  have entry := table scan.toNat scan.toNat_lt
  rw [UInt8.ofNat_toNat] at entry
  exact entry number numbered

/-- Of the keys without a number, two have codes below those of the digit keys. -/
theorem position_of_unnumbered (unnumbered : number? scan = none) :
    position (digitOfFunctionKey scan) = scan.toNat - 1 ∧ (scan.toNat ≤ 1 ∨ 11 ≤ scan.toNat) := by
  have table : ∀ code < 256, number? (.ofNat code) = none →
      position (digitOfFunctionKey (.ofNat code)) = (UInt8.ofNat code).toNat - 1 ∧
        ((UInt8.ofNat code).toNat ≤ 1 ∨ 11 ≤ (UInt8.ofNat code).toNat) := by
    decide +kernel
  have entry := table scan.toNat scan.toNat_lt
  rw [UInt8.ofNat_toNat] at entry
  exact entry unnumbered

theorem picks_iff : Picks count scan chosen ↔ scan ≠ enter ∧ scan ≠ escape ∧ (1 ≤ chosen ∧ chosen ≤ count) ∧
    chosen = position (digitOfFunctionKey scan) := by
  have escapeCode : escape.toNat = 1 := rfl
  have escapes : scan = escape ↔ scan.toNat = 1 := UInt8.toNat_inj.symm
  unfold Picks
  cases numbered : number? scan with
  | some number =>
      obtain ⟨same, positive, upTo, notEnter, notEscape⟩ := position_of_number numbered
      simp only [Option.some.injEq, reduceCtorEq, false_and, or_false, same]
      constructor
      · rintro ⟨inside, rfl⟩
        exact ⟨notEnter, notEscape, ⟨positive, inside⟩, rfl⟩
      · rintro ⟨-, -, ⟨-, inside⟩, rfl⟩
        exact ⟨inside, rfl⟩
  | none =>
      obtain ⟨same, apart⟩ := position_of_unnumbered numbered
      simp only [reduceCtorEq, true_and, false_or, same, escapeCode, Ne, escapes]
      constructor
      · rintro ⟨inside, notEnter, beyond, code⟩
        exact ⟨notEnter, by omega, ⟨by omega, inside⟩, by omega⟩
      · rintro ⟨notEnter, notEscape, ⟨positive, inside⟩, code⟩
        exact ⟨inside, notEnter, by omega, by omega⟩

/-- The number keys choose the first nine positions, and other keys those behind them. -/
theorem Picks.numbered_iff (picks : Picks count scan chosen) : number? scan = some chosen ↔ chosen ≤ 9 := by
  obtain ⟨_, numbered | ⟨unnumbered, _, beyond, _⟩⟩ := picks
  · simp only [numbered, (position_of_number numbered).2.2.1]
  · simp only [unnumbered, reduceCtorEq, false_iff]
    omega

end ScanCode

def Call.heard? : Call → Option UInt8
  | .pollKey scan => scan
  | _ => none

namespace Recorded

variable {σ : Type} {before after : Recorded σ}

/-- The keys that were heard, in order. -/
def heard (recorded : Recorded σ) : List UInt8 :=
  recorded.calls.filterMap Call.heard?

theorem heard_eq (recorded : Recorded σ) : recorded.heard = recorded.told.filterMap Call.heard? := by
  rw [told, List.filterMap_filter, heard]
  congr 1
  funext call
  cases call with
  | pollKey scan => cases scan <;> rfl
  | _ => simp [Call.heard?]

theorem heard_of_told {more : List Call} (told : after.told = before.told ++ more) :
    after.heard = before.heard ++ more.filterMap Call.heard? := by
  rw [heard_eq, told, List.filterMap_append, heard_eq]

theorem heard_of_extends {allowed : Call → Prop} (extended : Extends allowed before after) :
    ∃ more, after.heard = before.heard ++ more := by
  obtain ⟨more, continued, _⟩ := extended
  exact ⟨more.filterMap Call.heard?, by rw [heard, continued, List.filterMap_append, heard]⟩

end Recorded

namespace Menu

theorem reply_picks_iff {σ : Type} [Clock σ] {escapeFrom : Deadline} {count chosen : Nat} {scan : UInt8} {state : σ} :
    (reply escapeFrom count scan state).1 = .choose chosen ↔ ScanCode.Picks count scan chosen :=
  reply_choose_iff.trans ScanCode.picks_iff.symm

theorem heard_waitFor (scan : Option UInt8) : (waitFor scan).filterMap Call.heard? = scan.toList := by
  cases scan <;> rfl

variable {σ : Type} [Timeline σ] [Keyboard σ] [Clock σ] [Console σ] [Logging σ] {config : Config} {patience : Nat}
  {session chosen : Session} {before after : Recorded σ}

/-- A device list that does not end as it began was ended by its last key. -/
theorem awaitSelection_picks {escapeFrom : Deadline} {rounds : Nat}
    (ended : awaitSelection config patience escapeFrom session rounds before = some (chosen, after)) :
    chosen = session ∨ ∃ earlier scan, after.heard = before.heard ++ earlier ++ [scan] ∧
      ScanCode.Picks session.registry.candidates.length scan chosen.selection := by
  have printed (text : String) (recorded : Recorded σ) : (print text recorded).2.told = recorded.told :=
    untold_output.prints text recorded
  induction rounds generalizing before with
  | zero => cases ended
  | succ rounds ih =>
      have round := awaitSelection_round ended
      cases round with
      | silent _ => exact .inl rfl
      | kept _ _ => exact .inl rfl
      | @chosen scan position _ _ awaited replies =>
          have chooses := choose_keeps (σ := Recorded σ) untold_output session position
          refine .inr ⟨[], scan, ?_, reply_picks_iff.mp (congrArg Prod.fst replies)⟩
          rw [heard_eq, chooses, printed, told_reply replies, told_awaitKey awaited, List.filterMap_append, ← heard_eq,
            heard_waitFor, List.append_nil]
          rfl
      | @ignored scan _ replied _ _ awaited replies rest =>
          rcases ih rest with same | ⟨earlier, last, told, picks⟩
          · exact .inl same
          · refine .inr ⟨scan :: earlier, last, ?_, picks⟩
            have passed := heard_of_told ((told_reply replies).trans (told_awaitKey awaited))
            rw [told, passed, heard_waitFor]
            simp

variable [Machine σ]

theorem deviceList_picks (ended : deviceList config patience session before = some (chosen, after)) :
    chosen = session ∨ ∃ earlier scan, after.heard = before.heard ++ earlier ++ [scan] ∧
      ScanCode.Picks session.registry.candidates.length scan chosen.selection := by
  obtain ⟨drained, left, drains, awaited, rfl⟩ := deviceList_parts ended
  rcases awaitSelection_picks awaited with same | ⟨earlier, scan, told, picks⟩
  · exact .inl same
  · have drains : Continues before drained := drain_keeps continues_spares.waits patience _ _ _ drains
    have lists : Continues drained _ := listing_keeps continues_spares.waits.toSparesScreen config session drained
    obtain ⟨more, listed⟩ := heard_of_extends (IsTrans.trans _ _ _ drains lists)
    have leaves := heard_of_told ((told_leave .awaitSelection chosen left).trans (List.append_nil _).symm)
    refine .inr ⟨more ++ earlier, scan, ?_, picks⟩
    rw [leaves, told, listed]
    simp

variable [Registers σ] {registry : Registry}

/-- On a list of these candidates a key chooses just what it picks. A choice is made by the last key
that a run hears, which is a number key exactly where the position is one of the first nine, and
without a choice no key promotes a candidate. -/
theorem choice_by_key (config : Config) (patience : Nat) (registry : Registry) :
    (∀ (escapeFrom : Deadline) (scan : UInt8) (position : Nat) (state : Recorded σ),
      (reply escapeFrom registry.candidates.length scan state).1 = .choose position ↔
        ScanCode.Picks registry.candidates.length scan position) ∧
    ∀ (before after : Recorded σ) (session : Session), run config patience registry before = some (session, after) →
      let shown := registry.promote (decision before).position
      (session.operatorChoice = false → session.registry = shown) ∧
      (session.operatorChoice = true → ∃ earlier scan, after.heard = before.heard ++ earlier ++ [scan] ∧
        ScanCode.Picks registry.candidates.length scan session.selection ∧
        (ScanCode.number? scan = some session.selection ↔ session.selection ≤ 9) ∧
        session.registry = shown.promote session.selection) := by
  refine ⟨fun _ _ _ _ => reply_picks_iff, fun before after session ran => ?_⟩
  have ends := (run_finishes ran).1
  refine ⟨fun own => ?_, fun chosen => ?_⟩
  · cases ends with
    | kept splashShown restarted => rfl
    | chosen listed splashShown restarted => cases own
  · obtain ⟨splashShown, opened, left, opens, lists, rfl⟩ := run_chooses ran chosen
    rcases deviceList_picks lists with rfl | ⟨earlier, scan, told, picks⟩
    · cases chosen
    · have opened := untilKey_keeps continues_spares.waits continues_registers config patience registry
        (List.Subset.refl _) _ _ _ opens
      obtain ⟨more, heard⟩ := heard_of_extends opened
      have closes := heard_of_told ((told_finish session left).trans (List.append_assoc _ _ _))
      have counted : ScanCode.Picks registry.candidates.length scan session.selection := by
        rwa [← registry.length_promote]
      refine ⟨more ++ earlier, scan, ?_, counted, counted.numbered_iff, ?_⟩
      · rw [closes, told, heard]
        split <;> simp [Call.heard?]
      · cases ends with
        | kept splashShown restarted => cases chosen
        | chosen listed splashShown restarted => rfl

section

open Scripted

/-- Disks that look alike, more than there are digit keys. -/
def tenDisks : Registry where
  candidates := List.replicate 10
    { kind := .hardDisk, priority := 103, payload := .drive ⟨0, 0x80, 0⟩, description := "AHCI/0" }

/-- The menu is opened and the first key after it makes the choice. -/
def listBoard (scan : UInt8) : Recorded Board :=
  { platform := { keys := [⟨50, 0x86⟩, ⟨100, scan⟩] } }

theorem choice_by_key_ninth :
    ∃ (session : Session) (after : Recorded Board),
      run {} 20 tenDisks (listBoard 0x43) = some (session, after) ∧ session.operatorChoice = true ∧
      session.selection = 9 ∧ ∃ earlier scan, after.heard = (listBoard 0x43).heard ++ earlier ++ [scan] ∧
        ScanCode.number? scan = some 9 := by
  have told : (run {} 20 tenDisks (listBoard 0x43)).map (fun (session, _) =>
      (session.operatorChoice, session.selection)) = some (true, 9) := by
    decide +kernel
  obtain ⟨⟨session, after⟩, ran, same⟩ := Option.map_eq_some_iff.mp told
  obtain ⟨chosen, selected⟩ := Prod.mk.inj same
  obtain ⟨-, picked⟩ := (choice_by_key {} 20 tenDisks).2 _ _ _ ran
  obtain ⟨earlier, scan, heard, -, numbered, -⟩ := picked chosen
  exact ⟨session, after, ran, chosen, selected, earlier, scan, heard, selected ▸ numbered.mpr (by omega)⟩

/-- On a list of ten the key behind the ninth digit key chooses, though there is no number from 1 to 9
on it. -/
theorem tenth_picked_without_number :
    ¬∀ (config : Config) (patience : Nat) (registry : Registry) (before after : Recorded Board) (session : Session),
      run config patience registry before = some (session, after) → session.operatorChoice = true →
      ∃ earlier scan, after.heard = before.heard ++ earlier ++ [scan] ∧
        ScanCode.number? scan = some session.selection := by
  intro always
  have told : (run {} 20 tenDisks (listBoard 0x0b)).map (fun (session, after) =>
      (session.operatorChoice, after.heard.getLast?)) = some (true, some 0x0b) := by
    decide +kernel
  obtain ⟨⟨session, after⟩, ran, same⟩ := Option.map_eq_some_iff.mp told
  obtain ⟨chosen, last⟩ := Prod.mk.inj same
  obtain ⟨earlier, scan, heard, numbered⟩ := always _ _ _ _ _ _ ran chosen
  rw [heard, List.getLast?_concat, Option.some.injEq] at last
  have unnumbered : ScanCode.number? 0x0b = none := by decide
  rw [last, unnumbered] at numbered
  cases numbered

end

end Menu

end BootFlow
