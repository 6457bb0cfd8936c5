import BootFlow.Proofs.Boot.Front
import BootFlow.Proofs.Menu.Calls
import BootFlow.Proofs.Menu.Rounds
import BootFlow.Proofs.Menu.Handover
import BootFlow.Proofs.Menu.Stages

namespace BootFlow

open Clock Console DriveMapper Keyboard Launcher Logging Machine Recorded Registers Text Waiting

/-! The number that the device list prints beside a candidate is the position that chooses it.
What was chosen stands in front when the menu is over, and so it boots first. -/

namespace Menu

/-- A line of the device list. -/
def menuLine (position : Nat) (candidate : Candidate) : String :=
  decimal position ++ ". " ++ describe candidate.description ++ "\n"

/-- What an operator is shown to choose from: the candidates with their positions, and the keys
that choose one. -/
def deviceScreen (candidates : List Candidate) : List Call :=
  let count := decimal candidates.length
  .clear :: .print "Select boot device:\n\n" ::
    (candidates.zipIdx 1).map (fun (candidate, position) => .print (menuLine position candidate)) ++
      [.status ("Hit 1 - " ++ count ++ " or F1 - F" ++ count ++ " to boot or ESC to continue")]

theorem print_mem_deviceScreen {candidates : List Candidate} {index : Nat} {candidate : Candidate}
    (listed : candidates[index]? = some candidate) :
    .print (menuLine (index + 1) candidate) ∈ deviceScreen candidates := by
  have numbered : (candidate, index + 1) ∈ candidates.zipIdx 1 := by
    rw [List.mk_mem_zipIdx_iff_le_and_getElem?_sub]
    exact ⟨Nat.le_add_left _ _, listed⟩
  refine List.mem_append_left _ (List.mem_cons_of_mem _ (List.mem_cons_of_mem _ ?_))
  exact List.mem_map.mpr ⟨_, numbered, rfl⟩

variable {σ τ : Type} [Timeline σ]

theorem calls_printCandidates [Console σ] (position : Nat) (candidates : List Candidate) (before : Recorded σ) :
    (printCandidates "" position candidates before).2.calls = before.calls ++
      (candidates.zipIdx position).map fun (candidate, position) => .print (menuLine position candidate) := by
  induction candidates generalizing position before with
  | nil => exact (List.append_nil _).symm
  | cons candidate others ih =>
      simp only [printCandidates, Action.bind_apply]
      rw [ih, calls_print, List.append_assoc, String.empty_append]
      rfl

theorem calls_showDevices [Clock σ] [Console σ] [Logging σ] (config : Config) (session : Session)
    (before : Recorded σ) :
    ∃ asked, (showDevices config session before).2.calls =
      before.calls ++ deviceScreen session.registry.candidates ++ asked := by
  let cleared := (clear before).2
  let titled := (print "Select boot device:\n\n" cleared).2
  let listed := (printCandidates "" 1 session.registry.candidates titled).2
  let count := decimal session.registry.candidates.length
  let prompted := (status ("Hit 1 - " ++ count ++ " or F1 - F" ++ count ++ " to boot or ESC to continue") listed).2
  let logged := (emit .info ("Hit 1 - " ++ count ++ " to boot or ENTER to continue") prompted).2
  have shown : logged.calls = before.calls ++ deviceScreen session.registry.candidates := by
    rw [calls_emit, calls_status, calls_printCandidates, calls_print, calls_clear]
    simp only [deviceScreen, List.append_assoc, List.cons_append, List.nil_append, count]
  exact ⟨[.readClock (now logged).1], by rw [← shown]; exact calls_now logged⟩

section

variable [Keyboard σ] [Clock σ] [Console σ] [Machine σ] [Logging σ]
  {config : Config} {patience : Nat} {before after : Recorded σ}

theorem deviceList_shows {session chosen : Session}
    (ended : deviceList config patience session before = some (chosen, after)) :
    ∃ front back, after.calls = before.calls ++ front ++ deviceScreen session.registry.candidates ++ back := by
  obtain ⟨drained, left, drains, awaited, rfl⟩ := deviceList_parts ended
  obtain ⟨front, toDrained, _⟩ := drain_keeps continues_spares.waits patience _ _ _ drains
  obtain ⟨asked, toShown⟩ := calls_showDevices config session drained
  -- From here on calls are only added.
  have output : SparesOutput (σ := Recorded σ) Continues := continues_spares.toSparesOutput
  have moves : Continues (showDevices config session drained).2 _ := move_keeps output .deviceList .awaitSelection _
  have awaits := awaitSelection_keeps continues_spares.waits _ _ _ _ _ _ _ _ awaited
  have leaves := leave_keeps output .awaitSelection chosen left
  obtain ⟨more, toEnd, _⟩ := IsTrans.trans _ _ _ moves (IsTrans.trans _ _ _ awaits leaves)
  exact ⟨front, asked ++ more, by rw [toEnd, toShown, toDrained, List.append_assoc _ asked]⟩

variable [Registers σ] {registry : Registry} {session : Session}

/-- A choice is a position on the device list that was shown, and the candidate there comes to
the front. -/
theorem run_promotes (ran : run config patience registry before = some (session, after))
    (chosen : session.operatorChoice = true) :
    let shown := registry.promote (decision before).position
    (1 ≤ session.selection ∧ session.selection ≤ registry.candidates.length) ∧
    session.registry = shown.promote session.selection ∧
    ∃ front back, after.calls = before.calls ++ front ++ deviceScreen shown.candidates ++ back := by
  obtain ⟨splashShown, opened, left, opens, lists, rfl⟩ := run_chooses ran chosen
  obtain ⟨offers, toOpened, _⟩ := untilKey_keeps continues_spares.waits continues_registers config patience registry
    (List.Subset.refl _) _ _ _ opens
  obtain ⟨front, back, toLeft⟩ := deviceList_shows lists
  obtain ⟨closing, toEnd, _⟩ := finish_keeps continues_registers continues_spares.hides session (by decide)
    (fun _ => by decide) left
  have shows : ∃ front back, (finish session left).2.calls =
      before.calls ++ front ++ deviceScreen (registry.promote (decision before).position).candidates ++ back :=
    ⟨offers ++ front, back ++ closing, by
      rw [toEnd, toLeft, toOpened]
      simp only [List.append_assoc]
      rfl⟩
  have ends := deviceList_answers _ _ _ _ _ _ lists
  cases ends with
  | kept => cases chosen
  | chosen listed =>
      change _ ∧ _ ≤ (registry.promote (decision before).position).candidates.length at listed
      rw [registry.length_promote] at listed
      exact ⟨listed, rfl, shows⟩

variable [Timeline τ] [Registers τ] [Clock τ] [AdvancingClock τ] [Console τ] [Machine τ] [DriveMapper τ]
  [Launcher τ] [Logging τ]

/-- An operator's choice boots first, whatever the boot order says of a stop mark and whatever
ids the mapper gives: the candidate that the device list showed with this number is in front
with priority zero, ahead of the others as they were shown, and if it fits its kind it is mapped,
listed and tried before them. -/
theorem choice_boots_first (ran : run config patience registry before = some (session, after))
    (chosen : session.operatorChoice = true) (order : BootOrder) (cycleConfig : Config) (mapper : Recorded τ) :
    let shown := (registry.promote (decision before).position).candidates
    1 ≤ session.selection ∧ session.selection ≤ registry.candidates.length ∧
    ∃ (candidate : Candidate) (front back : List Call),
      shown[session.selection - 1]? = some candidate ∧
      after.calls = before.calls ++ front ++ deviceScreen shown ++ back ∧
      .print (menuLine session.selection candidate) ∈ deviceScreen shown ∧
      session.registry.candidates = candidate.promoted :: shown.eraseIdx (session.selection - 1) ∧
      (candidate.fits →
        let flattened := session.registry.flatten order mapper
        let cycle := Cycle.ofConfig flattened.1.2 cycleConfig
        ∃ (id : UInt32) (entry : Entry) (rest : List Call) (ended : Recorded τ) (trace : List Call),
          candidate.entryFor id = some entry ∧
          flattened.2.calls = mapper.calls ++ (candidate.mappingCall? id).toList ++ rest ∧
          flattened.1.2.entries.head? = some entry ∧
          Settles cycle.runUntilHandoff flattened.2 (.sequenceExhausted, flattened.1.2.stop) ended ∧
          ended.calls = flattened.2.calls ++ trace ∧
          (trace.filter Call.isAttempt).head? = cycle.attemptCall? entry) := by
  intro shown
  obtain ⟨⟨positive, inside⟩, promotes, front, back, shows⟩ := run_promotes ran chosen
  -- The positions on the screen are counted from one, those of the list from zero.
  obtain ⟨index, selected⟩ := Nat.exists_eq_add_of_le' positive
  have bound : index < shown.length := by
    rw [registry.length_promote]
    omega
  have found : shown[index]? = some shown[index] := List.getElem?_eq_getElem bound
  have promoted : session.registry.candidates = shown[index].promoted :: shown.eraseIdx index := by
    rw [promotes, selected]
    exact Registry.candidates_promote_of_getElem? found
  rw [selected, Nat.add_sub_cancel]
  refine ⟨Nat.le_add_left _ _, selected ▸ inside, shown[index], front, back, found, shows,
    print_mem_deviceScreen found, promoted, fun fits => ?_⟩
  obtain ⟨id, entry, rest, own, mapped, first⟩ :=
    Registry.flatten_first (by rw [Registry.first?, promoted]; rfl) fits order mapper
  let cycle := Cycle.ofConfig (session.registry.flatten order mapper).1.2 cycleConfig
  obtain ⟨ended, settles⟩ := cycle.runUntilHandoff_settles (session.registry.flatten order mapper).2
  obtain ⟨_, exhausts⟩ := settles.ends
  obtain ⟨trace, continued, told⟩ := Cycle.runUntilHandoff_trace exhausts
  refine ⟨id, entry, rest, ended, trace, own, mapped, first, settles, continued, ?_⟩
  rw [Cycle.attempts_of_milestones told]
  exact cycle.head?_attempts first

open Scripted in
/-- Number two is the first disk, for recovery had moved the second to the front. It boots first
although the boot order stops everything. -/
theorem choice_boots_first_moved :
    let before : Recorded Board := { platform := failingBoard 0x22 [⟨50, 0x86⟩, ⟨100, 0x03⟩] }
    let order : BootOrder := { entries := ["HALT"] }
    let mapper : Recorded Board := { platform := {} }
    let shown := (threeDisks.promote (decision before).position).candidates
    shown.map (·.description) = ["AHCI/1", "AHCI/0", "AHCI/2"] ∧
    ∃ (session : Session) (after : Recorded Board),
      run {} 20 threeDisks before = some (session, after) ∧ session.operatorChoice = true ∧
      session.selection = 2 ∧
      session.registry.candidates.map (·.description) = ["AHCI/0", "AHCI/1", "AHCI/2"] ∧
      let flattened := session.registry.flatten order mapper
      let cycle := Cycle.ofConfig flattened.1.2 {}
      ∃ (id : UInt32) (ended : Recorded Board) (trace : List Call),
        flattened.1.2.entries.head? = some (.hardDisk id) ∧
        Settles cycle.runUntilHandoff flattened.2 (.sequenceExhausted, flattened.1.2.stop) ended ∧
        ended.calls = flattened.2.calls ++ trace ∧
        (trace.filter Call.isAttempt).head? = some (.bootHardDisk id) := by
  intro before order mapper shown
  have listed : shown.map (·.description) = ["AHCI/1", "AHCI/0", "AHCI/2"] := by decide +kernel
  have told : (run {} 20 threeDisks before).map (fun (session, _) => (session.operatorChoice, session.selection)) =
      some (true, 2) := by
    decide +kernel
  obtain ⟨⟨session, after⟩, ran, same⟩ := Option.map_eq_some_iff.mp told
  obtain ⟨chosen, selected⟩ := Prod.mk.inj same
  obtain ⟨_, _, candidate, _, _, found, _, _, promoted, boots⟩ :=
    choice_boots_first ran chosen order {} mapper
  rw [selected] at found promoted
  have second : some candidate = threeDisks.candidates[0]? := found.symm.trans (by decide +kernel)
  obtain rfl := Option.some.inj second
  obtain ⟨id, entry, _, ended, trace, own, _, first, settles, continued, attempts⟩ := boots (by decide +kernel)
  obtain rfl := Option.some.inj own
  refine ⟨listed, session, after, ran, chosen, selected, ?_, id, ended, trace, first, settles, continued, attempts⟩
  rw [promoted]
  decide +kernel

end

end Menu

end BootFlow
