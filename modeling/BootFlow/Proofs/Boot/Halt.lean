import BootFlow.Boot
import BootFlow.Proofs.Cycle.Handoff
import BootFlow.Proofs.Menu.Calls
import BootFlow.Proofs.Menu.Selection
import BootFlow.Scripted.Board

namespace BootFlow

open Clock Console DriveMapper Keyboard Launcher Logging Machine Recorded Registers Waiting

/-! Recovery puts the candidate that it selects in front before the stop mark
has its place. So the mark stops every candidate behind its rank but that one. -/

/-- What is mapped does not depend on priorities. -/
theorem Mapping.reprioritized {mapping : Mapping} {candidate : Candidate} {priority : Int}
    {others : List Candidate}
    (listed : mapping.map Prod.fst = { candidate with priority } :: others) :
    ∃ restored : Mapping, restored.map Prod.fst = candidate :: others ∧
      restored.entries = mapping.entries ∧ restored.calls = mapping.calls := by
  obtain ⟨⟨_, id⟩, rest, rfl, rfl, rfl⟩ := List.map_eq_cons_iff.mp listed
  refine ⟨(candidate, id) :: rest, rfl, ?_, ?_⟩
  · rw [entries_cons, entries_cons]
    rfl
  · rw [calls_cons, calls_cons]
    rfl

namespace Registry

variable {registry : Registry} {order : BootOrder} {rank : Nat}

/-- The candidates that boot before a stop mark at a rank where recovery selected
the first one. -/
def unstopped (registry : Registry) (rank : Int) : List Candidate :=
  registry.first?.toList ++ registry.candidates.tail.filter (·.priority ≤ rank)

theorem mem_of_mem_unstopped {candidate : Candidate} {rank : Int}
    (member : candidate ∈ registry.unstopped rank) : candidate ∈ registry.candidates := by
  rcases List.mem_append.mp member with front | behind
  · exact List.mem_of_mem_head? (Option.mem_toList.mp front)
  · exact List.mem_of_mem_tail (List.mem_filter.mp behind).1

theorem placed_of_bootable (halts : order.haltRank? = some rank)
    (parted : PartedAt rank registry.candidates)
    (bootable : ∀ candidate ∈ registry.candidates, candidate.kind ≠ .halt) :
    (registry.placed order).candidates =
      registry.candidates.filter (·.priority ≤ (rank : Int)) ++
        .halt rank :: registry.candidates.filter ((rank : Int) < ·.priority) := by
  have unmarked : registry.has .halt = false := by
    refine List.any_eq_false.mpr fun candidate member => ?_
    simpa using bootable candidate member
  simp only [placed, halts, withHalt, unmarked, Bool.false_eq_true, reduceIte]
  exact Candidate.halt_insertInto parted bootable

theorem promote_one {first : Candidate} {others : List Candidate}
    (listed : registry.candidates = first :: others) :
    (registry.promote 1).candidates = { first with priority := 0 } :: others := by
  simp [promote, at?, listed]

/-- The mark goes where the priorities put it, but the promoted candidate has
lost its own. -/
theorem mapping_placed_promote {mapping : Mapping} (halts : order.haltRank? = some rank)
    (ranked : Ranked registry.candidates)
    (registered : ∀ candidate ∈ registry.candidates, 1 ≤ candidate.priority ∧ candidate.kind ≠ .halt)
    (listed : mapping.map Prod.fst = ((registry.promote 1).placed order).candidates) :
    ∃ restored : Mapping, restored.entries = mapping.entries ∧ restored.calls = mapping.calls ∧
      restored.map Prod.fst = registry.unstopped rank ++
        .halt rank :: registry.candidates.tail.filter ((rank : Int) < ·.priority) := by
  cases candidates : registry.candidates with
  | nil =>
      have unchanged : registry.promote 1 = registry := by simp [promote, at?, candidates]
      rw [unchanged, placed_of_bootable halts (ranked.partedAt rank) fun candidate member =>
        (registered candidate member).2, candidates] at listed
      exact ⟨mapping, rfl, rfl, by simpa [unstopped, first?, candidates] using listed⟩
  | cons first others =>
      rw [candidates] at ranked registered
      have promoted := promote_one candidates
      obtain ⟨_, othersRanked⟩ := List.pairwise_cons.mp ranked
      -- Zero is below all registered priorities, so the order holds although the
      -- promoted candidate's own priority is gone.
      have promotedRanked : Ranked (registry.promote 1).candidates := by
        rw [promoted]
        refine List.pairwise_cons.mpr ⟨fun candidate member => ?_, othersRanked⟩
        have positive := (registered candidate (List.mem_cons_of_mem _ member)).1
        change 0 ≤ candidate.priority
        omega
      have promotedBootable : ∀ candidate ∈ (registry.promote 1).candidates, candidate.kind ≠ .halt := by
        rw [promoted]
        intro candidate member
        rcases List.mem_cons.mp member with rfl | other
        · exact (registered first (List.mem_cons_self ..)).2
        · exact (registered candidate (List.mem_cons_of_mem _ other)).2
      rw [placed_of_bootable halts (promotedRanked.partedAt rank) promotedBootable, promoted,
        List.filter_cons_of_pos (by simp), List.filter_cons_of_neg (by simp), List.cons_append] at listed
      obtain ⟨restored, relisted, entries, calls⟩ := Mapping.reprioritized listed
      refine ⟨restored, entries, calls, ?_⟩
      rw [relisted, unstopped, first?, candidates]
      rfl

/-- The first candidate is tried whatever its priority is, and no other one
behind the mark. -/
theorem tried_le_iff (registry : Registry) (rank : Int) :
    (∀ candidate ∈ (keepFirst (·.kind == .floppy) ((registry.unstopped rank).filter
        Candidate.fits)).take 20, candidate.priority ≤ rank) ↔
      ∀ first, registry.first? = some first → first.fits → first.priority ≤ rank := by
  constructor
  · intro below first found fits
    refine below first ?_
    rw [unstopped, found, Option.toList_some, List.singleton_append, List.filter_cons_of_pos fits]
    obtain ⟨rest, kept⟩ := keepFirst_cons (·.kind == .floppy) first
      ((registry.candidates.tail.filter (·.priority ≤ rank)).filter Candidate.fits)
    rw [kept]
    exact List.mem_cons_self ..
  · intro below candidate member
    have kept := (keepFirst_sublist _ _).subset (List.mem_of_mem_take member)
    obtain ⟨listed, fits⟩ := List.mem_filter.mp kept
    rcases List.mem_append.mp listed with front | behind
    · exact below candidate (Option.mem_toList.mp front) fits
    · simpa using (List.mem_filter.mp behind).2

end Registry

namespace Boot

/-- Where recovery keeps the configured order, the first candidate is selected. -/
theorem session_registry {σ : Type} [Registers σ] [Logging σ] {registry : Registry} {state : σ}
    {session : Menu.Session}
    (ends : (Menu.recovered registry (Menu.decision state)).Ends session)
    (kept : session.rule ∈
      [some Recovery.Rule.noPayloadAttempt, some .osReached, some .notRecoverable]) :
    session.registry = registry.promote 1 := by
  cases ends with
  | chosen => simp at kept
  | kept =>
      have position : (Menu.decision state).position = 1 := by
        simp only [Menu.recovered, Menu.decision, Recovery.Decision.ofState] at kept ⊢
        generalize Recovery.Rule.ofState _ = rule at kept ⊢
        cases rule <;> simp at kept <;> rfl
      exact congrArg registry.promote position

variable {σ : Type} [Timeline σ]
  [Registers σ] [Keyboard σ] [Clock σ] [Console σ] [Machine σ] [DriveMapper σ] [Launcher σ]
  [Logging σ]
  {config : Config} {order : BootOrder} {patience : Nat} {registry : Registry} {boot : Boot}
  {before after : Recorded σ}

/-- A boot that comes to its end has attempted what the cycle of its sequence
does, and nothing in the menu or while drives were mapped. -/
theorem run_attempts (ran : Boot.run config order patience registry before = some (boot, after)) :
    (∃ left, Menu.run config patience registry before = some (boot.session, left)) ∧
    ∃ (mapping : Mapping) (trace : List Call),
      mapping.map Prod.fst = (boot.session.registry.placed order).candidates ∧
      boot.sequence = (mapping.entries.foldl Sequence.push {}).withFallbacks ∧
      after.calls = before.calls ++ trace ∧
      (∀ call ∈ mapping.calls, call ∈ trace) ∧
      trace.filter Call.isAttempt =
        boot.sequence.tried.filterMap (Cycle.ofConfig boot.sequence config).attemptCall? := by
  obtain ⟨session, left, chosen, flattens⟩ := bind_eq_some.mp ran
  obtain ⟨⟨flattened, sequence⟩, mapped, maps, cycles⟩ := bind_eq_some.mp flattens
  obtain ⟨⟨error, cursor⟩, ended, exhausts, answered⟩ := bind_eq_some.mp cycles
  cases answered
  have flat : session.registry.flatten order left = ((flattened, sequence), mapped) :=
    Option.some.inj maps
  obtain ⟨_, mapping, listed, sequenced, mappedCalls⟩ := session.registry.flatten_apply order left
  rw [flat] at sequenced mappedCalls
  obtain ⟨menuTrace, toLeft, inMenu⟩ := Menu.run_continues config patience registry _ _ _ chosen
  obtain ⟨cycleTrace, toEnd, told⟩ := Cycle.runUntilHandoff_trace exhausts
  refine ⟨⟨left, chosen⟩, mapping, menuTrace ++ mapping.calls ++ cycleTrace, listed, sequenced, ?_, ?_, ?_⟩
  · rw [toEnd, mappedCalls, toLeft]
    simp only [List.append_assoc]
  · intro call member
    exact List.mem_append_left _ (List.mem_append_right _ member)
  · have quietMenu : menuTrace.filter Call.isAttempt = [] := by
      refine List.filter_eq_nil_iff.mpr fun call member => ?_
      rw [Call.isAttempt_of_inMenu (inMenu call member)]
      simp
    have quietMapping : mapping.calls.filter Call.isAttempt = [] := by
      refine List.filter_eq_nil_iff.mpr fun call member => ?_
      obtain ⟨⟨candidate, id⟩, _, maps⟩ := List.mem_filterMap.mp member
      rw [candidate.isAttempt_mappingCall? maps]
      simp
    rw [List.filter_append, List.filter_append, quietMenu, quietMapping, Cycle.attempts_of_milestones told]
    rfl

/-- A boot that nobody attends stops at the mark. Before it goes every candidate
up to the mark's rank, and whatever candidate is the first. -/
theorem attempts_up_to_halt {defaults : Defaults} {registered : List Candidate} {rank : Nat}
    (wellRanked : ∀ candidate ∈ registered, 1 ≤ candidate.priority ∧ candidate.kind ≠ .halt)
    (halts : order.haltRank? = some rank)
    (ran : Boot.run config order patience (registered.foldl Registry.insert { defaults }) before =
      some (boot, after))
    (kept : boot.session.rule ∈
      [some Recovery.Rule.noPayloadAttempt, some .osReached, some .notRecoverable]) :
    let registry := registered.foldl Registry.insert { defaults }
    let cycle := Cycle.ofConfig boot.sequence config
    ∃ (tried : Mapping) (trace : List Call),
      after.calls = before.calls ++ trace ∧
      (∀ pair ∈ tried, ∀ call, pair.1.mappingCall? pair.2 = some call → call ∈ trace) ∧
      trace.filter Call.isAttempt = tried.entries.filterMap cycle.attemptCall? ∧
      tried.map Prod.fst =
        (keepFirst (·.kind == .floppy) ((registry.unstopped rank).filter Candidate.fits)).take 20 ∧
      ((∀ pair ∈ tried, pair.1.priority ≤ rank) ↔
        ∀ first, registry.first? = some first → first.fits → first.priority ≤ rank) := by
  intro registry cycle
  have ranked : Ranked registry.candidates := Registry.foldl_insert_ranked registered .nil
  have members : ∀ candidate ∈ registry.candidates, 1 ≤ candidate.priority ∧ candidate.kind ≠ .halt := by
    intro candidate member
    have listed := (Registry.foldl_insert_perm { defaults } registered).mem_iff.mp member
    rw [List.append_nil] at listed
    exact wellRanked candidate listed
  obtain ⟨⟨_, chosen⟩, mapping, trace, listed, sequenced, continued, mapped, attempts⟩ := run_attempts ran
  rw [session_registry (Menu.run_finishes chosen).1 kept] at listed
  obtain ⟨restored, entries, calls, parted⟩ :=
    Registry.mapping_placed_promote halts ranked members listed
  obtain ⟨passed, marked, rfl, passedListed, markedListed⟩ := List.map_eq_append_iff.mp parted
  obtain ⟨⟨_, id⟩, behind, rfl, rfl, _⟩ := List.map_eq_cons_iff.mp markedListed
  let tried : Mapping :=
    (keepFirst (·.1.kind == .floppy) (passed.filter (·.1.fits))).take Sequence.capacity
  have triedListed : tried.map Prod.fst =
      (keepFirst (·.kind == .floppy) ((registry.unstopped rank).filter Candidate.fits)).take 20 := by
    rw [← passedListed, List.filter_map, keepFirst_map, ← List.map_take]
    rfl
  have triedEntries : boot.sequence.tried = tried.entries := by
    have bootable : ∀ pair ∈ passed, pair.1.kind ≠ .halt := by
      intro pair member
      have kept : pair.1 ∈ registry.unstopped rank := passedListed ▸ List.mem_map_of_mem member
      exact (members pair.1 (Registry.mem_of_mem_unstopped kept)).2
    rw [sequenced, ← entries, Mapping.tried_marked rank id bootable]
  have triedPassed : ∀ pair ∈ tried, pair ∈ passed := fun pair member =>
    (List.mem_filter.mp ((keepFirst_sublist _ _).subset (List.mem_of_mem_take member))).1
  refine ⟨tried, trace, continued, ?_, ?_, triedListed, ?_⟩
  · intro pair member call maps
    refine mapped call ?_
    rw [← calls]
    exact List.mem_filterMap.mpr ⟨pair, List.mem_append_left _ (triedPassed pair member), maps⟩
  · rw [attempts, triedEntries]
  · rw [← Registry.tried_le_iff, ← triedListed, List.forall_mem_map]

theorem attempts_up_to_halt_floppy :
    let drive : Drive := { handle := 1, driveType := 0x10, controller := 0 }
    let floppy : Candidate :=
      { kind := .floppy, priority := 1, payload := .drive drive, description := "Floppy" }
    let disk : Candidate :=
      { kind := .hardDisk, priority := 3, payload := .drive drive, description := "AHCI/0: Disk" }
    let order : BootOrder := { entries := ["/rom@img/first", "HALT", "/rom@img/last"] }
    let before : Recorded Scripted.Board := { platform := {} }
    ∃ (boot : Boot) (after : Recorded Scripted.Board) (tried : Mapping),
      Boot.run { menuEnabled := false, retry := .never } order 1
        ([disk, floppy].foldl Registry.insert {}) before = some (boot, after) ∧
      tried.map Prod.fst = [floppy] ∧
      after.calls.filter Call.isAttempt =
        tried.entries.filterMap (Cycle.ofConfig boot.sequence {}).attemptCall? := by
  intro drive floppy disk order before
  let config : Config := { menuEnabled := false, retry := .never }
  let registry := [disk, floppy].foldl Registry.insert {}
  have kept : (Boot.run config order 1 registry before).map (·.1.session.rule) =
      some (some .noPayloadAttempt) := by decide +kernel
  obtain ⟨⟨boot, after⟩, ran, rule⟩ := Option.map_eq_some_iff.mp kept
  have halts : order.haltRank? = some 2 := by decide +kernel
  have wellRanked : ∀ candidate ∈ [disk, floppy], 1 ≤ candidate.priority ∧ candidate.kind ≠ .halt := by
    decide
  obtain ⟨tried, trace, continued, _, attempts, listed, _⟩ :=
    attempts_up_to_halt wellRanked halts ran (by rw [rule]; decide)
  refine ⟨boot, after, tried, ran, listed.trans (by decide), ?_⟩
  rw [continued]
  exact attempts

/-- A candidate far behind the mark boots before it, for it is the first. -/
theorem attempts_behind_halt :
    let drive : Drive := { handle := 1, driveType := 0x80, controller := 0 }
    let disk : Candidate :=
      { kind := .hardDisk, priority := 103, payload := .drive drive, description := "AHCI/0: Disk" }
    let order : BootOrder := { entries := ["HALT"] }
    let before : Recorded Scripted.Board := { platform := {} }
    order.haltRank? = some 1 ∧
      ∃ (boot : Boot) (after : Recorded Scripted.Board),
        Boot.run { menuEnabled := false, retry := .never } order 1 (Registry.insert {} disk) before =
          some (boot, after) ∧
        boot.session.rule = some .noPayloadAttempt ∧
        boot.session.restarted = false ∧
        .mapHardDisk drive 0 ∈ after.calls ∧
        after.calls.filter Call.isAttempt = [.bootHardDisk 0] := by
  intro drive disk order before
  let config : Config := { menuEnabled := false, retry := .never }
  have told : (Boot.run config order 1 (Registry.insert {} disk) before).map (fun (boot, after) =>
      (boot.session.rule, boot.session.restarted, decide (.mapHardDisk drive 0 ∈ after.calls),
        after.calls.filter Call.isAttempt)) =
      some (some .noPayloadAttempt, false, true, [.bootHardDisk 0]) := by decide +kernel
  obtain ⟨⟨boot, after⟩, ran, same⟩ := Option.map_eq_some_iff.mp told
  simp only [Prod.mk.injEq, decide_eq_true_iff] at same
  exact ⟨by decide +kernel, boot, after, ran, same⟩

end Boot

end BootFlow
