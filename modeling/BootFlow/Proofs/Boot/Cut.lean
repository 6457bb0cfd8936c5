import BootFlow.Proofs.Boot.Halt
import BootFlow.Proofs.Registry.History

namespace BootFlow

open Clock Console DriveMapper Launcher Logging Machine Recorded Registers Waiting

/-! Whatever was registered and promoted, the candidates up to the rank of the stop
mark stand before the others. So the mark cuts the sequence exactly there, even
where there was no room for the mark itself. -/

namespace Registry

/-- A stop mark of this rank has one place: behind all up to its rank, before all others. -/
structure Markable (rank : Int) (registry : Registry) : Prop where
  parted : PartedAt rank registry.candidates
  bootable : ∀ candidate ∈ registry.candidates, candidate.kind ≠ .halt

variable {registry : Registry} {rank : Int}

theorem Markable.insert (markable : registry.Markable rank) {candidate : Candidate}
    (bootable : candidate.kind ≠ .halt) : (registry.insert candidate).Markable rank := by
  refine ⟨candidate.insertInto_partedAt markable.parted, ?_⟩
  intro other member
  rcases Candidate.mem_insertInto.mp member with rfl | earlier
  · exact bootable
  · exact markable.bootable other earlier

theorem Markable.promote (markable : registry.Markable rank) (positive : 0 ≤ rank) (position : Nat) :
    (registry.promote position).Markable rank := by
  unfold Registry.promote
  cases found : registry.at? position with
  | none => exact markable
  | some candidate =>
      have others : (registry.candidates.eraseIdx (position - 1)).Sublist registry.candidates :=
        List.eraseIdx_sublist ..
      have member : candidate ∈ registry.candidates := by
        cases position with
        | zero => cases found
        | succ index => exact List.mem_of_getElem? found
      constructor
      · -- Priority zero is up to every rank.
        refine List.pairwise_cons.mpr ⟨fun _ _ _ => positive, ?_⟩
        exact markable.parted.sublist others
      · intro other listed
        rcases List.mem_cons.mp listed with rfl | behind
        · exact markable.bootable candidate member
        · exact markable.bootable other (others.subset behind)

theorem markable_foldl_operate {operations : List Operation} (defaults : Defaults) (positive : 0 ≤ rank)
    (bootable : ∀ candidate ∈ operations.filterMap Operation.registered?, candidate.kind ≠ .halt) :
    (operations.foldl operate { defaults }).Markable rank := by
  induction operations using List.reverseRecOn with
  | nil => exact ⟨.nil, by simp⟩
  | append_singleton earlier last ih =>
      rw [List.filterMap_append] at bootable
      have markable := ih fun candidate member => bootable candidate (List.mem_append_left _ member)
      rw [List.foldl_append, List.foldl_cons, List.foldl_nil]
      cases last with
      | register candidate => exact markable.insert (bootable candidate (by simp [Operation.registered?]))
      | promote position => exact markable.promote positive position

/-- The candidates up to the rank are mapped before the others, and what they give is
all that is tried. -/
theorem flatten_markable {σ : Type} [Timeline σ] [DriveMapper σ] [Logging σ] {order : BootOrder}
    {rank : Nat} (halts : order.haltRank? = some rank) (markable : registry.Markable rank)
    (before : Recorded σ) :
    ∃ passed behind : Mapping,
      passed.map Prod.fst = registry.candidates.filter (·.priority ≤ (rank : Int)) ∧
      behind.map Prod.fst = registry.candidates.filter ((rank : Int) < ·.priority) ∧
      (registry.flatten order before).2.calls = before.calls ++ passed.calls ++ behind.calls ∧
      (registry.flatten order before).1.2.tried = (keepFirst Entry.isFloppy passed.entries).take 20 := by
  obtain ⟨_, mapping, listed, sequenced, mapped⟩ := registry.flatten_apply order before
  rw [placed_of_bootable halts markable.parted markable.bootable] at listed
  obtain ⟨passed, marked, rfl, passedListed, markedListed⟩ := List.map_eq_append_iff.mp listed
  obtain ⟨⟨_, id⟩, behind, rfl, rfl, behindListed⟩ := List.map_eq_cons_iff.mp markedListed
  refine ⟨passed, behind, passedListed, behindListed, ?_, ?_⟩
  · have unmapped : Mapping.calls (passed ++ (.halt rank, id) :: behind) =
        Mapping.calls passed ++ Mapping.calls behind := by
      rw [Mapping.calls, List.filterMap_append]
      rfl
    rw [mapped, unmapped, List.append_assoc]
  · have bootable : ∀ pair ∈ passed, pair.1.kind ≠ .halt := by
      intro pair member
      have upTo : pair.1 ∈ registry.candidates.filter (·.priority ≤ (rank : Int)) :=
        passedListed ▸ List.mem_map_of_mem member
      exact markable.bootable pair.1 (List.mem_filter.mp upTo).1
    rw [sequenced, Mapping.entries_marked,
      Sequence.tried_withFallbacks _ _ (Mapping.bootable_entries bootable)]
    rfl

end Registry

namespace Boot

variable {σ : Type} [Timeline σ]
  [Registers σ] [Clock σ] [Console σ] [Machine σ] [DriveMapper σ] [Launcher σ] [Logging σ]

/-- Whatever a registry went through, a cycle attempts the entries of its candidates up to
the mark's rank, as far as they fit their kind, the floppies as one and at most twenty.
Nothing else is attempted. -/
theorem attempts_cut_at_halt [AdvancingClock σ] {operations : List Registry.Operation} {order : BootOrder}
    {rank : Nat} (defaults : Defaults) (config : Config) (before : Recorded σ)
    (bootable : ∀ candidate ∈ operations.filterMap Registry.Operation.registered?, candidate.kind ≠ .halt)
    (halts : order.haltRank? = some rank) :
    let registry := operations.foldl Registry.operate { defaults }
    let flattened := registry.flatten order before
    let cycle := Cycle.ofConfig flattened.1.2 config
    ∃ (passed behind : Mapping) (after : Recorded σ) (trace : List Call),
      passed.map Prod.fst = registry.candidates.filter (·.priority ≤ (rank : Int)) ∧
      behind.map Prod.fst = registry.candidates.filter ((rank : Int) < ·.priority) ∧
      flattened.2.calls = before.calls ++ passed.calls ++ behind.calls ∧
      Settles cycle.runUntilHandoff flattened.2 (.sequenceExhausted, flattened.1.2.stop) after ∧
      after.calls = flattened.2.calls ++ trace ∧
      let fitting := passed.filter (·.1.fits)
      let tried := (keepFirst Entry.isFloppy (Mapping.entries fitting)).take 20
      (Mapping.entries fitting).length = fitting.length ∧
      trace.filter Call.isAttempt = tried.filterMap cycle.attemptCall? ∧
      (trace.filter Call.isAttempt).length = tried.length := by
  intro registry flattened cycle
  have markable : registry.Markable (rank : Int) :=
    Registry.markable_foldl_operate defaults (Int.natCast_nonneg rank) bootable
  obtain ⟨passed, behind, passedListed, behindListed, mapped, triedEntries⟩ :=
    Registry.flatten_markable halts markable before
  obtain ⟨after, settles⟩ := cycle.runUntilHandoff_settles flattened.2
  obtain ⟨_, ended⟩ := settles.ends
  obtain ⟨trace, continued, told⟩ := Cycle.runUntilHandoff_trace ended
  have attempts := Cycle.attempts_of_milestones told
  have length : (cycle.sequence.tried.filterMap cycle.attemptCall?).length = cycle.sequence.tried.length :=
    cycle.length_attempts fun entry member => Sequence.bootable_of_mem_tried member
  have fit : ∀ pair ∈ passed.filter (·.1.fits), pair.1.fits = true :=
    fun pair member => (List.mem_filter.mp member).2
  refine ⟨passed, behind, after, trace, passedListed, behindListed, mapped, settles, continued, ?_, ?_, ?_⟩
  · rw [Mapping.entries_eq_map fit, List.length_map]
  · rw [attempts, Mapping.entries_filter_fits, ← triedEntries]
    rfl
  · rw [attempts, length, Mapping.entries_filter_fits, ← triedEntries]
    rfl

theorem attempts_cut_at_halt_promoted :
    let drive : Drive := { handle := 1, driveType := 0x80, controller := 0 }
    let disk (priority : Int) : Candidate :=
      { kind := .hardDisk, priority, payload := .drive drive, description := "Disk" }
    let floppy (priority : Int) : Candidate := { disk priority with kind := .floppy }
    let misfit : Candidate := { disk 2 with payload := .none }
    let operations : List Registry.Operation :=
      [.register (disk 103), .register (floppy 1), .promote 2, .register misfit, .register (disk 9),
        .register (floppy (-4)), .promote 8]
    let order : BootOrder := { entries := ["/rom@img/first", "HALT"] }
    let before : Recorded Scripted.Board := { platform := {} }
    let registry := operations.foldl Registry.operate {}
    let flattened := registry.flatten order before
    let cycle := Cycle.ofConfig flattened.1.2 {}
    registry.candidates = [floppy (-4), disk 0, floppy 1, misfit, disk 9] ∧
    flattened.2.calls = [.mapFloppy drive, .mapHardDisk drive 0, .mapFloppy drive, .mapHardDisk drive 1] ∧
    ∃ (after : Recorded Scripted.Board) (trace : List Call),
      Settles cycle.runUntilHandoff flattened.2 (.sequenceExhausted, 2) after ∧
      after.calls = flattened.2.calls ++ trace ∧
      trace.filter Call.isAttempt = [.bootFloppy true, .bootHardDisk 0] := by
  intro drive disk floppy misfit operations order before registry flattened cycle
  have held : registry.candidates = [floppy (-4), disk 0, floppy 1, misfit, disk 9] := by decide
  have called : flattened.2.calls =
      [.mapFloppy drive, .mapHardDisk drive 0, .mapFloppy drive, .mapHardDisk drive 1] := by decide +kernel
  have bootable : ∀ candidate ∈ operations.filterMap Registry.Operation.registered?,
      candidate.kind ≠ .halt := by decide
  have stops : flattened.1.2.stop = 2 := by decide +kernel
  have halts : order.haltRank? = some 2 := by decide +kernel
  obtain ⟨passed, behind, after, trace, passedListed, _, mapped, settles, continued, _, attempts, _⟩ :=
    attempts_cut_at_halt {} {} before bootable halts
  have upTo : passed.map Prod.fst = [floppy (-4), disk 0, floppy 1, misfit] :=
    passedListed.trans (by decide)
  obtain ⟨⟨_, _⟩, _, rfl, rfl, listed⟩ := List.map_eq_cons_iff.mp upTo
  obtain ⟨⟨_, id⟩, _, rfl, rfl, floppyListed⟩ := List.map_eq_cons_iff.mp listed
  obtain ⟨⟨_, _⟩, _, rfl, rfl, misfitListed⟩ := List.map_eq_cons_iff.mp floppyListed
  obtain ⟨⟨_, _⟩, _, rfl, rfl, noneListed⟩ := List.map_eq_cons_iff.mp misfitListed
  obtain rfl := List.map_eq_nil_iff.mp noneListed
  -- The platform counts its disks from zero.
  have first : id = 0 := by
    have same : some (Call.mapHardDisk drive id) = some (.mapHardDisk drive 0) :=
      congrArg (·[1]?) (mapped.symm.trans called)
    simpa using same
  refine ⟨held, called, after, trace, ?_, continued, ?_⟩
  · rw [← stops]
    exact settles
  · rw [attempts, first]
    rfl

end Boot

end BootFlow
