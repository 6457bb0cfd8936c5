import BootFlow.Proofs.Platform.Recorded
import BootFlow.Proofs.Registry.Priority
import BootFlow.Proofs.Sequence.Push
import BootFlow.Sequence

namespace BootFlow

open DriveMapper Logging Recorded

/-! Flattening maps every candidate that it can, in order, and only then drops
what there is no room for. The drive ids are the platform's to choose, so what
is said here is said for some choice of them. -/

namespace Candidate

/-- The call that makes the device available, with the id that it answers for a
hard disk. -/
def mappingCall? (candidate : Candidate) (id : UInt32) : Option Call :=
  match candidate.kind, candidate.payload with
  | .bcv, .vector vector => some (.callConnectionVector vector)
  | .floppy, .drive drive => some (.mapFloppy drive)
  | .hardDisk, .drive drive => some (.mapHardDisk drive id)
  | .cdRom, .drive drive => some (.mapCdRom drive)
  | _, _ => none

def entryFor (candidate : Candidate) (id : UInt32) : Option Entry :=
  match candidate.kind, candidate.payload with
  | .bcv, .vector _ => some (.hardDisk 0)
  | .floppy, .drive _ => some .floppy
  | .hardDisk, .drive _ => some (.hardDisk id)
  | .cdRom, .drive drive => some (.cdRom drive)
  | .cbfs, .file file => some (.cbfs file)
  | .bev, .vector vector => some (.rom vector)
  | .halt, _ => some .halt
  | _, _ => none

theorem isSome_entryFor (candidate : Candidate) (id : UInt32) :
    (candidate.entryFor id).isSome = candidate.fits := by
  obtain ⟨kind, priority, payload, description⟩ := candidate
  cases kind <;> cases payload <;> rfl

theorem kind_of_entryFor_halt (candidate : Candidate) {id : UInt32}
    (mark : candidate.entryFor id = some .halt) : candidate.kind = .halt := by
  obtain ⟨kind, priority, payload, description⟩ := candidate
  cases kind <;> cases payload <;> first | rfl | cases mark

/-- What is mapped has an entry. The other kinds have theirs without a call. -/
theorem isSome_mappingCall? (candidate : Candidate) (id : UInt32) :
    (candidate.mappingCall? id).isSome =
      (candidate.fits && (candidate.kind.isDrive || candidate.kind == .bcv)) := by
  obtain ⟨kind, priority, payload, description⟩ := candidate
  cases kind <;> cases payload <;> rfl

theorem isAttempt_mappingCall? (candidate : Candidate) {id : UInt32} {call : Call}
    (maps : candidate.mappingCall? id = some call) : call.isAttempt = false := by
  obtain ⟨kind, priority, payload, description⟩ := candidate
  cases kind <;> cases payload <;> cases maps <;> rfl

theorem map_apply {σ : Type} [Timeline σ] [DriveMapper σ] (candidate : Candidate)
    (before : Recorded σ) :
    ∃ id, (candidate.map before).1 = candidate.entryFor id ∧
      (candidate.map before).2.calls = before.calls ++ (candidate.mappingCall? id).toList := by
  obtain ⟨kind, priority, payload, description⟩ := candidate
  cases kind <;> cases payload <;>
    first
    | exact ⟨0, rfl, (List.append_nil _).symm⟩
    | exact ⟨0, rfl, calls_doing _ _ before⟩
    | exact ⟨_, rfl, calls_mapHardDisk _ before⟩

end Candidate

/-- The candidates in order, each with the id that a hard disk in its place got. -/
abbrev Mapping := List (Candidate × UInt32)

namespace Mapping

def calls (mapping : Mapping) : List Call :=
  mapping.filterMap fun pair => pair.1.mappingCall? pair.2

def entries (mapping : Mapping) : List Entry :=
  mapping.filterMap fun pair => pair.1.entryFor pair.2

theorem calls_cons (candidate : Candidate) (id : UInt32) (mapping : Mapping) :
    Mapping.calls ((candidate, id) :: mapping) =
      (candidate.mappingCall? id).toList ++ mapping.calls := by
  rw [calls, List.filterMap_cons]
  cases candidate.mappingCall? id <;> rfl

theorem entries_cons (candidate : Candidate) (id : UInt32) (mapping : Mapping) :
    Mapping.entries ((candidate, id) :: mapping) = (candidate.entryFor id).toList ++ mapping.entries := by
  rw [entries, List.filterMap_cons]
  cases candidate.entryFor id <;> rfl

end Mapping

namespace Sequence

section

variable {σ : Type} [Timeline σ] [DriveMapper σ] [Logging σ]

theorem extend_cons_entry (sequence : Sequence) {candidate : Candidate} {entry : Entry}
    {before : Recorded σ} (given : (candidate.map before).1 = some entry) (others : List Candidate) :
    sequence.extend (candidate :: others) before =
      (sequence.push entry).extend others (candidate.map before).2 := by
  simp only [extend, Action.bind_apply, given]

theorem extend_cons_none (sequence : Sequence) {candidate : Candidate} {before : Recorded σ}
    (refused : (candidate.map before).1 = none) (others : List Candidate) :
    ∃ logged : Recorded σ, logged.calls = (candidate.map before).2.calls ∧
      sequence.extend (candidate :: others) before = sequence.extend others logged := by
  simp only [extend, Action.bind_apply, refused]
  exact ⟨_, calls_emit _ _ _, rfl⟩

theorem extend_apply (sequence : Sequence) (candidates : List Candidate) (before : Recorded σ) :
    ∃ mapping : Mapping, mapping.map Prod.fst = candidates ∧
      (sequence.extend candidates before).1 = mapping.entries.foldl push sequence ∧
      (sequence.extend candidates before).2.calls = before.calls ++ mapping.calls := by
  induction candidates generalizing sequence before with
  | nil => exact ⟨[], rfl, rfl, (List.append_nil _).symm⟩
  | cons candidate others ih =>
      obtain ⟨id, answered, called⟩ := candidate.map_apply before
      cases given : candidate.entryFor id with
      | none =>
          obtain ⟨logged, unseen, skips⟩ := sequence.extend_cons_none (answered.trans given) others
          obtain ⟨mapping, listed, extended, continued⟩ := ih sequence logged
          refine ⟨(candidate, id) :: mapping, by rw [List.map_cons, listed], ?_, ?_⟩
          · rw [skips, extended, Mapping.entries_cons, given]
            rfl
          · rw [skips, continued, unseen, called, Mapping.calls_cons, List.append_assoc]
      | some entry =>
          have pushes := sequence.extend_cons_entry (answered.trans given) others
          obtain ⟨mapping, listed, extended, continued⟩ :=
            ih (sequence.push entry) (candidate.map before).2
          refine ⟨(candidate, id) :: mapping, by rw [List.map_cons, listed], ?_, ?_⟩
          · rw [pushes, extended, Mapping.entries_cons, given]
            rfl
          · rw [pushes, continued, called, Mapping.calls_cons, List.append_assoc]

end

def hasDisk (entries : List Entry) : Bool := entries.any (·.kind == .hardDisk)

theorem hardDisk_mem_of_hasDisk {entries : List Entry} (disk : hasDisk entries = true) :
    ∃ id, Entry.hardDisk id ∈ entries := by
  obtain ⟨entry, member, kind⟩ := List.any_eq_true.mp disk
  cases entry with
  | hardDisk id => exact ⟨id, member⟩
  | floppy | cdRom | cbfs | rom | halt => cases kind

/-- What is kept of entries with a floppy pushed behind them. -/
def listed (pushed : List Entry) : List Entry :=
  (keepFirst Entry.isFloppy (pushed ++ [.floppy])).take capacity

theorem entries_withFallbacks (pushed : List Entry) :
    (pushed.foldl push {}).withFallbacks.entries =
      if hasDisk (listed pushed) = false ∧ (listed pushed).length < capacity
      then listed pushed ++ [.hardDisk 0] else listed pushed := by
  let completed := (pushed.foldl push {}).push .floppy
  have kept : completed.entries = listed pushed := by
    have folded := entries_foldl_push (pushed ++ [.floppy])
    rwa [List.foldl_append, List.foldl_cons, List.foldl_nil] at folded
  have fallbacks : (pushed.foldl push {}).withFallbacks =
      if hasDisk completed.entries then completed else completed.push (.hardDisk 0) := rfl
  rw [fallbacks, kept]
  cases disk : hasDisk (listed pushed) with
  | true => rw [if_pos rfl, if_neg (by simp), kept]
  | false =>
      have notFloppy : (Entry.hardDisk 0).isFloppy = false := rfl
      simp [entries_push, kept, notFloppy]

theorem count_floppy_withFallbacks_le (pushed : List Entry) :
    (pushed.foldl push {}).withFallbacks.entries.count .floppy ≤ 1 := by
  have once : (listed pushed).count .floppy ≤ 1 :=
    Nat.le_trans ((List.take_sublist capacity _).count_le Entry.floppy) (countP_keepFirst_le _ _)
  rw [entries_withFallbacks]
  split
  · rw [List.count_append]
    exact once
  · exact once

/-- With room left, nothing was dropped and both fallbacks found their place. -/
theorem complete_withFallbacks (pushed : List Entry)
    (room : (pushed.foldl push {}).withFallbacks.entries.length < capacity) :
    (pushed.foldl push {}).withFallbacks.entries.count .floppy = 1 ∧
      ∃ id, .hardDisk id ∈ (pushed.foldl push {}).withFallbacks.entries := by
  have shorter : (listed pushed).length < capacity := by
    rw [entries_withFallbacks] at room
    split at room
    · rw [List.length_append] at room
      omega
    · exact room
  have once : (listed pushed).count .floppy = 1 := by
    have whole : listed pushed = keepFirst Entry.isFloppy (pushed ++ [.floppy]) := by
      refine List.take_of_length_le ?_
      rw [listed, List.length_take] at shorter
      omega
    have counted := countP_keepFirst Entry.isFloppy (pushed ++ [.floppy])
    rw [← whole, List.any_append] at counted
    change (listed pushed).countP Entry.isFloppy = 1
    rw [counted]
    simp [Entry.isFloppy]
  rw [entries_withFallbacks]
  cases disk : hasDisk (listed pushed) with
  | true =>
      rw [if_neg (by simp)]
      exact ⟨once, hardDisk_mem_of_hasDisk disk⟩
  | false =>
      rw [if_pos ⟨rfl, shorter⟩]
      exact ⟨by rw [List.count_append, once]; rfl, 0, List.mem_append_right _ (List.mem_singleton_self _)⟩

end Sequence

section

variable {σ : Type} [Logging σ]

theorem BootOrder.searchHalt_apply (order : BootOrder) (before : Recorded σ) :
    (order.searchHalt before).1 = order.haltRank? ∧
      (order.searchHalt before).2.calls = before.calls := by
  simp only [searchHalt, searchFirst, search, haltRank?, Action.bind_apply, Action.pure_apply]
  cases order.rank? haltEntry <;> exact ⟨rfl, rfl⟩

namespace Registry

/-- The registry with the stop mark at a rank, unless it has one. -/
def withHalt (registry : Registry) (rank : Nat) : Registry :=
  if registry.has .halt then registry else registry.insert (.halt rank)

/-- The registry as it is flattened: with the stop mark where the boot order has
one. -/
def placed (registry : Registry) (order : BootOrder) : Registry :=
  match order.haltRank? with
  | some rank => registry.withHalt rank
  | none => registry

theorem placeHalt_apply (registry : Registry) (order : BootOrder) (before : Recorded σ) :
    (registry.placeHalt order before).1 = registry.placed order ∧
      (registry.placeHalt order before).2.calls = before.calls := by
  obtain ⟨answered, unseen⟩ := order.searchHalt_apply before
  simp only [placeHalt, placed, withHalt, Action.bind_apply, answered]
  cases order.haltRank? with
  | none => exact ⟨rfl, unseen⟩
  | some rank =>
      by_cases marked : registry.has .halt
      · simp only [marked, reduceIte]
        exact ⟨rfl, unseen⟩
      · simp only [marked, Bool.false_eq_true, reduceIte]
        exact ⟨rfl, unseen⟩

theorem has_halt_withHalt (registry : Registry) (rank : Nat) :
    (registry.withHalt rank).has .halt = true := by
  unfold withHalt
  split
  · assumption
  · exact List.any_eq_true.mpr ⟨_, Candidate.mem_insertInto.mpr (.inl rfl), rfl⟩

theorem withHalt_candidates {registry : Registry} (rank : Nat) (unmarked : registry.has .halt = false) :
    ∃ earlier later, registry.candidates = earlier ++ later ∧
      (registry.withHalt rank).candidates = earlier ++ .halt rank :: later ∧
      (∀ candidate ∈ earlier, candidate.priority ≤ rank) ∧
      (∀ candidate, later.head? = some candidate → rank < candidate.priority) ∧
      (Ranked registry.candidates → ∀ candidate ∈ later, rank < candidate.priority) := by
  have bootable : ∀ candidate ∈ registry.candidates, candidate.kind ≠ .halt := by
    simpa [has, List.any_eq_false] using unmarked
  obtain ⟨earlier, later, listed, inserted, upTo, first⟩ := Candidate.halt_insertInto_split bootable
  have placed : (registry.withHalt rank).candidates = (Candidate.halt rank).insertInto registry.candidates := by
    rw [withHalt, unmarked]
    rfl
  refine ⟨earlier, later, listed, placed.trans inserted, upTo, first, fun ranked => ?_⟩
  have parted := (listed ▸ ranked).partedAt rank
  exact Candidate.above_of_partedAt (List.pairwise_append.mp parted).2.1 first

theorem placed_placed (registry : Registry) (order : BootOrder) :
    (registry.placed order).placed order = registry.placed order := by
  cases ranked : order.haltRank? with
  | none => simp only [placed, ranked]
  | some rank =>
      have marked := registry.has_halt_withHalt rank
      simp only [placed, ranked]
      exact if_pos marked

variable [Timeline σ] [DriveMapper σ]

theorem flatten_apply (registry : Registry) (order : BootOrder) (before : Recorded σ) :
    (registry.flatten order before).1.1 = registry.placed order ∧
      ∃ mapping : Mapping, mapping.map Prod.fst = (registry.placed order).candidates ∧
        (registry.flatten order before).1.2 = (mapping.entries.foldl Sequence.push {}).withFallbacks ∧
        (registry.flatten order before).2.calls = before.calls ++ mapping.calls := by
  obtain ⟨answered, unseen⟩ := registry.placeHalt_apply order before
  obtain ⟨mapping, listed, extended, continued⟩ :=
    Sequence.extend_apply {} (registry.placed order).candidates (registry.placeHalt order before).2
  rw [unseen] at continued
  simp only [flatten, Action.bind_apply, Action.pure_apply, answered, calls_emit]
  exact ⟨trivial, mapping, listed, congrArg Sequence.withFallbacks extended, continued⟩

/-- What flattening comes to: where the stop mark goes, which drives are mapped, and what becomes of
the entries that they give. A mark that is new goes behind candidates up to its rank and before the
first above it, and leaves the candidates as they are. -/
theorem flatten_spec (registry : Registry) (order : BootOrder) (before : Recorded σ) :
    let result := registry.flatten order before
    let flattened := result.1.1
    let entries := result.1.2.entries
    (flattened = match order.haltRank? with
      | some rank => if registry.has .halt then registry else registry.insert (.halt rank)
      | none => registry) ∧
    (∀ rank, order.haltRank? = some rank → flattened.has .halt = true ∧
      (registry.has .halt = false → ∃ earlier later,
        registry.candidates = earlier ++ later ∧ flattened.candidates = earlier ++ .halt rank :: later ∧
        (∀ candidate ∈ earlier, candidate.priority ≤ rank) ∧
        (∀ candidate, later.head? = some candidate → rank < candidate.priority) ∧
        (Ranked registry.candidates → ∀ candidate ∈ later, rank < candidate.priority))) ∧
    (∀ later : Recorded σ, (flattened.flatten order later).1.1 = flattened) ∧
    (∃ mapping : Mapping, mapping.map Prod.fst = flattened.candidates ∧
      result.2.calls = before.calls ++ mapping.calls ∧
      (∀ pair ∈ mapping, (pair.1.mappingCall? pair.2).isSome =
        (pair.1.fits && (pair.1.kind.isDrive || pair.1.kind == .bcv))) ∧
      let listed := (keepFirst Entry.isFloppy (mapping.entries ++ [.floppy])).take 20
      entries = if listed.any (·.kind == .hardDisk) = false ∧ listed.length < 20
        then listed ++ [.hardDisk 0] else listed) ∧
    entries.length ≤ 20 ∧
    entries.count .floppy ≤ 1 ∧
    (entries.length < 20 → entries.count .floppy = 1 ∧ ∃ id, .hardDisk id ∈ entries) := by
  intro result flattened entries
  obtain ⟨marks, mapping, listed, sequenced, mapped⟩ := registry.flatten_apply order before
  have stable (later : Recorded σ) : (flattened.flatten order later).1.1 = flattened := by
    rw [(flattened.flatten_apply order later).1]
    change (result.1.1.placed order) = result.1.1
    rw [marks, placed_placed]
  have marked (rank : Nat) (halts : order.haltRank? = some rank) : flattened = registry.withHalt rank := by
    refine marks.trans ?_
    rw [placed, halts]
  have limited : entries = (mapping.entries.foldl Sequence.push {}).withFallbacks.entries :=
    congrArg Sequence.entries sequenced
  have same : flattened.candidates = (registry.placed order).candidates := by rw [← marks]
  have mappable : ∀ pair ∈ mapping, (pair.1.mappingCall? pair.2).isSome =
      (pair.1.fits && (pair.1.kind.isDrive || pair.1.kind == .bcv)) :=
    fun pair _ => pair.1.isSome_mappingCall? pair.2
  refine ⟨marks, fun rank halts => ?_, stable, ⟨mapping, listed.trans same.symm, mapped, mappable, ?_⟩,
    result.1.2.within, ?_, ?_⟩
  · rw [marked rank halts]
    exact ⟨registry.has_halt_withHalt rank, registry.withHalt_candidates rank⟩
  · exact limited.trans (Sequence.entries_withFallbacks mapping.entries)
  · rw [limited]
    exact Sequence.count_floppy_withFallbacks_le mapping.entries
  · rw [limited]
    exact Sequence.complete_withFallbacks mapping.entries

end Registry

end

end BootFlow
