import BootFlow.Proofs.Sequence.Flatten

namespace BootFlow.Sequence

/-! A sequence is tried up to its first stop mark. A mark that there was no room
for has not gone missing: all entries that were kept stood before it. -/

/-- Where the first stop mark is, or else the end of the entries. -/
def stop (sequence : Sequence) : Nat :=
  sequence.entries.findIdx (· == .halt)

def tried (sequence : Sequence) : List Entry :=
  sequence.entries.take sequence.stop

theorem stop_le_length (sequence : Sequence) : sequence.stop ≤ sequence.entries.length :=
  List.findIdx_le_length

theorem length_tried (sequence : Sequence) : sequence.tried.length = sequence.stop := by
  have within := sequence.stop_le_length
  rw [tried, List.length_take]
  omega

section

variable {sequence : Sequence} {entry : Entry}

theorem position_le_capacity {position : Nat} (found : sequence.entries[position]? = some entry) :
    position ≤ capacity := by
  obtain ⟨bound, _⟩ := List.getElem?_eq_some_iff.mp found
  exact Nat.le_of_lt (Nat.lt_of_lt_of_le bound sequence.within)

theorem bootable_of_mem_tried (member : entry ∈ sequence.tried) : entry ≠ .halt := by
  obtain ⟨index, bound, found⟩ := List.mem_iff_getElem.mp member
  have before : index < sequence.entries.findIdx (· == .halt) := by
    rw [length_tried] at bound
    exact bound
  have missed := List.not_of_lt_findIdx before
  simp only [tried, List.getElem_take] at found
  rw [found] at missed
  simpa using missed

theorem entry_stop (found : sequence.entries[sequence.stop]? = some entry) : entry = .halt := by
  obtain ⟨bound, here⟩ := List.getElem?_eq_some_iff.mp found
  have marked : (sequence.entries[sequence.stop] == Entry.halt) = true :=
    List.findIdx_getElem (w := bound)
  rw [here] at marked
  exact eq_of_beq marked

variable {passed behind : List Entry}

theorem tried_of_marked (marked : sequence.entries = passed ++ .halt :: behind)
    (bootable : ∀ entry ∈ passed, entry ≠ .halt) : sequence.tried = passed := by
  have unmarked : passed.findIdx (· == .halt) = passed.length :=
    List.findIdx_eq_length_of_false fun entry member => beq_false_of_ne (bootable entry member)
  have stops : sequence.stop = passed.length := by
    rw [stop, marked, List.findIdx_append, unmarked]
    simp [List.findIdx_cons]
  rw [tried, stops, marked, List.take_left]

theorem tried_of_unmarked (bootable : ∀ entry ∈ sequence.entries, entry ≠ .halt) :
    sequence.tried = sequence.entries := by
  have stops : sequence.stop = sequence.entries.length :=
    List.findIdx_eq_length_of_false fun entry member => beq_false_of_ne (bootable entry member)
  rw [tried, stops, List.take_length]

end

/-- What is pushed behind an entry of another sort does not touch what was kept before it. -/
theorem keepFirst_append_cons {α : Type} {sort : α → Bool} {other : α} (distinct : sort other = false)
    (list more : List α) :
    ∃ rest, keepFirst sort (list ++ other :: more) = keepFirst sort list ++ other :: rest := by
  induction list with
  | nil => exact ⟨keepFirst sort more, by simp [keepFirst, distinct]⟩
  | cons head list ih =>
      cases first : sort head with
      | true => exact ⟨more.filter (!sort ·), by simp [keepFirst, first, distinct]⟩
      | false =>
          obtain ⟨rest, kept⟩ := ih
          exact ⟨rest, by simp [keepFirst, first, kept]⟩

/-- The entries before the first stop mark are tried, as far as there is room
for them, and nothing that was pushed behind it or added. -/
theorem tried_withFallbacks (passed behind : List Entry) (bootable : ∀ entry ∈ passed, entry ≠ .halt) :
    ((passed ++ .halt :: behind).foldl push {}).withFallbacks.tried =
      (keepFirst Entry.isFloppy passed).take capacity := by
  have notFloppy : Entry.isFloppy .halt = false := rfl
  obtain ⟨rest, kept⟩ := keepFirst_append_cons notFloppy passed (behind ++ [.floppy])
  have listing : listed (passed ++ .halt :: behind) =
      (keepFirst Entry.isFloppy passed ++ .halt :: rest).take capacity := by
    rw [listed, List.append_assoc, List.cons_append, kept]
  have fallbacks := entries_withFallbacks (passed ++ .halt :: behind)
  have keptBootable : ∀ entry ∈ keepFirst Entry.isFloppy passed, entry ≠ .halt :=
    fun entry member => bootable entry ((keepFirst_sublist _ _).subset member)
  -- Either the mark itself was stored, or what stands before it fills the sequence
  -- and leaves no room for a fallback.
  by_cases room : (keepFirst Entry.isFloppy passed).length < capacity
  · have stored : (keepFirst Entry.isFloppy passed ++ .halt :: rest).take capacity =
        keepFirst Entry.isFloppy passed ++
          .halt :: rest.take (capacity - (keepFirst Entry.isFloppy passed).length - 1) := by
      obtain ⟨left, positive⟩ := Nat.exists_eq_add_of_lt room
      rw [List.take_append, List.take_of_length_le (Nat.le_of_lt room)]
      rw [show capacity - (keepFirst Entry.isFloppy passed).length = left + 1 by omega]
      rfl
    rw [List.take_of_length_le (Nat.le_of_lt room)]
    rw [listing, stored] at fallbacks
    split at fallbacks
    · rw [List.append_assoc] at fallbacks
      exact tried_of_marked fallbacks keptBootable
    · exact tried_of_marked fallbacks keptBootable
  · have full : (keepFirst Entry.isFloppy passed ++ .halt :: rest).take capacity =
        (keepFirst Entry.isFloppy passed).take capacity :=
      List.take_append_of_le_length (Nat.not_lt.mp room)
    have noRoom : ((keepFirst Entry.isFloppy passed).take capacity).length = capacity := by
      rw [List.length_take]
      omega
    rw [listing, full, noRoom, if_neg (by simp)] at fallbacks
    rw [tried_of_unmarked, fallbacks]
    intro entry member
    rw [fallbacks] at member
    exact keptBootable entry (List.mem_of_mem_take member)

end BootFlow.Sequence

namespace BootFlow.Mapping

theorem entries_filter_fits (mapping : Mapping) :
    Mapping.entries (mapping.filter (·.1.fits)) = mapping.entries := by
  induction mapping with
  | nil => rfl
  | cons pair others ih =>
      obtain ⟨candidate, id⟩ := pair
      by_cases fits : candidate.fits
      · rw [List.filter_cons_of_pos (by simpa using fits), entries_cons, entries_cons, ih]
      · have given := candidate.isSome_entryFor id
        rw [eq_false_of_ne_true fits, Option.isSome_eq_false_iff, Option.isNone_iff_eq_none] at given
        rw [List.filter_cons_of_neg (by simpa using fits), entries_cons, ih, given]
        rfl

theorem entries_eq_map {mapping : Mapping} (fit : ∀ pair ∈ mapping, pair.1.fits = true) :
    mapping.entries = mapping.map fun pair => (pair.1.entryFor pair.2).getD .halt := by
  induction mapping with
  | nil => rfl
  | cons pair others ih =>
      obtain ⟨candidate, id⟩ := pair
      have given : (candidate.entryFor id).isSome := by
        rw [candidate.isSome_entryFor id]
        exact fit (candidate, id) (List.mem_cons_self ..)
      obtain ⟨entry, first⟩ := Option.isSome_iff_exists.mp given
      rw [entries_cons, List.map_cons, ih fun pair member => fit pair (List.mem_cons_of_mem _ member),
        first]
      rfl

theorem isFloppy_entry {candidate : Candidate} (fits : candidate.fits = true) (id : UInt32) :
    ((candidate.entryFor id).getD .halt).isFloppy = (candidate.kind == .floppy) := by
  obtain ⟨kind, priority, payload, description⟩ := candidate
  cases kind <;> cases payload <;> first | rfl | cases fits

/-- The floppies can be told apart before they are mapped. -/
theorem keepFirst_entries (mapping : Mapping) :
    (keepFirst Entry.isFloppy mapping.entries).take Sequence.capacity =
      Mapping.entries ((keepFirst (·.1.kind == .floppy) (mapping.filter (·.1.fits))).take
        Sequence.capacity) := by
  let fitting := mapping.filter (·.1.fits)
  have fit : ∀ pair ∈ fitting, pair.1.fits = true := fun pair member => (List.mem_filter.mp member).2
  have kept : ∀ pair ∈ (keepFirst (·.1.kind == .floppy) fitting).take Sequence.capacity,
      pair.1.fits = true := fun pair member =>
    fit pair ((keepFirst_sublist _ _).subset (List.mem_of_mem_take member))
  have told := keepFirst_congr _ (·.1.kind == .floppy) fun pair member =>
    isFloppy_entry (fit pair member) pair.2
  rw [← entries_filter_fits mapping, entries_eq_map fit, entries_eq_map kept, keepFirst_map, told,
    List.map_take]

theorem bootable_entries {mapping : Mapping} (bootable : ∀ pair ∈ mapping, pair.1.kind ≠ .halt) :
    ∀ entry ∈ mapping.entries, entry ≠ .halt := by
  intro entry member
  obtain ⟨⟨candidate, id⟩, listed, given⟩ := List.mem_filterMap.mp member
  have kind : candidate.kind ≠ .halt := bootable _ listed
  intro mark
  rw [mark] at given
  exact kind (candidate.kind_of_entryFor_halt given)

theorem entries_marked (passed behind : Mapping) (rank : Int) (id : UInt32) :
    Mapping.entries (passed ++ (.halt rank, id) :: behind) =
      passed.entries ++ .halt :: behind.entries := by
  rw [entries, List.filterMap_append]
  rfl

/-- Of the candidates before a stop mark those with an entry are tried, the
floppies as one, as far as there is room. -/
theorem tried_marked {passed behind : Mapping} (rank : Int) (id : UInt32)
    (bootable : ∀ pair ∈ passed, pair.1.kind ≠ .halt) :
    ((Mapping.entries (passed ++ (.halt rank, id) :: behind)).foldl Sequence.push
        {}).withFallbacks.tried =
      Mapping.entries ((keepFirst (·.1.kind == .floppy) (passed.filter (·.1.fits))).take
        Sequence.capacity) := by
  rw [entries_marked, Sequence.tried_withFallbacks _ _ (bootable_entries bootable), keepFirst_entries]

end BootFlow.Mapping
