import BootFlow.Proofs.Cycle.Handoff
import BootFlow.Proofs.Registry.Promotion

namespace BootFlow

open DriveMapper Logging Recorded

/-! A promoted candidate boots first. Its priority is below every rank of a stop mark, it is
mapped before the others, and its entry is the first that a cycle attempts. -/

theorem Sequence.head?_withFallbacks (entry : Entry) (pushed : List Entry) :
    ((entry :: pushed).foldl push {}).withFallbacks.entries.head? = some entry := by
  obtain ⟨rest, kept⟩ := keepFirst_cons Entry.isFloppy entry (pushed ++ [.floppy])
  have first : listed (entry :: pushed) = entry :: rest.take 19 := by
    rw [listed, List.cons_append, kept]
    rfl
  rw [entries_withFallbacks, first]
  split <;> rfl

theorem Cycle.head?_attempts (cycle : Cycle) {entry : Entry}
    (first : cycle.sequence.entries.head? = some entry) :
    (cycle.sequence.tried.filterMap cycle.attemptCall?).head? = cycle.attemptCall? entry := by
  obtain ⟨rest, entries⟩ := List.head?_eq_some_iff.mp first
  by_cases mark : entry = .halt
  · -- A stop mark is not attempted, and neither is anything behind it.
    have stops : cycle.sequence.tried = [] :=
      Sequence.tried_of_marked (by rw [entries, mark, List.nil_append]) (by simp)
    rw [stops, mark]
    rfl
  · have passes : cycle.sequence.stop = rest.findIdx (· == .halt) + 1 := by
      rw [Sequence.stop, entries, List.findIdx_cons, beq_false_of_ne mark]
      rfl
    rw [Sequence.tried, passes, entries, List.take_succ_cons, List.filterMap_cons]
    cases entry <;> first | rfl | exact absurd rfl mark

namespace Registry

theorem candidates_promote_of_getElem? {registry : Registry} {index : Nat} {candidate : Candidate}
    (found : registry.candidates[index]? = some candidate) :
    (registry.promote (index + 1)).candidates = candidate.promoted :: registry.candidates.eraseIdx index := by
  simp only [promote, at?, found]
  rfl

/-- A stop mark does not go before a candidate that was promoted. -/
theorem first?_placed {registry : Registry} {candidate : Candidate}
    (first : registry.first? = some candidate.promoted) (order : BootOrder) :
    (registry.placed order).first? = some candidate.promoted := by
  unfold placed
  cases order.haltRank? with
  | none => exact first
  | some rank =>
      simp only [withHalt]
      split
      · exact first
      · rename_i unmarked
        obtain ⟨others, listed⟩ := List.head?_eq_some_iff.mp first
        have bootable : candidate.promoted.kind ≠ .halt := by
          intro mark
          refine unmarked (List.any_eq_true.mpr ⟨candidate.promoted, ?_, ?_⟩)
          · rw [listed]
            exact List.mem_cons_self ..
          · simpa using mark
        -- A rank is never below the zero of a promoted candidate, and a tie goes to what was there.
        have behind : ¬(Candidate.halt rank).order candidate.promoted = .lt := by
          rw [Candidate.halt_order_lt_iff bootable]
          exact Int.not_lt.mpr (Int.natCast_nonneg rank)
        change ((Candidate.halt rank).insertInto registry.candidates).head? = _
        rw [listed, Candidate.insertInto, if_neg behind]
        rfl

/-- A promoted candidate that fits its kind is mapped first and has the first entry. -/
theorem flatten_first {τ : Type} [Timeline τ] [DriveMapper τ] [Logging τ] {registry : Registry}
    {candidate : Candidate} (first : registry.first? = some candidate.promoted)
    (fits : candidate.fits = true) (order : BootOrder) (mapper : Recorded τ) :
    ∃ id entry rest, candidate.entryFor id = some entry ∧
      (registry.flatten order mapper).2.calls = mapper.calls ++ (candidate.mappingCall? id).toList ++ rest ∧
      (registry.flatten order mapper).1.2.entries.head? = some entry := by
  obtain ⟨_, mapping, listed, sequenced, mapped⟩ := registry.flatten_apply order mapper
  obtain ⟨others, placed⟩ := List.head?_eq_some_iff.mp (first?_placed first order)
  rw [placed] at listed
  obtain ⟨⟨_, id⟩, behind, rfl, rfl, _⟩ := List.map_eq_cons_iff.mp listed
  have given : (candidate.entryFor id).isSome := by rw [candidate.isSome_entryFor id, fits]
  obtain ⟨entry, own⟩ := Option.isSome_iff_exists.mp given
  have pushed : Mapping.entries ((candidate.promoted, id) :: behind) = entry :: Mapping.entries behind := by
    have same : candidate.promoted.entryFor id = some entry := own
    rw [Mapping.entries_cons, same]
    rfl
  refine ⟨id, entry, Mapping.calls behind, own, ?_, ?_⟩
  · rw [mapped, Mapping.calls_cons, List.append_assoc]
    rfl
  · rw [sequenced, pushed, Sequence.head?_withFallbacks]

end Registry

end BootFlow
