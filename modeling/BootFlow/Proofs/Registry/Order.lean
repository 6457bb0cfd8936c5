import BootFlow.Proofs.Registry.History

namespace BootFlow

/-! Registrations alone keep a registry in order. A promotion puts its candidate in front
whatever the kinds say, so promoted candidates may stand against the order, but only among
themselves. -/

/-- No candidate precedes one that stands before it. -/
def InOrder (candidates : List Candidate) : Prop :=
  candidates.Pairwise fun left right => right.order left ≠ .lt

instance (candidates : List Candidate) : Decidable (InOrder candidates) :=
  inferInstanceAs (Decidable (List.Pairwise _ _))

theorem InOrder.of_keys {candidates : List Candidate} (sortable : ∀ candidate ∈ candidates, candidate.sortable)
    (ascends : candidates.Pairwise fun left right => left.key ≤ right.key) : InOrder candidates := by
  refine List.Pairwise.imp_of_mem ?_ ascends
  intro left right leftMember rightMember below precedes
  rw [Candidate.order_eq_lt (sortable right rightMember) (sortable left leftMember)] at precedes
  exact absurd precedes (not_lt.mpr below)

namespace History

variable {history : History} {candidate : Candidate}

theorem placed_of_mem_rest (wellFormed : history.WellFormed) (member : candidate ∈ history.rest.map (·.1)) :
    1 ≤ candidate.priority ∧ candidate.sortable := by
  obtain ⟨entry, listed, rfl⟩ := List.mem_map.mp member
  have registered := List.fst_mem_of_mem_zipIdx (mem_rest.mp listed).1
  exact wellFormed.placed _ registered

theorem priority_of_mem_front (member : candidate ∈ history.front.map (·.1.promoted)) :
    candidate.priority = 0 := by
  obtain ⟨entry, _, rfl⟩ := List.mem_map.mp member
  rfl

theorem rest_in_order (wellFormed : history.WellFormed) : InOrder (history.rest.map (·.1)) := by
  refine .of_keys (fun candidate member => (placed_of_mem_rest wellFormed member).2) ?_
  rw [map_rest]
  exact mergeSort_ascends Candidate.key _

theorem front_stays {left right : Candidate} (wellFormed : history.WellFormed)
    (leftMember : left ∈ history.front.map (·.1.promoted)) (rightMember : right ∈ history.rest.map (·.1)) :
    right.order left ≠ .lt := by
  intro precedes
  have below := Candidate.priority_le_of_order_lt precedes
  have zero := priority_of_mem_front leftMember
  have positive := (placed_of_mem_rest wellFormed rightMember).1
  omega

/-- A candidate that was never promoted does not precede one that stands before it. -/
theorem ordered_behind_front (wellFormed : history.WellFormed) {before behind : Nat} (apart : before < behind)
    (inside : behind < history.candidates.length)
    (precedes : history.candidates[behind].order history.candidates[before] = .lt) :
    behind < history.front.length := by
  by_contra beyond
  have inRest : history.front.length ≤ behind := Nat.le_of_not_lt beyond
  simp only [candidates] at precedes
  rw [List.getElem_append_right (by simpa using inRest)] at precedes
  by_cases early : before < history.front.length
  · rw [List.getElem_append_left (by simpa using early)] at precedes
    exact front_stays wellFormed (List.getElem_mem _) (List.getElem_mem _) precedes
  · rw [List.getElem_append_right (by simpa using Nat.le_of_not_lt early)] at precedes
    have ordered := List.pairwise_iff_getElem.mp (rest_in_order wellFormed)
    refine ordered _ _ ?_ ?_ ?_ precedes
    all_goals simp only [candidates, List.length_append, List.length_map] at inside ⊢
    all_goals omega

end History

namespace Registry

variable {operations : List Operation}

/-- Whatever is registered and promoted, a candidate precedes one that stands before it only
where both were promoted. The promoted ones stand in front, the last one first, all of one
priority; so the whole registry is in order exactly if they are. -/
theorem operate_keeps_order (defaults : Defaults)
    (placed : ∀ candidate ∈ operations.filterMap Operation.registered?,
      1 ≤ candidate.priority ∧ candidate.sortable) :
    let candidates := (operations.foldl operate { defaults }).candidates
    let promoted := (operations.foldl History.record {}).front
    candidates.take promoted.length = promoted.map (·.1.promoted) ∧
    (∀ (before behind : Nat) (_ : before < behind) (_ : behind < candidates.length),
      candidates[behind].order candidates[before] = .lt → behind < promoted.length) ∧
    (InOrder candidates ↔ InOrder (promoted.map (·.1.promoted))) := by
  intro candidates promoted
  obtain ⟨wellFormed, told⟩ := foldl_operate defaults placed
  have whole : candidates = promoted.map (·.1.promoted) ++
      (operations.foldl History.record {}).rest.map (·.1) := told
  refine ⟨?_, ?_, ?_⟩
  · rw [whole, List.take_left' (List.length_map _)]
  · intro before behind apart inside precedes
    simp only [candidates, told] at inside precedes
    exact History.ordered_behind_front wellFormed apart inside precedes
  · rw [whole, InOrder, List.pairwise_append]
    refine ⟨fun ordered => ordered.1, fun ordered => ⟨ordered, History.rest_in_order wellFormed, ?_⟩⟩
    intro left leftMember right rightMember
    exact History.front_stays wellFormed leftMember rightMember

/-- The disk is promoted before the drive, and a further disk comes in behind both. -/
def contrary : List Operation :=
  [.register (drivenAt .hardDisk 5), .register (drivenAt .cdRom 7), .promote 1, .promote 2,
    .register (drivenAt .hardDisk 5)]

theorem operate_keeps_order_contrary :
    (∀ candidate ∈ contrary.filterMap Operation.registered?, 1 ≤ candidate.priority ∧ candidate.sortable) ∧
      (contrary.foldl History.record {}).front = [(drivenAt .cdRom 7, 1), (drivenAt .hardDisk 5, 0)] ∧
      (contrary.foldl operate {}).candidates.take 2 = [drivenAt .cdRom 0, drivenAt .hardDisk 0] ∧
      ¬InOrder (contrary.foldl operate {}).candidates := by
  have placed : ∀ candidate ∈ contrary.filterMap Operation.registered?,
      1 ≤ candidate.priority ∧ candidate.sortable := by decide
  have front : (contrary.foldl History.record {}).front =
      [(drivenAt .cdRom 7, 1), (drivenAt .hardDisk 5, 0)] := by cbv
  obtain ⟨inFront, _, ordered⟩ := operate_keeps_order {} placed
  rw [front] at inFront ordered
  exact ⟨placed, front, inFront, fun kept => absurd (ordered.mp kept) (by decide)⟩

/-- Two promotions put a registry out of order: the disk goes before drives of its priority. -/
theorem promotions_break_order :
    ¬∀ (defaults : Defaults) (operations : List Operation),
      (∀ candidate ∈ operations.filterMap Operation.registered?,
        1 ≤ candidate.priority ∧ candidate.fits ∧ candidate.sortable) →
      let candidates := (operations.foldl operate { defaults }).candidates
      ∀ (before behind : Nat) (_ : before < behind) (_ : behind < candidates.length),
        candidates[behind].order candidates[before] ≠ .lt := by
  intro always
  let operations : List Operation :=
    [.register (drivenAt .hardDisk 5), .register (drivenAt .cdRom 7), .promote 1, .promote 2]
  exact always {} operations (by decide) 0 1 (by decide) (by decide) (by decide)

end Registry

end BootFlow
