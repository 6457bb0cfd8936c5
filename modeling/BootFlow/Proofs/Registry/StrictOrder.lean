import BootFlow.Enumeration
import BootFlow.Proofs.Platform.Action
import BootFlow.Proofs.Registry.Order
import BootFlow.Scripted.Board

namespace BootFlow

open Logging

/-! Candidates whose payloads do not go with their kinds may tie with two that do not tie with each
other. Preceding is a strict order all the same, and that is enough for a registry to stay in order. -/

theorem Drive.order_swap (left right : Drive) : right.order left = (left.order right).swap := by
  rw [order, order, Ordering.swap_then, Std.OrientedOrd.eq_swap (a := right.driveType),
    Std.OrientedOrd.eq_swap (a := right.controller)]

namespace Candidate

theorem DrivePrecedes.trans {first second third : Candidate} (before : first.DrivePrecedes second)
    (behind : second.DrivePrecedes third) : first.DrivePrecedes third := by
  obtain ⟨_, firstDrive, _, carried, shared, earlier⟩ := before
  obtain ⟨drives, _, thirdDrive, same, carries, later⟩ := behind
  obtain rfl := Payload.drive.inj (shared.symm.trans same)
  rw [Drive.order_eq_lt] at earlier later
  exact ⟨drives, firstDrive, thirdDrive, carried, carries, Drive.order_eq_lt.mpr (lt_trans earlier later)⟩

theorem order_lt_trans {first second third : Candidate} (before : first.order second = .lt)
    (behind : second.order third = .lt) : first.order third = .lt := by
  have upTo := priority_le_of_order_lt behind
  rw [order_eq_lt_iff] at before behind ⊢
  rcases before with lower | ⟨tie, before⟩
  · exact .inl (lt_of_lt_of_le lower upTo)
  rcases behind with lower | ⟨further, behind⟩
  · exact .inl (tie ▸ lower)
  refine .inr ⟨tie.trans further, ?_⟩
  rcases before with lower | ⟨sameKind, drives⟩
  · rcases behind with next | ⟨furtherKind, _⟩
    · exact .inl (UInt8.lt_trans lower next)
    · exact .inl (furtherKind ▸ lower)
  rcases behind with next | ⟨furtherKind, further⟩
  · exact .inl (sameKind ▸ next)
  · exact .inr ⟨sameKind.trans furtherKind, drives.trans further⟩

theorem order_swap (left right : Candidate) : right.order left = (left.order right).swap := by
  simp only [order, Ordering.swap_then, ← Std.OrientedOrd.eq_swap]
  by_cases sameKind : left.kind = right.kind
  · rw [sameKind]
    cases left.payload <;> cases right.payload <;> simp only [Ordering.swap_eq]
    rw [apply_ite Ordering.swap, Drive.order_swap, Ordering.swap_eq]
  · -- The kinds decide, so the payloads are not asked.
    have apart : compare right.kind.code left.kind.code ≠ .eq := by
      rw [Ne, Std.compare_eq_iff_eq, ← UInt8.toNat_inj, Kind.code_inj]
      exact Ne.symm sameKind
    cases codes : compare right.kind.code left.kind.code with
    | eq => exact absurd codes apart
    | lt | gt => rfl

/-- A drive, a disk that carries none, and a drive of a smaller type. -/
def mismatched : List Candidate :=
  [.drive ⟨1, 2, 0⟩, .none, .drive ⟨2, 1, 0⟩].map fun payload =>
    { kind := .hardDisk, priority := 5, payload, description := "?" }

theorem ties_not_transitive :
    ∃ first second third : Candidate,
      first.order second = .eq ∧ second.order third = .eq ∧ first.order third = .gt :=
  ⟨mismatched[0], mismatched[1], mismatched[2], by decide, by decide, by decide⟩

theorem not_precedes_of_precedes {left right : Candidate} (precedes : left.order right = .lt) :
    right.order left ≠ .lt := by
  rw [order_swap, precedes]
  exact nofun

/-- An insertion keeps a list in order: what stands behind the candidate does not precede it, for it
would precede the one that the candidate precedes. -/
theorem insertInto_inOrder (candidate : Candidate) {list : List Candidate} (ordered : InOrder list) :
    InOrder (candidate.insertInto list) := by
  obtain ⟨before, behind, rfl, inserted, passed, stopped⟩ := candidate.insertInto_split list
  obtain ⟨beforeOrdered, behindOrdered, across⟩ := List.pairwise_append.mp ordered
  rw [inserted]
  refine List.pairwise_append.mpr ⟨beforeOrdered, List.pairwise_cons.mpr ⟨?_, behindOrdered⟩, ?_⟩
  · cases behind with
    | nil => simp
    | cons head rest =>
        have precedes := stopped head rfl
        intro other member overtakes
        rcases List.mem_cons.mp member with rfl | later
        · exact not_precedes_of_precedes precedes overtakes
        · exact (List.pairwise_cons.mp behindOrdered).1 other later (order_lt_trans overtakes precedes)
  · intro left leftMember right rightMember
    rcases List.mem_cons.mp rightMember with rfl | later
    · exact passed left leftMember
    · exact across left leftMember right later

end Candidate

namespace Registry

variable {σ : Type} [Logging σ]

theorem register_all_answer (registry : Registry) (registered : List Candidate) (state : σ) :
    (registered.foldlM register registry state).1 = registered.foldl insert registry := by
  induction registered generalizing registry state with
  | nil => rfl
  | cons candidate others ih => exact ih _ _

/-- The candidates have one order with the numbers of their registrations, in which the registry shows
those of any first registrations. -/
theorem exists_standing (defaults : Defaults) (registered : List Candidate) :
    ∃ standing : List (Candidate × Nat), standing.Perm registered.zipIdx ∧ ∀ count,
      ((registered.take count).foldl insert { defaults }).candidates =
        (standing.filter (·.2 < count)).map (·.1) := by
  induction registered using List.reverseRecOn with
  | nil => exact ⟨[], .refl _, fun count => by simp⟩
  | append_singleton earlier last ih =>
      obtain ⟨standing, numbered, shown⟩ := ih
      have below (entry : Candidate × Nat) (member : entry ∈ standing) : entry.2 < earlier.length := by
        simpa using List.snd_lt_of_mem_zipIdx (numbered.mem_iff.mp member)
      have whole : (earlier.foldl insert { defaults }).candidates = standing.map (·.1) := by
        have all := shown earlier.length
        rwa [List.take_length, List.filter_eq_self.mpr fun entry member => by simpa using below entry member] at all
      obtain ⟨_, _, parted, inserted, -⟩ := last.insertInto_split (standing.map (·.1))
      obtain ⟨front, back, rfl, rfl, rfl⟩ := List.map_eq_append_iff.mp parted
      refine ⟨front ++ (last, earlier.length) :: back, ?_, fun count => ?_⟩
      · rw [List.zipIdx_append, Nat.zero_add, List.zipIdx_singleton]
        exact List.perm_middle.trans ((numbered.cons _).trans (List.perm_append_singleton _ _).symm)
      · by_cases early : count ≤ earlier.length
        · -- The last registration is not among these.
          rw [List.take_append_of_le_length early, shown count, List.filter_append, List.filter_append,
            List.filter_cons_of_neg (by simpa using early)]
        · have counted : ∀ entry ∈ front ++ (last, earlier.length) :: back, decide (entry.2 < count) = true := by
            intro entry member
            rw [decide_eq_true_eq]
            rcases List.mem_cons.mp (List.perm_middle.mem_iff.mp member) with rfl | among
            · exact Nat.lt_of_not_le early
            · exact Nat.lt_trans (below entry among) (Nat.lt_of_not_le early)
          rw [List.take_of_length_le (by simp; omega), List.foldl_append, List.foldl_cons, List.foldl_nil, insert,
            whole, inserted, List.filter_eq_self.mpr counted]
          simp

/-- However many arbitrary candidates are registered, none precedes one that stands before it, and
their priorities ascend. They keep the order in which they stand while others come in between. Preceding
is a strict order, though ties are not transitive. -/
theorem registrations_in_order (defaults : Defaults) (registered : List Candidate) (state : σ) :
    let after (count : Nat) := ((registered.take count).foldlM register { defaults } state).1.candidates
    (∀ count, InOrder (after count) ∧ Ranked (after count) ∧ (after count).Perm (registered.take count)) ∧
    (∃ standing : List (Candidate × Nat), standing.Perm registered.zipIdx ∧
      ∀ count, after count = (standing.filter (·.2 < count)).map (·.1)) ∧
    (∀ left right : Candidate, right.order left = (left.order right).swap) ∧
    (∀ first second third : Candidate, first.order second = .lt → second.order third = .lt →
      first.order third = .lt) ∧
    ∃ first second third : Candidate,
      first.order second = .eq ∧ second.order third = .eq ∧ first.order third ≠ .eq := by
  intro after
  have told (count : Nat) : after count = ((registered.take count).foldl insert { defaults }).candidates :=
    congrArg candidates (register_all_answer _ _ state)
  refine ⟨fun count => ?_, ?_, Candidate.order_swap, fun _ _ _ => Candidate.order_lt_trans, ?_⟩
  · rw [told]
    refine ⟨foldl_insert_keeps Candidate.insertInto_inOrder _ .nil, foldl_insert_ranked _ .nil, ?_⟩
    simpa using foldl_insert_perm { defaults } (registered.take count)
  · obtain ⟨standing, numbered, shown⟩ := exists_standing defaults registered
    exact ⟨standing, numbered, fun count => (told count).trans (shown count)⟩
  · obtain ⟨first, second, third, tie, further, apart⟩ := Candidate.ties_not_transitive
    exact ⟨first, second, third, tie, further, by simp [apart]⟩

/-- The last drive goes before the first, behind which stays the disk that ties with both. -/
theorem registrations_in_order_mismatched :
    let registry := (Candidate.mismatched.foldlM register {} ({} : Scripted.Board)).1
    registry.candidates.map (·.payload) = [.drive ⟨2, 1, 0⟩, .drive ⟨1, 2, 0⟩, .none] ∧
      InOrder registry.candidates ∧ Ranked registry.candidates := by
  obtain ⟨kept, -⟩ := registrations_in_order {} Candidate.mismatched ({} : Scripted.Board)
  obtain ⟨ordered, ranked, -⟩ := kept 3
  exact ⟨by decide +kernel, ordered, ranked⟩

end Registry

end BootFlow
