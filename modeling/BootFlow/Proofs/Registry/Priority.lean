import BootFlow.Registry
import Mathlib.Order.Defs.Unbundled

namespace BootFlow

/-! Registration keeps the candidates sorted by their priorities, and the stop
mark parts them: its kind goes behind all others of its own priority. -/

/-- The candidates stand in the order of their priorities. -/
def Ranked (candidates : List Candidate) : Prop :=
  candidates.Pairwise fun left right => left.priority ≤ right.priority

/-- No candidate above a rank stands before one up to it. -/
def PartedAt (rank : Int) (candidates : List Candidate) : Prop :=
  candidates.Pairwise fun left right => right.priority ≤ rank → left.priority ≤ rank

theorem Ranked.partedAt {candidates : List Candidate} (ranked : Ranked candidates) (rank : Int) :
    PartedAt rank candidates :=
  ranked.imp fun below upTo => Int.le_trans below upTo

namespace Candidate

variable {left right : Candidate}

theorem priority_le_of_order_lt (precedes : left.order right = .lt) :
    left.priority ≤ right.priority := by
  cases compared : compare left.priority right.priority with
  | lt => exact Int.le_of_lt (Int.compare_eq_lt.mp compared)
  | eq => exact Int.le_of_eq (Int.compare_eq_eq.mp compared)
  | gt =>
      rw [order, compared] at precedes
      cases precedes

theorem priority_le_of_order_ne_lt (stays : left.order right ≠ .lt) :
    right.priority ≤ left.priority := by
  refine Int.compare_ne_lt.mp fun compared => stays ?_
  rw [order, compared]
  rfl

/-- Where a candidate is inserted: behind all that it does not precede, up to the
first that it does. -/
theorem insertInto_split (candidate : Candidate) (list : List Candidate) :
    ∃ before behind, list = before ++ behind ∧
      candidate.insertInto list = before ++ candidate :: behind ∧
      (∀ other ∈ before, candidate.order other ≠ .lt) ∧
      ∀ other, behind.head? = some other → candidate.order other = .lt := by
  induction list with
  | nil => exact ⟨[], [], rfl, rfl, by simp, by simp⟩
  | cons head rest ih =>
      unfold insertInto
      split
      case isTrue precedes => exact ⟨[], head :: rest, rfl, rfl, by simp, by simpa using precedes⟩
      case isFalse stays =>
          obtain ⟨before, behind, rfl, inserted, passed, stopped⟩ := ih
          refine ⟨head :: before, behind, rfl, by rw [inserted, List.cons_append], ?_, stopped⟩
          intro other member
          rcases List.mem_cons.mp member with rfl | later
          · exact stays
          · exact passed other later

theorem insertInto_perm (candidate : Candidate) (list : List Candidate) :
    (candidate.insertInto list).Perm (candidate :: list) := by
  obtain ⟨before, behind, rfl, inserted, -, -⟩ := candidate.insertInto_split list
  rw [inserted]
  exact List.perm_middle

theorem mem_insertInto {candidate other : Candidate} {list : List Candidate} :
    other ∈ candidate.insertInto list ↔ other = candidate ∨ other ∈ list :=
  (candidate.insertInto_perm list).mem_iff.trans List.mem_cons

theorem insertInto_pairwise {relation : Candidate → Candidate → Prop} [IsTrans Candidate relation]
    (follows : ∀ {left right}, left.priority ≤ right.priority → relation left right)
    (candidate : Candidate) {list : List Candidate} (related : list.Pairwise relation) :
    (candidate.insertInto list).Pairwise relation := by
  induction list with
  | nil => exact List.pairwise_singleton _ _
  | cons head rest ih =>
      obtain ⟨headFirst, restRelated⟩ := List.pairwise_cons.mp related
      unfold insertInto
      split
      case isTrue precedes =>
          have below := follows (priority_le_of_order_lt precedes)
          refine List.pairwise_cons.mpr ⟨fun other member => ?_, related⟩
          rcases List.mem_cons.mp member with rfl | later
          · exact below
          · exact IsTrans.trans _ _ _ below (headFirst other later)
      case isFalse stays =>
          refine List.pairwise_cons.mpr ⟨fun other member => ?_, ih restRelated⟩
          rcases mem_insertInto.mp member with rfl | later
          · exact follows (priority_le_of_order_ne_lt stays)
          · exact headFirst other later

theorem insertInto_ranked (candidate : Candidate) {list : List Candidate} (ranked : Ranked list) :
    Ranked (candidate.insertInto list) :=
  have : IsTrans Candidate fun left right => left.priority ≤ right.priority :=
    ⟨fun _ _ _ => Int.le_trans⟩
  candidate.insertInto_pairwise id ranked

theorem insertInto_partedAt (candidate : Candidate) {rank : Int} {list : List Candidate}
    (parted : PartedAt rank list) : PartedAt rank (candidate.insertInto list) :=
  have : IsTrans Candidate fun left right => right.priority ≤ rank → left.priority ≤ rank :=
    ⟨fun _ _ _ first second upTo => first (second upTo)⟩
  candidate.insertInto_pairwise (fun below upTo => Int.le_trans below upTo) parted

/-- Among equal priorities the stop mark goes behind. -/
theorem halt_order_lt_iff {rank : Int} {candidate : Candidate} (bootable : candidate.kind ≠ .halt) :
    (halt rank).order candidate = .lt ↔ rank < candidate.priority := by
  have codes : compare Kind.halt.code candidate.kind.code = .gt := by
    cases kind : candidate.kind with
    | halt => exact absurd kind bootable
    | floppy | hardDisk | cdRom | cbfs | bev | bcv => decide
  change (compare rank candidate.priority).then ((compare Kind.halt.code candidate.kind.code).then _) =
    .lt ↔ _
  rw [codes, ← Int.compare_eq_lt]
  cases compare rank candidate.priority <;> simp

theorem halt_insertInto_split {rank : Int} {list : List Candidate}
    (bootable : ∀ candidate ∈ list, candidate.kind ≠ .halt) :
    ∃ before behind, list = before ++ behind ∧ (halt rank).insertInto list = before ++ halt rank :: behind ∧
      (∀ candidate ∈ before, candidate.priority ≤ rank) ∧
      ∀ candidate, behind.head? = some candidate → rank < candidate.priority := by
  obtain ⟨before, behind, rfl, inserted, passed, stopped⟩ := (halt rank).insertInto_split list
  refine ⟨before, behind, rfl, inserted, fun candidate member => ?_, fun candidate first => ?_⟩
  · have stays := passed candidate member
    rw [Ne, halt_order_lt_iff (bootable candidate (List.mem_append_left _ member))] at stays
    exact Int.not_lt.mp stays
  · have member : candidate ∈ before ++ behind := List.mem_append_right _ (List.mem_of_head? first)
    exact (halt_order_lt_iff (bootable candidate member)).mp (stopped candidate first)

theorem above_of_partedAt {rank : Int} {list : List Candidate} (parted : PartedAt rank list)
    (first : ∀ candidate, list.head? = some candidate → rank < candidate.priority) :
    ∀ candidate ∈ list, rank < candidate.priority := by
  cases list with
  | nil => simp
  | cons head rest =>
      have above := first head rfl
      intro candidate member
      rcases List.mem_cons.mp member with rfl | later
      · exact above
      · have headFirst := (List.pairwise_cons.mp parted).1 candidate later
        exact Int.not_le.mp fun upTo => Int.not_le.mpr above (headFirst upTo)

/-- The stop mark stands behind the candidates up to its rank and before the others. -/
theorem halt_insertInto {rank : Int} {list : List Candidate} (parted : PartedAt rank list)
    (bootable : ∀ candidate ∈ list, candidate.kind ≠ .halt) :
    (halt rank).insertInto list =
      list.filter (·.priority ≤ rank) ++ halt rank :: list.filter (rank < ·.priority) := by
  obtain ⟨before, behind, rfl, inserted, upTo, first⟩ := halt_insertInto_split bootable
  have above := above_of_partedAt (List.pairwise_append.mp parted).2.1 first
  have lower : (before ++ behind).filter (·.priority ≤ rank) = before := by
    rw [List.filter_append, List.filter_eq_self.mpr (by simpa using upTo),
      List.filter_eq_nil_iff.mpr (by simpa using above), List.append_nil]
  have upper : (before ++ behind).filter (rank < ·.priority) = behind := by
    rw [List.filter_append, List.filter_eq_nil_iff.mpr (by simpa using upTo),
      List.filter_eq_self.mpr (by simpa using above), List.nil_append]
  rw [inserted, lower, upper]

end Candidate

namespace Registry

theorem insert_ranked {registry : Registry} (candidate : Candidate)
    (ranked : Ranked registry.candidates) : Ranked (registry.insert candidate).candidates :=
  candidate.insertInto_ranked ranked

/-- What every insertion keeps, any number of registrations keeps. -/
theorem foldl_insert_keeps {kept : List Candidate → Prop}
    (keeps : ∀ (candidate : Candidate) {list : List Candidate}, kept list → kept (candidate.insertInto list))
    {registry : Registry} (registered : List Candidate) (start : kept registry.candidates) :
    kept (registered.foldl insert registry).candidates := by
  induction registered generalizing registry with
  | nil => exact start
  | cons candidate others ih => exact ih (keeps candidate start)

theorem foldl_insert_ranked {registry : Registry} (registered : List Candidate)
    (ranked : Ranked registry.candidates) : Ranked (registered.foldl insert registry).candidates :=
  foldl_insert_keeps Candidate.insertInto_ranked registered ranked

theorem foldl_insert_perm (registry : Registry) (registered : List Candidate) :
    (registered.foldl insert registry).candidates.Perm (registered ++ registry.candidates) := by
  induction registered generalizing registry with
  | nil => exact .refl _
  | cons candidate others ih =>
      have inserted : (registry.insert candidate).candidates.Perm (candidate :: registry.candidates) :=
        candidate.insertInto_perm registry.candidates
      exact (ih _).trans ((inserted.append_left others).trans List.perm_middle)

end Registry

end BootFlow
