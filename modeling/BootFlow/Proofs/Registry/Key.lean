import BootFlow.Proofs.Registry.Priority
import BootFlow.Proofs.Registry.StableSort
import Mathlib.Data.List.Induction
import Mathlib.Data.Prod.Lex

namespace BootFlow

/-! Candidates that have what their kind is compared by are sorted by a key. An
insertion that goes before the first greater key keeps the stable sort. -/

namespace Candidate

/-- A candidate of a drive kind carries a drive. The other kinds are not told
apart by their payloads. -/
def sortable (candidate : Candidate) : Bool :=
  match candidate.payload with
  | .drive _ => true
  | _ => !candidate.kind.isDrive

/-- Drive type and controller, where the kind is one of drives. -/
def driveKey (candidate : Candidate) : ℕ ×ₗ ℕ :=
  match candidate.payload with
  | .drive drive =>
      if candidate.kind.isDrive then toLex (drive.driveType.toNat, drive.controller.toNat)
      else toLex (0, 0)
  | _ => toLex (0, 0)

def key (candidate : Candidate) : Int ×ₗ ℕ ×ₗ ℕ ×ₗ ℕ :=
  toLex (candidate.priority, toLex (candidate.kind.code.toNat, candidate.driveKey))

end Candidate

theorem Kind.code_inj {left right : Kind} : left.code.toNat = right.code.toNat ↔ left = right := by
  cases left <;> cases right <;> decide

theorem Drive.order_eq_lt {left right : Drive} :
    left.order right = .lt ↔
      toLex (left.driveType.toNat, left.controller.toNat) <
        toLex (right.driveType.toNat, right.controller.toNat) := by
  simp only [order, Ordering.then_eq_lt, Std.compare_eq_lt, Std.compare_eq_iff_eq,
    Prod.Lex.toLex_lt_toLex, UInt8.lt_iff_toNat_lt, UInt32.lt_iff_toNat_lt, UInt8.toNat_inj]

namespace Candidate

variable {left right : Candidate}

/-- Both are of one drive kind and carry drives, of which one goes first. -/
def DrivePrecedes (left right : Candidate) : Prop :=
  right.kind.isDrive ∧ ∃ first second, left.payload = .drive first ∧ right.payload = .drive second ∧
    first.order second = .lt

theorem order_eq_lt_iff :
    left.order right = .lt ↔ left.priority < right.priority ∨ left.priority = right.priority ∧
      (left.kind.code < right.kind.code ∨ left.kind = right.kind ∧ left.DrivePrecedes right) := by
  simp only [order, Ordering.then_eq_lt, Std.compare_eq_lt, Std.compare_eq_iff_eq, ← UInt8.toNat_inj, Kind.code_inj]
  refine or_congr_right (and_congr_right fun _ => or_congr_right (and_congr_right fun sameKind => ?_))
  rw [sameKind, DrivePrecedes]
  cases left.payload <;> cases right.payload <;> cases right.kind.isDrive <;> simp

theorem order_eq_lt (leftSortable : left.sortable) (rightSortable : right.sortable) :
    left.order right = .lt ↔ left.key < right.key := by
  rw [order_eq_lt_iff]
  simp only [key, Prod.Lex.toLex_lt_toLex, UInt8.lt_iff_toNat_lt, Kind.code_inj]
  refine or_congr_right (and_congr_right fun _ => or_congr_right (and_congr_right fun sameKind => ?_))
  -- Only the drives are left to settle a tie.
  cases leftPayload : left.payload <;> cases rightPayload : right.payload <;>
    cases drives : right.kind.isDrive <;>
    simp_all [sortable, driveKey, DrivePrecedes, Drive.order_eq_lt]

theorem insertInto_append {candidate : Candidate} {before : List Candidate}
    (passed : ∀ other ∈ before, candidate.order other ≠ .lt) (behind : List Candidate) :
    candidate.insertInto (before ++ behind) = before ++ candidate.insertInto behind := by
  induction before with
  | nil => rfl
  | cons head before ih =>
      have stays : candidate.order head ≠ .lt := passed head (List.mem_cons_self ..)
      rw [List.cons_append, insertInto, if_neg stays,
        ih fun other member => passed other (List.mem_cons_of_mem _ member), List.cons_append]

/-- Among ascending keys the insertion goes behind the keys up to its own and before
the greater ones. -/
theorem insertInto_ascending {candidate : Candidate} {list : List Candidate}
    (sortable : candidate.sortable ∧ ∀ other ∈ list, other.sortable)
    (ascends : list.Pairwise fun left right => left.key ≤ right.key) :
    ∃ before behind, list = before ++ behind ∧
      candidate.insertInto list = before ++ candidate :: behind ∧
      (∀ other ∈ before, other.key ≤ candidate.key) ∧
      ∀ other ∈ behind, candidate.key < other.key := by
  obtain ⟨before, behind, rfl, inserted, passed, stopped⟩ := candidate.insertInto_split list
  have comparable (other : Candidate) (member : other ∈ before ++ behind) :
      candidate.order other = .lt ↔ candidate.key < other.key :=
    order_eq_lt sortable.1 (sortable.2 other member)
  refine ⟨before, behind, rfl, inserted, ?_, ?_⟩
  · intro other member
    have stays := passed other member
    rw [Ne, comparable other (List.mem_append_left _ member)] at stays
    exact not_lt.mp stays
  · cases behind with
    | nil => simp
    | cons head rest =>
        have belowHead := (comparable head (by simp)).mp (stopped head rfl)
        have headFirst := (List.pairwise_cons.mp (List.pairwise_append.mp ascends).2.1).1
        intro other member
        rcases List.mem_cons.mp member with rfl | later
        · exact belowHead
        · exact lt_of_lt_of_le belowHead (headFirst other later)

/-- The last of the candidates to be sorted may as well be inserted after the sort. -/
theorem insertInto_mergeSort {candidate : Candidate} {list : List Candidate}
    (sortable : ∀ other ∈ list ++ [candidate], other.sortable) :
    candidate.insertInto (list.mergeSort (byKey key)) = (list ++ [candidate]).mergeSort (byKey key) := by
  have ascends := mergeSort_ascends key list
  have sortedSortable (other : Candidate) (member : other ∈ list.mergeSort (byKey key)) : other.sortable :=
    sortable other (List.mem_append_left _ ((List.mergeSort_perm list _).mem_iff.mp member))
  obtain ⟨before, behind, whole, inserted, upTo, above⟩ :=
    insertInto_ascending ⟨sortable candidate (by simp), sortedSortable⟩ ascends
  rw [whole] at ascends
  obtain ⟨beforeAscends, behindAscends, across⟩ := List.pairwise_append.mp ascends
  rw [inserted]
  apply eq_mergeSort
  · refine List.pairwise_append.mpr ⟨beforeAscends, ?_, ?_⟩
    · exact List.pairwise_cons.mpr ⟨fun other member => le_of_lt (above other member), behindAscends⟩
    · intro left leftMember right rightMember
      rcases List.mem_cons.mp rightMember with rfl | later
      · exact upTo left leftMember
      · exact across left leftMember right later
  · intro chosen
    have kept := filter_key_mergeSort key chosen list
    rw [whole, List.filter_append] at kept
    rw [List.filter_append, List.filter_append, ← kept]
    by_cases same : candidate.key = chosen
    · -- The candidates behind have greater keys, so this one is the last of its key.
      have none : behind.filter (key · = chosen) = [] := by
        apply List.filter_eq_nil_iff.mpr
        intro other member
        simpa [← same] using ne_of_gt (above other member)
      simp [same, none]
    · simp [same]

end Candidate

namespace Registry

theorem candidates_foldl_insert (defaults : Defaults) {registered : List Candidate}
    (sortable : ∀ candidate ∈ registered, candidate.sortable) :
    (registered.foldl insert { defaults }).candidates = registered.mergeSort (byKey Candidate.key) := by
  induction registered using List.reverseRecOn with
  | nil => simp
  | append_singleton earlier last ih =>
      have inserted := Candidate.insertInto_mergeSort sortable
      rw [List.foldl_append, List.foldl_cons, List.foldl_nil, insert, ← inserted,
        ih fun candidate member => sortable candidate (List.mem_append_left _ member)]

end Registry

end BootFlow
