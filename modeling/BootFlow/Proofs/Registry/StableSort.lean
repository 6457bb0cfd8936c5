import Mathlib.Data.List.Nodup
import Mathlib.Data.List.Sort

namespace BootFlow

/-! A stable sort by a key is settled by two things: the keys ascend, and
elements of one key stand as they stood before. So whatever keeps both is the
stable sort. -/

variable {α κ : Type} [LinearOrder κ]

/-- The order of keys, as sorting takes it. -/
def byKey (key : α → κ) (left right : α) : Bool :=
  decide (key left ≤ key right)

variable (key : α → κ)

theorem byKey_trans (first second third : α) (before : byKey key first second = true)
    (behind : byKey key second third = true) : byKey key first third = true := by
  simp only [byKey, decide_eq_true_eq] at before behind ⊢
  exact le_trans before behind

theorem byKey_total (left right : α) : (byKey key left right || byKey key right left) = true := by
  simp only [byKey, Bool.or_eq_true, decide_eq_true_eq]
  exact le_total _ _

theorem mergeSort_ascends (list : List α) :
    (list.mergeSort (byKey key)).Pairwise fun left right => key left ≤ key right := by
  have sorted := List.pairwise_mergeSort (byKey_trans key) (byKey_total key) list
  simpa only [byKey, decide_eq_true_eq] using sorted

theorem filter_key_mergeSort (chosen : κ) (list : List α) :
    (list.mergeSort (byKey key)).filter (key · = chosen) = list.filter (key · = chosen) := by
  induction list with
  | nil => simp
  | cons head rest ih =>
      obtain ⟨before, behind, whole, restSorted, smaller⟩ :=
        List.mergeSort_cons (byKey_trans key) (byKey_total key) head rest
      rw [restSorted, List.filter_append] at ih
      rw [whole, List.filter_append]
      by_cases same : key head = chosen
      · -- All that the sort puts before the head has smaller keys.
        have apart : before.filter (key · = chosen) = [] := by
          apply List.filter_eq_nil_iff.mpr
          intro other member
          have below := smaller other member
          simp only [byKey, Bool.not_eq_true', decide_eq_false_iff_not, not_le] at below
          simpa [same] using ne_of_lt (same ▸ below)
        rw [apart, List.nil_append] at ih
        simp [apart, same, ih]
      · simp [same, ih]

variable {key}

theorem mem_iff_of_filter_key {first second : List α}
    (same : ∀ chosen, first.filter (key · = chosen) = second.filter (key · = chosen)) (element : α) :
    element ∈ first ↔ element ∈ second := by
  have kept := congrArg (element ∈ ·) (same (key element))
  simpa [List.mem_filter] using kept

/-- Two lists with ascending keys are the same if each key has the same elements in
the same order. -/
theorem eq_of_ascending {first second : List α}
    (firstAscends : first.Pairwise fun left right => key left ≤ key right)
    (secondAscends : second.Pairwise fun left right => key left ≤ key right)
    (same : ∀ chosen, first.filter (key · = chosen) = second.filter (key · = chosen)) :
    first = second := by
  have shared := mem_iff_of_filter_key same
  induction first generalizing second with
  | nil =>
      cases second with
      | nil => rfl
      | cons head rest => exact nomatch (shared head).mpr (List.mem_cons_self ..)
  | cons left first ih =>
      cases second with
      | nil => exact nomatch (shared left).mp (List.mem_cons_self ..)
      | cons right second =>
          obtain ⟨leftFirst, firstRest⟩ := List.pairwise_cons.mp firstAscends
          obtain ⟨rightFirst, secondRest⟩ := List.pairwise_cons.mp secondAscends
          have forward : key left ≤ key right := by
            rcases List.mem_cons.mp ((shared right).mpr (List.mem_cons_self ..)) with rfl | later
            · exact le_refl _
            · exact leftFirst right later
          have backward : key right ≤ key left := by
            rcases List.mem_cons.mp ((shared left).mp (List.mem_cons_self ..)) with rfl | later
            · exact le_refl _
            · exact rightFirst left later
          have tie : key right = key left := le_antisymm backward forward
          have heads := same (key left)
          rw [List.filter_cons_of_pos (by simp), List.filter_cons_of_pos (by simp [tie])] at heads
          obtain ⟨rfl, _⟩ := List.cons.inj heads
          have sameRest (chosen : κ) : first.filter (key · = chosen) = second.filter (key · = chosen) := by
            have whole := same chosen
            by_cases counted : key left = chosen
            · simpa [counted] using whole
            · simpa [counted] using whole
          rw [ih firstRest secondRest sameRest (mem_iff_of_filter_key sameRest)]

theorem eq_mergeSort {sorted list : List α}
    (ascends : sorted.Pairwise fun left right => key left ≤ key right)
    (same : ∀ chosen, sorted.filter (key · = chosen) = list.filter (key · = chosen)) :
    sorted = list.mergeSort (byKey key) := by
  apply eq_of_ascending ascends (mergeSort_ascends key list)
  intro chosen
  rw [same chosen, filter_key_mergeSort]

/-- What is left out of a stable sort may as well be left out before it. -/
theorem filter_mergeSort (selected : α → Bool) (list : List α) :
    (list.mergeSort (byKey key)).filter selected = (list.filter selected).mergeSort (byKey key) := by
  apply eq_mergeSort ((mergeSort_ascends key list).filter selected)
  intro chosen
  rw [List.filter_comm, filter_key_mergeSort, List.filter_comm]

/-- Where no two keys are the same, the order before the sort does not matter. -/
theorem mergeSort_eq_of_perm {first second : List α} (listed : first.Perm second)
    (distinct : (second.map key).Nodup) :
    first.mergeSort (byKey key) = second.mergeSort (byKey key) := by
  have sorted : (first.mergeSort (byKey key)).Perm (second.mergeSort (byKey key)) :=
    (List.mergeSort_perm first _).trans (listed.trans (List.mergeSort_perm second _).symm)
  apply List.Perm.eq_of_pairwise _ (mergeSort_ascends key first) (mergeSort_ascends key second) sorted
  intro left right leftMember rightMember forward backward
  have inSecond : left ∈ second := listed.mem_iff.mp ((List.mergeSort_perm first _).mem_iff.mp leftMember)
  have alsoInSecond : right ∈ second := (List.mergeSort_perm second _).mem_iff.mp rightMember
  exact List.inj_on_of_nodup_map distinct inSecond alsoInSecond (le_antisymm forward backward)

end BootFlow
