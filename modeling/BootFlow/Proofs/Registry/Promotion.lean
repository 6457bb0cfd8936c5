import BootFlow.Registry
import Mathlib.Data.List.InsertIdx

namespace BootFlow

/-! Promotion gives a candidate a new place and nothing else. So the places that
the candidates had before tell which of them stands where afterwards, even of
candidates that look alike. -/

/-- Moves the element at a position, counted from one, to the front. -/
def moveToFront {α : Type} (position : Nat) (list : List α) : List α :=
  match position with
  | 0 => list
  | index + 1 =>
      match list[index]? with
      | some element => element :: list.eraseIdx index
      | none => list

section

variable {α β : Type}

theorem map_moveToFront (f : α → β) (position : Nat) (list : List α) :
    (moveToFront position list).map f = moveToFront position (list.map f) := by
  cases position with
  | zero => rfl
  | succ index =>
      simp only [moveToFront, List.getElem?_map]
      cases list[index]? with
      | none => rfl
      | some element => rw [Option.map_some, List.map_cons, List.eraseIdx_map]

theorem map_foldl_moveToFront (f : α → β) (positions : List Nat) (list : List α) :
    (positions.foldl (fun list position => moveToFront position list) list).map f =
      positions.foldl (fun list position => moveToFront position list) (list.map f) := by
  induction positions generalizing list with
  | nil => rfl
  | cons position others ih => rw [List.foldl_cons, List.foldl_cons, ih, map_moveToFront]

theorem length_moveToFront (position : Nat) (list : List α) :
    (moveToFront position list).length = list.length := by
  cases position with
  | zero => rfl
  | succ index =>
      simp only [moveToFront]
      cases found : list[index]? with
      | none => rfl
      | some element =>
          obtain ⟨inside, _⟩ := List.getElem?_eq_some_iff.mp found
          simp only [List.length_cons, List.length_eraseIdx, inside, reduceIte]
          omega

theorem moveToFront_outside {position : Nat} {list : List α}
    (outside : position = 0 ∨ list.length < position) : moveToFront position list = list := by
  cases position with
  | zero => rfl
  | succ index =>
      have missing : list[index]? = none := by
        rw [List.getElem?_eq_none_iff]
        omega
      simp only [moveToFront, missing]

theorem getElem?_moveToFront {index : Nat} {list : List α} (inside : index < list.length) (place : Nat) :
    (moveToFront (index + 1) list)[place]? =
      if place = 0 then list[index]? else if place ≤ index then list[place - 1]? else list[place]? := by
  have found : list[index]? = some list[index] := List.getElem?_eq_getElem inside
  simp only [moveToFront, found]
  cases place with
  | zero => rfl
  | succ place =>
      rw [List.getElem?_cons_succ, List.getElem?_eraseIdx]
      by_cases shifted : place < index
      · rw [if_pos shifted, if_neg (by omega), if_pos (by omega)]
        rfl
      · rw [if_neg shifted, if_neg (by omega), if_neg (by omega)]

end

namespace Candidate

/-- The candidate as a promotion leaves it. -/
def promoted (candidate : Candidate) : Candidate := { candidate with priority := 0 }

end Candidate

namespace Registry

/-- Where the candidates of a registry come from after promotions: their former
positions, in order. -/
def standing (registry : Registry) (promotions : List Nat) : List Nat :=
  promotions.foldl (fun standing position => moveToFront position standing)
    (List.range' 1 registry.candidates.length)

theorem candidates_promote (registry : Registry) (position : Nat) :
    (registry.promote position).candidates.map Candidate.promoted =
      moveToFront position (registry.candidates.map Candidate.promoted) := by
  cases position with
  | zero => rfl
  | succ index =>
      rw [← map_moveToFront]
      simp only [promote, at?, moveToFront]
      cases registry.candidates[index]? <;> rfl

theorem length_promote (registry : Registry) (position : Nat) :
    (registry.promote position).candidates.length = registry.candidates.length := by
  have moved := congrArg List.length (candidates_promote registry position)
  rwa [List.length_map, length_moveToFront, List.length_map] at moved

theorem promote_outside {registry : Registry} {position : Nat}
    (outside : position = 0 ∨ registry.candidates.length < position) :
    registry.promote position = registry := by
  cases position with
  | zero => rfl
  | succ index =>
      have missing : registry.at? (index + 1) = none := by
        rw [at?, List.getElem?_eq_none_iff]
        omega
      simp only [promote, missing]

theorem first?_promote (registry : Registry) {position : Nat} (positive : 1 ≤ position) :
    (registry.promote position).first? =
      if position ≤ registry.candidates.length then (registry.at? position).map Candidate.promoted
      else registry.first? := by
  obtain ⟨index, rfl⟩ := Nat.exists_eq_add_of_le' positive
  by_cases inside : index + 1 ≤ registry.candidates.length
  · have found : registry.at? (index + 1) = some registry.candidates[index] :=
      List.getElem?_eq_getElem inside
    rw [if_pos inside]
    simp only [promote, found]
    rfl
  · rw [if_neg inside, promote_outside (.inr (Nat.lt_of_not_le inside))]

theorem candidates_foldl_promote (registry : Registry) (promotions : List Nat) :
    (promotions.foldl promote registry).candidates.map Candidate.promoted =
      promotions.foldl (fun list position => moveToFront position list)
        (registry.candidates.map Candidate.promoted) := by
  induction promotions generalizing registry with
  | nil => rfl
  | cons position others ih => rw [List.foldl_cons, List.foldl_cons, ih, candidates_promote]

theorem map_at?_range' (registry : Registry) :
    (List.range' 1 registry.candidates.length).map registry.at? = registry.candidates.map some := by
  refine List.ext_getElem? fun index => ?_
  rw [List.getElem?_map, List.getElem?_map]
  by_cases inside : index < registry.candidates.length
  · rw [List.getElem?_range' inside, Option.map_some, Nat.one_mul, Nat.add_comm, at?,
      List.getElem?_eq_getElem inside, Option.map_some]
  · rw [List.getElem?_eq_none (by simpa using inside), List.getElem?_eq_none (by simpa using inside)]
    rfl

/-- The positions name the candidates that stand there now. -/
theorem candidates_standing (registry : Registry) (promotions : List Nat) :
    (promotions.foldl promote registry).candidates.map (fun candidate => some candidate.promoted) =
      (registry.standing promotions).map fun position => (registry.at? position).map Candidate.promoted := by
  have enumerated : (List.range' 1 registry.candidates.length).map
        (fun position => (registry.at? position).map Candidate.promoted) =
      (registry.candidates.map Candidate.promoted).map some := by
    have listed := congrArg (List.map (Option.map Candidate.promoted)) registry.map_at?_range'
    simpa [Function.comp_def] using listed
  rw [standing, map_foldl_moveToFront, enumerated, ← map_foldl_moveToFront,
    ← candidates_foldl_promote, List.map_map]
  rfl

section

variable {registry : Registry} {position : Nat}

theorem getElem?_enumeration {count index : Nat} (inside : index < count) :
    (List.range' 1 count)[index]? = some (index + 1) := by
  rw [List.getElem?_range' inside, Nat.one_mul, Nat.add_comm]

theorem position_in_front (inside : 1 ≤ position ∧ position ≤ registry.candidates.length) :
    (registry.standing [position]).head? = some position := by
  obtain ⟨index, rfl⟩ := Nat.exists_eq_add_of_le' inside.1
  have found : index < (List.range' 1 registry.candidates.length).length := by
    rw [List.length_range']
    omega
  rw [standing, List.foldl_cons, List.foldl_nil, List.head?_eq_getElem?, getElem?_moveToFront found,
    if_pos rfl, getElem?_enumeration (by omega)]

theorem first_in_front (outside : position ≤ 1 ∨ registry.candidates.length < position) :
    (registry.standing [position]).head? = (List.range' 1 registry.candidates.length).head? := by
  by_cases one : position = 1 ∧ 1 ≤ registry.candidates.length
  · rw [position_in_front ⟨Nat.le_of_eq one.1.symm, one.1 ▸ one.2⟩, List.head?_eq_getElem?,
      getElem?_enumeration one.2, one.1]
  · have unmoved : position = 0 ∨ (List.range' 1 registry.candidates.length).length < position := by
      rw [List.length_range']
      omega
    rw [standing, List.foldl_cons, List.foldl_nil, moveToFront_outside unmoved]

/-- Behind an earlier promotion a position means what that one moved there. -/
theorem position_in_front_again {earlier : Nat}
    (inside : 1 ≤ position ∧ position ≤ registry.candidates.length) :
    (registry.standing [earlier, position]).head? = some (
      if 2 ≤ earlier ∧ earlier ≤ registry.candidates.length ∧ position ≤ earlier then
        if position = 1 then earlier else position - 1
      else position) := by
  obtain ⟨index, rfl⟩ := Nat.exists_eq_add_of_le' inside.1
  let enumeration := List.range' 1 registry.candidates.length
  have length : enumeration.length = registry.candidates.length := List.length_range'
  have moved : index < (moveToFront earlier enumeration).length := by
    rw [length_moveToFront, length]
    omega
  have front : (registry.standing [earlier, index + 1]).head? =
      (moveToFront earlier enumeration)[index]? := by
    rw [standing, List.foldl_cons, List.foldl_cons, List.foldl_nil, List.head?_eq_getElem?,
      getElem?_moveToFront moved, if_pos rfl]
  rw [front]
  by_cases outside : earlier = 0 ∨ registry.candidates.length < earlier
  · rw [moveToFront_outside (by rwa [length]), getElem?_enumeration (by omega), if_neg (by omega)]
  · obtain ⟨before, rfl⟩ := Nat.exists_eq_succ_of_ne_zero fun zero => outside (.inl zero)
    have found : before < enumeration.length := by
      rw [length]
      omega
    rw [getElem?_moveToFront found]
    -- What stood before the moved element is now one place further back.
    by_cases taken : index = 0
    · rw [if_pos taken, getElem?_enumeration (by omega)]
      split <;> simp <;> omega
    · rw [if_neg taken]
      by_cases shifted : index ≤ before
      · rw [if_pos shifted, getElem?_enumeration (by omega), if_pos (by omega), if_neg (by omega)]
        simp
        omega
      · rw [if_neg shifted, getElem?_enumeration (by omega), if_neg (by omega)]

end

end Registry

end BootFlow
