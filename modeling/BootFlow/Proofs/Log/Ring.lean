import BootFlow.Log
import BootFlow.Proofs.Text.Utf8
import Mathlib.Data.List.DropRight

namespace BootFlow.Log

/-! The ring of the log is the end of a log that forgets nothing. Each of its lines is the start
of a text, cut behind the last character that has room. -/

open Text

theorem Line.foldl_put_full {line : Line} (full : line.full = true) (chars : List Char) :
    chars.foldl Line.put line = line := by
  induction chars with
  | nil => rfl
  | cons c rest ih => rw [List.foldl_cons, Line.put, if_pos full, ih]

/-- A line that is not full yet goes on with what fits into the rest of its width. -/
theorem Line.foldl_put_text {line : Line} (unfilled : line.full = false) (chars : List Char) :
    (chars.foldl Line.put line).text =
      line.text ++ String.ofList (takeBytes (lineWidth - line.text.utf8ByteSize) chars) := by
  induction chars generalizing line with
  | nil => exact String.append_empty.symm
  | cons c rest ih =>
      have positive := c.utf8Size_pos
      rw [List.foldl_cons, Line.put, if_neg (by simp [unfilled])]
      by_cases room : line.text.utf8ByteSize + c.utf8Size ≤ lineWidth
      · have longer := @ih { line with text := line.text.push c } unfilled
        rw [if_pos room, longer, takeBytes, if_pos (by omega), String.utf8ByteSize_push, Nat.sub_add_eq,
          String.ofList_cons, String.push_eq_append, String.append_assoc]
      · rw [if_neg room, Line.foldl_put_full rfl, takeBytes, if_neg (by omega)]
        exact String.append_empty.symm

theorem storedLine_eq (pieces : List String) :
    storedLine pieces = String.ofList (takeBytes lineWidth (String.join pieces).toList) := by
  have together : pieces.foldl Line.write {} = (String.join pieces).toList.foldl Line.put {} := by
    rw [String.toList_join, List.foldl_flatMap]
    rfl
  rw [storedLine, together, Line.foldl_put_text rfl]
  exact String.empty_append

/-- The ring holds the end of this history, and has counted all of it. -/
structure Ring.EndOf (ring : Ring) (history : List (List String)) : Prop where
  lines : ring.lines = (history.map storedLine).rtake capacity
  total : ring.total = history.length

namespace Ring

variable {ring : Ring} {history : List (List String)}

theorem EndOf.length (ends : ring.EndOf history) : ring.lines.length = min capacity ring.total := by
  rw [ends.lines, ends.total, List.rtake, List.length_drop, List.length_map]
  omega

/-- Giving up the oldest line of a full ring leaves all but one of the slots. -/
theorem EndOf.room (ends : ring.EndOf history) :
    (if ring.lines.length < capacity then ring.lines else ring.lines.drop 1) =
      (history.map storedLine).rtake (capacity - 1) := by
  have length := ends.length
  rw [ends.total] at length
  rw [length, ends.lines, List.rtake, List.rtake, List.length_map]
  split
  · rw [Nat.sub_eq_zero_of_le (by omega), Nat.sub_eq_zero_of_le (by omega)]
  · rw [List.drop_drop]
    congr 1
    have positive : 1 ≤ capacity := by decide
    omega

theorem EndOf.push (ends : ring.EndOf history) (pieces : List String) :
    (ring.push pieces).EndOf (history ++ [pieces]) where
  lines := by
    change _ ++ [storedLine pieces] = _
    rw [ends.room, List.map_append, List.map_singleton]
    exact (List.rtake_concat_succ _ (capacity - 1) _).symm
  total := by
    change ring.total + 1 = _
    rw [ends.total, List.length_append]
    rfl

theorem foldl_push_endOf (ends : ring.EndOf history) (more : List (List String)) :
    (more.foldl Ring.push ring).EndOf (history ++ more) := by
  induction more generalizing ring history with
  | nil => rwa [List.append_nil]
  | cons pieces more ih =>
      rw [List.append_cons]
      exact ih (ends.push pieces)

theorem EndOf.last (ends : ring.EndOf history) (count : Nat) :
    ring.last count = (history.map storedLine).rtake (min count ring.lines.length) := by
  have length := ends.length
  rw [ends.total] at length
  rw [Ring.last, length, ends.lines, List.rtake, List.rtake, List.drop_drop, List.length_map]
  congr 1
  omega

/-- Whatever was written to a new ring, it shows the end of all of it, as far as it has slots.
Each line is the longest start of its text that a slot takes, and how the text was cut into pieces
makes no difference. -/
theorem shows_history_end (history : List (List String)) :
    let ring : Ring := history.foldl Ring.push {}
    ring.total = history.length ∧ ring.lines.length = min capacity ring.total ∧
      (∀ count, ring.last count = (history.map storedLine).rtake (min count ring.lines.length)) ∧
      (∀ pieces, LongestStart lineWidth (String.join pieces) (storedLine pieces)) ∧
      ∀ pieces, storedLine pieces = storedLine [String.join pieces] := by
  have empty : ({} : Ring).EndOf [] := ⟨rfl, rfl⟩
  have ends := foldl_push_endOf empty history
  rw [List.nil_append] at ends
  refine ⟨ends.total, ends.length, ends.last, fun pieces => ?_, fun pieces => ?_⟩
  · rw [storedLine_eq]
    exact takeBytes_longest lineWidth (String.join pieces)
  · have single : String.join [String.join pieces] = String.join pieces := String.empty_append
    rw [storedLine_eq, storedLine_eq, single]

/-- A character without room closes its line to the shorter one behind it. -/
example : storedLine [String.ofList (List.replicate 95 'x') ++ "é", "y"] = String.ofList (List.replicate 95 'x') := by
  decide +kernel

end Ring

end BootFlow.Log
