import BootFlow.Text
import Mathlib.Data.List.DropRight

namespace BootFlow.Text

/-! Lines end at line feeds and nowhere else. What blanks stand at the end of a line does not
show once the line is trimmed. -/

theorem lines_eq_splitOn (chars : List Char) : lines chars = chars.splitOn '\n' := by
  induction chars with
  | nil => rfl
  | cons c rest ih =>
      rw [lines, List.splitOn_cons_eq_if_modifyHead, ih]
      by_cases newline : c = '\n'
      · simp [newline]
      · cases parts : rest.splitOn '\n' with
        | nil => exact absurd parts (List.splitOn_ne_nil _ _)
        | cons first others => simp [newline]

theorem lines_append_newline (front back : List Char) :
    lines (front ++ '\n' :: back) = lines front ++ lines back := by
  simp only [lines_eq_splitOn, List.splitOn]
  exact List.splitOnP_append_cons front back (beq_self_eq_true '\n')

/-- Without a line feed, what follows a text belongs to its last line. -/
theorem lines_append_single (front : List Char) {more : List Char} (single : '\n' ∉ more) :
    ∃ before last, lines front = before ++ [last] ∧ lines (front ++ more) = before ++ [last ++ more] := by
  induction front with
  | nil =>
      refine ⟨[], [], rfl, ?_⟩
      rw [List.nil_append, lines_eq_splitOn, List.splitOn_eq_singleton single]
      rfl
  | cons c front ih =>
      obtain ⟨before, last, whole, longer⟩ := ih
      rw [List.cons_append, lines, lines, whole, longer]
      by_cases newline : c = '\n'
      · exact ⟨[] :: before, last, by simp [newline], by simp [newline]⟩
      · cases before with
        | nil => exact ⟨[], c :: last, by simp [newline], by simp [newline]⟩
        | cons first before => exact ⟨(c :: first) :: before, last, by simp [newline], by simp [newline]⟩

/-- A character that ends no line belongs to the first one. -/
theorem lines_cons_of_ne {c : Char} (rest : List Char) (inside : c ≠ '\n') :
    ∃ first others, lines rest = first :: others ∧ lines (c :: rest) = (c :: first) :: others := by
  cases parts : lines rest with
  | nil => exact absurd (lines_eq_splitOn rest ▸ parts) (List.splitOn_ne_nil _ _)
  | cons first others =>
      refine ⟨first, others, rfl, ?_⟩
      rw [lines, if_neg inside, parts]

theorem lines_cons_newline (rest : List Char) : lines ('\n' :: rest) = [] :: lines rest :=
  if_pos rfl

theorem length_lines (chars : List Char) : (lines chars).length = chars.count '\n' + 1 := by
  induction chars with
  | nil => rfl
  | cons c rest ih =>
      by_cases newline : c = '\n'
      · rw [newline, lines_cons_newline, List.length_cons, ih, List.count_cons_self]
      · obtain ⟨first, others, parts, longer⟩ := lines_cons_of_ne rest newline
        rw [longer, List.length_cons, List.count_cons_of_ne newline, ← ih, parts, List.length_cons]

theorem newline_not_mem_lines {chars line : List Char} (among : line ∈ lines chars) : '\n' ∉ line := by
  induction chars generalizing line with
  | nil => exact List.mem_singleton.mp among ▸ List.not_mem_nil
  | cons c rest ih =>
      by_cases newline : c = '\n'
      · rw [newline, lines_cons_newline] at among
        obtain rfl | later := List.mem_cons.mp among
        · exact List.not_mem_nil
        · exact ih later
      · obtain ⟨first, others, parts, longer⟩ := lines_cons_of_ne rest newline
        rw [parts] at ih
        rw [longer] at among
        obtain rfl | later := List.mem_cons.mp among
        · exact List.not_mem_cons_of_ne_of_not_mem (Ne.symm newline) (ih List.mem_cons_self)
        · exact ih (List.mem_cons_of_mem _ later)

/-- The characters of the lines are those of the text that are not line feeds. -/
theorem mem_lines_iff {c : Char} {chars : List Char} :
    (∃ line ∈ lines chars, c ∈ line) ↔ c ∈ chars ∧ c ≠ '\n' := by
  induction chars with
  | nil => simp [lines]
  | cons first rest ih =>
      by_cases newline : first = '\n'
      · have among : (∃ line ∈ lines (first :: rest), c ∈ line) ↔ ∃ line ∈ lines rest, c ∈ line := by
          simp [newline, lines_cons_newline]
        rw [among, ih, newline, List.mem_cons]
        tauto
      · obtain ⟨next, others, parts, longer⟩ := lines_cons_of_ne rest newline
        have among : (∃ line ∈ lines (first :: rest), c ∈ line) ↔ c = first ∨ ∃ line ∈ lines rest, c ∈ line := by
          simp [longer, parts, or_assoc]
        have inside : c = first → c ≠ '\n' := fun same => same ▸ newline
        rw [among, ih, List.mem_cons]
        tauto

theorem mem_of_mem_lines {c : Char} {chars line : List Char} (among : line ∈ lines chars) (member : c ∈ line) :
    c ∈ chars :=
  (mem_lines_iff.mp ⟨line, among, member⟩).1

theorem trimEnd_append_singleton (front : List Char) {last : Char} (visible : isBlank last = false) :
    trimEnd (front ++ [last]) = front ++ [last] := by
  rw [trimEnd, List.reverse_append, List.reverse_singleton, List.singleton_append,
    List.dropWhile_cons_of_neg (by simp [visible]), List.reverse_cons, List.reverse_reverse]

theorem trimEnd_append_blank (line : List Char) {blanks : List Char} (blank : ∀ c ∈ blanks, isBlank c = true) :
    trimEnd (line ++ blanks) = trimEnd line := by
  rw [trimEnd, List.reverse_append, List.dropWhile_append_of_pos, trimEnd]
  exact fun c member => blank c (List.mem_reverse.mp member)

theorem mem_of_mem_trimEnd {c : Char} {line : List Char} (member : c ∈ trimEnd line) : c ∈ line :=
  (List.rdropWhile_prefix isBlank line).mem member

theorem trimEnd_eq_nil_iff {line : List Char} : trimEnd line = [] ↔ ∀ c ∈ line, isBlank c = true :=
  List.rdropWhile_eq_nil_iff

theorem trimEnd_eq_self_iff {line : List Char} :
    trimEnd line = line ↔ ∀ last ∈ line.getLast?, isBlank last = false := by
  rw [show trimEnd line = line ↔ _ from List.rdropWhile_eq_self_iff]
  cases line with
  | nil => simp
  | cons c rest => simp [List.getLast?_eq_getLast_of_ne_nil]

theorem trimEnd_trimEnd (line : List Char) : trimEnd (trimEnd line) = trimEnd line :=
  List.rdropWhile_idempotent isBlank line

end BootFlow.Text
