import BootFlow.Proofs.Order.Rank
import Mathlib.Data.List.Forall2

namespace BootFlow.BootOrder

open Text

/-! What a boot order keeps of its text. The entries, written out a line each, are again a text
of the same boot order, so they stand for all texts that say the same. -/

/-- The text that has the entries for its lines. -/
def text (order : BootOrder) : String :=
  String.intercalate "\n" order.entries

/-- A text without content. -/
def Blank (raw : String) : Prop :=
  ∀ c ∈ raw.toList, isBlank c = true

/-- A line that ends with a visible character, or is empty. -/
def Trimmed (line : String) : Prop :=
  ∀ last ∈ line.toList.getLast?, isBlank last = false

/-- What can be read from a text: trimmed lines, of which one at least has content. -/
structure IsNormal (order : BootOrder) : Prop where
  single : ∀ entry ∈ order.entries, '\n' ∉ entry.toList
  trimmed : ∀ entry ∈ order.entries, Trimmed entry
  content : order.entries = [] ∨ ∃ entry ∈ order.entries, entry ≠ ""

variable {raw : String} {order : BootOrder}

theorem trimmed_iff {line : String} : Trimmed line ↔ String.ofList (trimEnd line.toList) = line := by
  rw [Trimmed, ← trimEnd_eq_self_iff, ← String.toList_inj, String.toList_ofList]

theorem trimmed_ofList_trimEnd (line : List Char) : Trimmed (String.ofList (trimEnd line)) := by
  rw [trimmed_iff, String.toList_ofList, trimEnd_trimEnd]

theorem length_textLines (raw : String) : (textLines raw).length = raw.toList.count '\n' + 1 := by
  rw [textLines, List.length_map, length_lines]

theorem single_of_mem_textLines {line : String} (member : line ∈ textLines raw) : '\n' ∉ line.toList := by
  obtain ⟨chars, among, rfl⟩ := List.mem_map.mp member
  rw [String.toList_ofList]
  exact fun newline => newline_not_mem_lines among (mem_of_mem_trimEnd newline)

theorem trimmed_of_mem_textLines {line : String} (member : line ∈ textLines raw) : Trimmed line := by
  obtain ⟨chars, _, rfl⟩ := List.mem_map.mp member
  exact trimmed_ofList_trimEnd chars

/-- A text is blank if its lines are, for the line feeds between them are blanks too. -/
theorem blank_iff_textLines : Blank raw ↔ ∀ line ∈ textLines raw, line = "" := by
  simp only [Blank, textLines, List.forall_mem_map, String.ofList_eq_empty_iff, trimEnd_eq_nil_iff]
  constructor
  · intro blank line among c member
    exact blank c (mem_of_mem_lines among member)
  · intro blank c member
    by_cases newline : c = '\n'
    · rw [newline]
      decide
    · obtain ⟨line, among, inside⟩ := mem_lines_iff.mpr ⟨member, newline⟩
      exact blank line among c inside

theorem entries_parse_blank (blank : Blank raw) : (parse raw).entries = [] :=
  if_pos (List.all_eq_true.mpr blank)

theorem entries_parse_content (content : ¬Blank raw) : (parse raw).entries = textLines raw :=
  if_neg (content ∘ List.all_eq_true.mp)

theorem entries_parse_eq_nil_iff : (parse raw).entries = [] ↔ Blank raw := by
  refine ⟨fun none => ?_, entries_parse_blank⟩
  by_contra content
  rw [entries_parse_content content, ← List.length_eq_zero_iff, length_textLines] at none
  exact Nat.succ_ne_zero _ none

theorem isNormal_parse (raw : String) : (parse raw).IsNormal := by
  by_cases blank : Blank raw
  · have none := entries_parse_blank blank
    exact ⟨by simp [none], by simp [none], .inl none⟩
  · have all := entries_parse_content blank
    rw [blank_iff_textLines] at blank
    push Not at blank
    exact ⟨all ▸ fun _ => single_of_mem_textLines, all ▸ fun _ => trimmed_of_mem_textLines, all ▸ .inr blank⟩

theorem textLines_text (normal : order.IsNormal) (some : order.entries ≠ []) :
    textLines order.text = order.entries := by
  have parted : lines order.text.toList = order.entries.map String.toList := by
    rw [text, String.toList_intercalate, lines_eq_splitOn]
    exact List.splitOn_intercalate '\n' (List.forall_mem_map.mpr normal.single) (by simpa using some)
  rw [textLines, parted, List.map_map]
  exact (List.map_congr_left fun entry member => trimmed_iff.mp (normal.trimmed entry member)).trans (List.map_id _)

theorem parse_text (normal : order.IsNormal) : parse order.text = order := by
  cases normal.content with
  | inl none =>
      rw [text, none]
      exact congrArg BootOrder.mk none.symm
  | inr content =>
      obtain ⟨entry, member, visible⟩ := content
      have lined := textLines_text normal (List.ne_nil_of_mem member)
      have unblank : ¬Blank order.text := by
        rw [blank_iff_textLines, lined]
        exact fun blank => visible (blank entry member)
      exact congrArg BootOrder.mk ((entries_parse_content unblank).trans lined)

/-- The boot orders that can be read are those that can be written out and read again. -/
theorem parse_text_iff : parse order.text = order ↔ order.IsNormal := by
  constructor
  · intro again
    exact again ▸ isNormal_parse order.text
  · exact parse_text

/-- Lines that end in a visible character are read as they are. -/
theorem entries_parse {texts : List String} (single : ∀ text ∈ texts, '\n' ∉ text.toList)
    (visible : ∀ text ∈ texts, ∃ front last, text.toList = front ++ [last] ∧ isBlank last = false) :
    (parse (String.intercalate "\n" texts)).entries = texts := by
  have normal : (BootOrder.mk texts).IsNormal := by
    refine ⟨single, fun text member last ending => ?_, ?_⟩
    · obtain ⟨front, last', split, seen⟩ := visible text member
      rw [split, List.getLast?_concat] at ending
      exact Option.some.inj ending ▸ seen
    · cases texts with
      | nil => exact .inl rfl
      | cons text others =>
          obtain ⟨front, last, split, _⟩ := visible text List.mem_cons_self
          exact .inr ⟨text, List.mem_cons_self, fun empty => by simp [empty] at split⟩
  exact congrArg entries (parse_text normal)

theorem textLines_eq_iff {first second : String} :
    textLines first = textLines second ↔ List.Forall₂ (fun line other => trimEnd line = trimEnd other)
      (first.toList.splitOn '\n') (second.toList.splitOn '\n') := by
  rw [textLines, textLines, ← List.forall₂_eq_eq_eq, List.forall₂_map_left_iff, List.forall₂_map_right_iff]
  simp only [lines_eq_splitOn, String.ofList_inj]

/-- Blank texts aside, texts are read alike if their lines, once trimmed, are the same. -/
theorem parse_eq_parse_iff {first second : String} :
    parse first = parse second ↔ Blank first ∧ Blank second ∨ textLines first = textLines second := by
  constructor
  · intro same
    by_cases blank : Blank first
    · exact .inl ⟨blank, entries_parse_eq_nil_iff.mp (same ▸ entries_parse_blank blank)⟩
    · have content : ¬Blank second := fun blank' =>
        blank (entries_parse_eq_nil_iff.mp (same ▸ entries_parse_blank blank'))
      exact .inr (by rw [← entries_parse_content blank, same, entries_parse_content content])
  · intro alike
    suffices entries : (parse first).entries = (parse second).entries from congrArg BootOrder.mk entries
    obtain ⟨blank, blank'⟩ | same := alike
    · rw [entries_parse_blank blank, entries_parse_blank blank']
    · have both : Blank first ↔ Blank second := by rw [blank_iff_textLines, same, blank_iff_textLines]
      by_cases blank : Blank first
      · rw [entries_parse_blank blank, entries_parse_blank (both.mp blank)]
      · rw [entries_parse_content blank, entries_parse_content (blank ∘ both.mpr), same]

theorem length_entries_parse (raw : String) :
    (parse raw).entries.length = if raw.toList.all isBlank then 0 else raw.toList.count '\n' + 1 := by
  split
  · rename_i blank
    rw [entries_parse_blank (List.all_eq_true.mp blank), List.length_nil]
  · rename_i content
    rw [entries_parse_content (content ∘ List.all_eq_true.mpr), length_textLines]

/-- The entries are the lines of the text, each as it is without the blanks at its end. Written
out a line each they give the same boot order, and so does no text whose lines differ in more
than those blanks. -/
theorem normal_form (raw : String) :
    (∀ entry ∈ (parse raw).entries,
      '\n' ∉ entry.toList ∧ ∀ last ∈ entry.toList.getLast?, isBlank last = false) ∧
    (parse raw).entries.length = (if raw.toList.all isBlank then 0 else raw.toList.count '\n' + 1) ∧
    parse (String.intercalate "\n" (parse raw).entries) = parse raw ∧
    ∀ other : String, parse raw = parse other ↔
      (∀ c ∈ raw.toList, isBlank c = true) ∧ (∀ c ∈ other.toList, isBlank c = true) ∨
        List.Forall₂ (fun line line' => trimEnd line = trimEnd line')
          (raw.toList.splitOn '\n') (other.toList.splitOn '\n') := by
  have normal := isNormal_parse raw
  refine ⟨fun entry member => ⟨normal.single entry member, normal.trimmed entry member⟩,
    length_entries_parse raw, parse_text normal, fun other => ?_⟩
  rw [parse_eq_parse_iff, textLines_eq_iff, Blank, Blank]

/-- With a carriage return on each line, a line of blanks, and a line feed at the end. -/
theorem normal_form_returns :
    let raw := "/rom@a\r\n \t\r\nHALT\r\n"
    (parse raw).entries = ["/rom@a", "", "HALT", ""] ∧
      parse (String.intercalate "\n" ["/rom@a", "", "HALT", ""]) = parse raw ∧
      parse raw ≠ parse "/rom@a\n\nHALT" := by
  intro raw
  have entries : (parse raw).entries = ["/rom@a", "", "HALT", ""] := by decide
  obtain ⟨_, _, again, alike⟩ := normal_form raw
  rw [entries] at again
  refine ⟨entries, again, fun same => ?_⟩
  obtain ⟨blank, _⟩ | agree := (alike "/rom@a\n\nHALT").mp same
  · exact absurd (blank 'r' (by decide)) (by decide)
  · exact absurd agree.length_eq (by decide)

end BootFlow.BootOrder
