import BootFlow.Order
import BootFlow.Proofs.Order.Segment
import Mathlib.Data.List.Forall2

namespace BootFlow

open Segment Text

/-! A line of the boot order that is about one device holds the path of the device, with
names in the places that the path leaves open. -/

/-- A label that the boot order gives, in place of a star. -/
structure Name extends Label where
  literal : toLabel.IsLiteral

/-- The pattern with a name in place of each star. -/
def fill (names : Nat → Name) : List Char → List Char
  | [] => []
  | c :: pattern =>
      if c = '*' then (names 0).text.toList ++ fill (fun star => names (star + 1)) pattern
      else c :: fill names pattern

theorem fill_literal (names : Nat → Name) {front : List Char} (literal : '*' ∉ front) (back : List Char) :
    fill names (front ++ back) = front ++ fill names back := by
  induction front with
  | nil => rfl
  | cons c front ih =>
      rw [List.mem_cons, not_or] at literal
      rw [List.cons_append, fill, if_neg (Ne.symm literal.1), ih literal.2, List.cons_append]

namespace Segment

/-- The second segment is the first one, with a name in place of a star. -/
def Filled (pattern segment : Segment) : Prop :=
  segment.unit = pattern.unit ∧ segment.label.IsLiteral ∧
    (pattern.label = .star ∨ segment.label = pattern.label)

/-- Labels are literal or left open as a whole. -/
def Open (pattern : Segment) : Prop :=
  pattern.label = .star ∨ pattern.label.IsLiteral

theorem toList_text (segment : Segment) :
    segment.text.toList = '/' :: (segment.label.text.toList ++ '@' :: segment.unit.text.toList) := by
  simp [text, body]

theorem fill_segment (names : Nat → Name) {pattern : Segment} (opened : pattern.Open) (back : List Char) :
    ∃ segment later, Filled pattern segment ∧
      fill names (pattern.text.toList ++ back) = segment.text.toList ++ fill later back := by
  have unit_literal : '*' ∉ pattern.unit.text.toList := fun member => (pattern.unit.plain '*' member).2.1 rfl
  have ending (later : Nat → Name) :
      fill later ('@' :: pattern.unit.text.toList ++ back) =
        '@' :: pattern.unit.text.toList ++ fill later back :=
    fill_literal later (by simp [unit_literal]) back
  rcases opened with starred | literal
  · refine ⟨⟨(names 0).toLabel, pattern.unit⟩, fun star => names (star + 1),
      ⟨rfl, (names 0).literal, .inl starred⟩, ?_⟩
    have shown : pattern.text.toList = '/' :: '*' :: ('@' :: pattern.unit.text.toList) := by
      rw [toList_text, starred]
      rfl
    rw [shown, List.cons_append, List.cons_append, fill, if_neg (by decide), fill, if_pos rfl, ending,
      toList_text]
    simp
  · refine ⟨pattern, names, ⟨rfl, literal, .inr rfl⟩, fill_literal names ?_ back⟩
    have label_literal : '*' ∉ pattern.label.text.toList := literal
    rw [toList_text]
    simp [unit_literal, label_literal]

theorem fill_joined (names : Nat → Name) {patterns : List Segment} (opened : ∀ pattern ∈ patterns, pattern.Open) :
    ∃ segments, List.Forall₂ Filled patterns segments ∧
      String.ofList (fill names (joined patterns).toList) = joined segments := by
  induction patterns generalizing names with
  | nil => exact ⟨[], .nil, rfl⟩
  | cons pattern patterns ih =>
      obtain ⟨segment, later, filled, first⟩ :=
        fill_segment names (opened pattern List.mem_cons_self) (joined patterns).toList
      obtain ⟨segments, others, rest⟩ := ih later fun other member => opened other (List.mem_cons_of_mem _ member)
      refine ⟨segment :: segments, .cons filled others, ?_⟩
      rw [joined, joined, String.toList_append, first, String.ofList_append, rest, String.ofList_toList]

theorem filled_literal {patterns rest segments : List Segment}
    (named : ∀ pattern ∈ patterns, pattern.label ≠ .star)
    (filled : List.Forall₂ Filled (patterns ++ rest) segments) :
    ∃ others, segments = patterns ++ others ∧ List.Forall₂ Filled rest others := by
  induction patterns generalizing segments with
  | nil => exact ⟨segments, rfl, filled⟩
  | cons pattern patterns ih =>
      obtain ⟨segment, others, first, later, rfl⟩ := List.forall₂_cons_left_iff.mp filled
      obtain ⟨unit, _, starred | label⟩ := first
      · exact absurd starred (named pattern List.mem_cons_self)
      · obtain ⟨behind, rfl, left⟩ := ih (fun other member => named other (List.mem_cons_of_mem _ member)) later
        exact ⟨behind, by rw [Segment.ext label unit, List.cons_append], left⟩

theorem filled_named {patterns segments : List Segment} (named : ∀ pattern ∈ patterns, pattern.label ≠ .star)
    (filled : List.Forall₂ Filled patterns segments) : segments = patterns := by
  obtain ⟨others, rfl, rest⟩ := filled_literal named ((List.append_nil patterns).symm ▸ filled)
  rw [List.forall₂_nil_left_iff.mp rest, List.append_nil]

theorem filled_star {unit : UnitAddress} {rest segments : List Segment}
    (filled : List.Forall₂ Filled (⟨.star, unit⟩ :: rest) segments) :
    ∃ chosen : Label, ∃ others, segments = ⟨chosen, unit⟩ :: others ∧ chosen.IsLiteral ∧
      List.Forall₂ Filled rest others := by
  obtain ⟨⟨chosen, _⟩, others, ⟨rfl, literal, -⟩, later, rfl⟩ := List.forall₂_cons_left_iff.mp filled
  exact ⟨chosen, others, rfl, literal, later⟩

theorem newline_notMem_joined (segments : List Segment) : '\n' ∉ (joined segments).toList := by
  induction segments with
  | nil => simp [joined]
  | cons segment segments ih =>
      have label : '\n' ∉ segment.label.text.toList := fun member => (segment.label.plain '\n' member).2.2 rfl
      have unit : '\n' ∉ segment.unit.text.toList := fun member =>
        Bool.false_ne_true ((segment.unit.plain '\n' member).2.2.symm.trans (by decide))
      rw [joined, String.toList_append, toList_text]
      simp [label, unit, ih]

theorem joined_ends_visibly {segments : List Segment} (some : segments ≠ []) :
    ∃ front last, (joined segments).toList = front ++ [last] ∧ isBlank last = false := by
  obtain ⟨before, segment, rfl⟩ := (List.eq_nil_or_concat' segments).resolve_left some
  have shown : (joined (before ++ [segment])).toList =
      ((joined before).toList ++ '/' :: segment.label.text.toList) ++ '@' :: segment.unit.text.toList := by
    rw [joined_append, String.toList_append, joined, joined, String.append_empty, toList_text,
      List.append_assoc, List.cons_append]
  rcases List.eq_nil_or_concat' segment.unit.text.toList with empty | ⟨digits, digit, ending⟩
  · exact ⟨_, '@', by rw [shown, empty], by decide⟩
  · refine ⟨_, digit, by rw [shown, ending, ← List.cons_append, ← List.append_assoc], ?_⟩
    exact (segment.unit.plain digit (by simp [ending])).2.2

end Segment

end BootFlow
