import BootFlow.Order
import BootFlow.Proofs.Text.Utf8

namespace BootFlow.Glob

/-! A pattern goes through a text up to a boundary, which is the end of the text or a
slash. So patterns match part by part wherever a slash parts them. -/

variable {pattern front rest text left : List UInt8}

theorem stripBytes_star (pattern text : List UInt8) :
    stripBytes (star :: pattern) text = stripBytes pattern (skipStar pattern.head? text) := by
  cases text <;> simp [stripBytes]

theorem stripBytes_same {byte : UInt8} (literal : byte ≠ star) (pattern text : List UInt8) :
    stripBytes (byte :: pattern) (byte :: text) = stripBytes pattern text := by
  simp [stripBytes, literal]

theorem stripBytes_past_end {byte : UInt8} (literal : byte ≠ star) (pattern : List UInt8) :
    stripBytes (byte :: pattern) [] = none := by
  simp [stripBytes, literal]

theorem skipStar_append (stop : Option UInt8) (within : slash ∉ front) (ends : atBoundary rest = true) :
    skipStar stop (front ++ rest) = skipStar stop front ++ rest := by
  induction front with
  | nil =>
      cases rest with
      | nil => rfl
      | cons byte rest =>
          have first : byte = slash := by simpa [atBoundary] using ends
          simp [skipStar, first]
  | cons byte front ih =>
      rw [List.mem_cons, not_or] at within
      simp only [skipStar, List.cons_append, List.dropWhile_cons]
      split
      · exact ih within.2
      · rfl

theorem skipStar_subset (stop : Option UInt8) (text : List UInt8) : skipStar stop text ⊆ text :=
  (List.dropWhile_sublist _).subset

/-- A star stops at every slash by itself. -/
theorem skipStar_slash (text : List UInt8) : skipStar (some slash) text = skipStar none text := by
  have same : (fun byte : UInt8 => byte != slash && some byte != some slash) =
      fun byte => byte != slash && some byte != none := by
    funext byte
    by_cases slashed : byte = slash
    · rw [slashed]
      rfl
    · have apart : (some byte != some slash) = true := by simpa using slashed
      rw [apart]
      rfl
  rw [skipStar, skipStar, same]

theorem stripBytes_left (stripped : stripBytes pattern text = some left) :
    atBoundary left = true ∧ left ⊆ text := by
  induction pattern generalizing text with
  | nil =>
      obtain ⟨ends, whole⟩ := Option.ite_none_right_eq_some.mp stripped
      cases whole
      exact ⟨ends, List.Subset.refl left⟩
  | cons first pattern ih =>
      simp only [stripBytes] at stripped
      split at stripped
      · obtain ⟨ends, among⟩ := ih stripped
        exact ⟨ends, List.Subset.trans among (skipStar_subset _ text)⟩
      · cases text with
        | nil => cases stripped
        | cons byte rest =>
            simp only [Option.ite_none_right_eq_some] at stripped
            obtain ⟨ends, among⟩ := ih stripped.2
            exact ⟨ends, List.subset_cons_of_subset byte among⟩

/-- A text without slashes is matched as a whole or not at all. -/
theorem stripBytes_whole (within : slash ∉ text) (stripped : stripBytes pattern text = some left) :
    left = [] := by
  obtain ⟨ends, among⟩ := stripBytes_left stripped
  cases left with
  | nil => rfl
  | cons byte left =>
      have first : byte = slash := by simpa [atBoundary] using ends
      exact absurd (among (first ▸ List.mem_cons_self)) within

/-- Within the part of the text before a boundary a pattern without slashes sees nothing
of what follows. -/
theorem stripBytes_append_text (single : slash ∉ pattern) (within : slash ∉ front)
    (ends : atBoundary rest = true) :
    stripBytes pattern (front ++ rest) = (stripBytes pattern front).map (· ++ rest) := by
  induction pattern generalizing front with
  | nil =>
      cases front with
      | nil =>
          rw [List.nil_append, stripBytes, if_pos ends]
          rfl
      | cons byte front =>
          have other : byte ≠ slash := fun same => within (same ▸ List.mem_cons_self)
          simp [stripBytes, atBoundary, other]
  | cons first pattern ih =>
      rw [List.mem_cons, not_or] at single
      simp only [stripBytes]
      split
      · rw [skipStar_append _ within ends]
        exact ih single.2 fun member => within (skipStar_subset _ front member)
      · cases front with
        | nil =>
            cases rest with
            | nil => rfl
            | cons byte rest =>
                have slashed : byte = slash := by simpa [atBoundary] using ends
                simp [slashed, Ne.symm single.1]
        | cons byte front =>
            rw [List.mem_cons, not_or] at within
            simp only [List.cons_append]
            split
            · exact ih single.2 within.2
            · rfl

/-- Behind a boundary of its own a pattern goes on where the part before has stopped. -/
theorem stripBytes_append (ends : atBoundary rest = true) :
    stripBytes (pattern ++ rest) text = (stripBytes pattern text).bind (stripBytes rest) := by
  induction pattern generalizing text with
  | nil =>
      cases rest with
      | nil =>
          simp only [List.append_nil, stripBytes]
          split
          · rename_i ends
            simp only [Option.bind_some, if_pos ends]
          · rfl
      | cons byte rest =>
          have slashed : byte = slash := by simpa [atBoundary] using ends
          cases text with
          | nil => rfl
          | cons other text =>
              by_cases same : other = slash
              · simp [stripBytes, atBoundary, same]
              · have apart : ¬slash = other := Ne.symm same
                have literal : ¬slash = star := by decide
                simp [stripBytes, atBoundary, slashed, same, apart, literal]
  | cons first pattern ih =>
      simp only [List.cons_append, stripBytes]
      split
      · rw [ih]
        cases pattern with
        | cons second pattern => rfl
        | nil =>
            cases rest with
            | nil => rfl
            | cons byte rest =>
                have slashed : byte = slash := by simpa [atBoundary] using ends
                simp only [List.nil_append, List.head?_cons, List.head?_nil, slashed, skipStar_slash]
      · cases text with
        | nil => rfl
        | cons byte text =>
            simp only
            split
            · exact ih
            · rfl

theorem stripBytes_literal (literal : star ∉ pattern) :
    stripBytes pattern text = some left ↔ text = pattern ++ left ∧ atBoundary left = true := by
  induction pattern generalizing text with
  | nil =>
      rw [stripBytes, Option.ite_none_right_eq_some, and_comm, List.nil_append, Option.some_inj]
      constructor
      · rintro ⟨rfl, ends⟩
        exact ⟨rfl, ends⟩
      · rintro ⟨rfl, ends⟩
        exact ⟨rfl, ends⟩
  | cons first pattern ih =>
      rw [List.mem_cons, not_or] at literal
      simp only [stripBytes, if_neg (Ne.symm literal.1)]
      cases text with
      | nil => simp
      | cons byte text =>
          simp only [Option.ite_none_right_eq_some, ih literal.2, List.cons_append, List.cons.injEq]
          constructor
          · rintro ⟨rfl, rfl, ends⟩
            exact ⟨⟨rfl, rfl⟩, ends⟩
          · rintro ⟨⟨rfl, rfl⟩, ends⟩
            exact ⟨rfl, rfl, ends⟩

theorem stripBytes_literal_whole (literal : star ∉ pattern) :
    stripBytes pattern text = some [] ↔ pattern = text := by
  rw [stripBytes_literal literal, List.append_nil, eq_comm]
  exact and_iff_left rfl

end BootFlow.Glob
