import BootFlow.Proofs.Order.Glob

namespace BootFlow.Glob

open Text

/-! What a pattern matches is a relation between bytes that says nothing of how a match
is looked for. It is what matching computes, and so is what a scan finds that looks at one
byte of the pattern and one of the text at a time. -/

/-- The pattern matches the text up to what is left of it. -/
inductive Leaves : List UInt8 → List UInt8 → List UInt8 → Prop
  | done {text : List UInt8} (ends : text = [] ∨ text.head? = some slash) : Leaves [] text text
  | literal {byte : UInt8} {pattern text left : List UInt8} (plain : byte ≠ star)
      (more : Leaves pattern text left) : Leaves (byte :: pattern) (byte :: text) left
  /-- The star takes a run of bytes, up to where it has to stop. -/
  | star {pattern run text left : List UInt8}
      (passes : ∀ byte ∈ run, byte ≠ slash ∧ some byte ≠ pattern.head?)
      (stops : text = [] ∨ text.head? = some slash ∨ text.head? = pattern.head?)
      (more : Leaves pattern text left) : Leaves (star :: pattern) (run ++ text) left

variable {pattern text rest left other : List UInt8} {stop : Option UInt8}

theorem atBoundary_iff : atBoundary text = true ↔ text = [] ∨ text.head? = some slash := by
  cases text with
  | nil => simp [atBoundary]
  | cons byte text => simp [atBoundary]

/-- Whether a star that is followed by `stop` takes nothing of the text. -/
def stopsBefore (stop : Option UInt8) (text : List UInt8) : Bool :=
  atBoundary text || text.head? == stop

theorem stopsBefore_iff :
    stopsBefore stop text = true ↔ text = [] ∨ text.head? = some slash ∨ text.head? = stop := by
  rw [stopsBefore, Bool.or_eq_true, atBoundary_iff, beq_iff_eq, or_assoc]

theorem skipStar_stopped (stops : stopsBefore stop text = true) : skipStar stop text = text := by
  rw [stopsBefore_iff] at stops
  cases text with
  | nil => rfl
  | cons byte text =>
      have halts : byte = slash ∨ some byte = stop := by simpa using stops
      rw [skipStar, List.dropWhile_cons_of_neg]
      rcases halts with slashed | followed
      · simp [slashed]
      · simp [followed]

theorem skipStar_passes {byte : UInt8} (passes : stopsBefore stop (byte :: text) = false) :
    skipStar stop (byte :: text) = skipStar stop text := by
  have goesOn : byte ≠ slash ∧ some byte ≠ stop := by
    simpa [stopsBefore, atBoundary] using passes
  rw [skipStar, List.dropWhile_cons_of_pos (by simp [goesOn])]
  rfl

/-- What a star takes is settled by where it stops. -/
theorem skipStar_eq_iff :
    skipStar stop text = rest ↔ ∃ run, text = run ++ rest ∧
      (∀ byte ∈ run, byte ≠ slash ∧ some byte ≠ stop) ∧ stopsBefore stop rest = true := by
  induction text with
  | nil =>
      constructor
      · rintro rfl
        exact ⟨[], rfl, by simp, rfl⟩
      · rintro ⟨run, whole, _, _⟩
        exact (List.append_eq_nil_iff.mp whole.symm).2.symm
  | cons byte text ih =>
      cases stops : stopsBefore stop (byte :: text) with
      | true =>
          rw [skipStar_stopped stops]
          constructor
          · rintro rfl
            exact ⟨[], rfl, by simp, stops⟩
          · rintro ⟨run, whole, passes, _⟩
            cases run with
            | nil => exact whole
            | cons first run =>
                obtain ⟨rfl, _⟩ := List.cons.inj whole
                have passed := passes byte List.mem_cons_self
                have halts : byte = slash ∨ some byte = stop := by simpa using stopsBefore_iff.mp stops
                exact absurd halts (not_or.mpr passed)
      | false =>
          rw [skipStar_passes stops, ih]
          have goesOn : byte ≠ slash ∧ some byte ≠ stop := by
            simpa [stopsBefore, atBoundary] using stops
          constructor
          · rintro ⟨run, rfl, passes, ends⟩
            refine ⟨byte :: run, rfl, ?_, ends⟩
            intro next member
            rcases List.mem_cons.mp member with rfl | later
            · exact goesOn
            · exact passes next later
          · rintro ⟨run, whole, passes, ends⟩
            cases run with
            | nil =>
                rw [List.nil_append] at whole
                rw [← whole, stops] at ends
                cases ends
            | cons first run =>
                obtain ⟨_, more⟩ := List.cons.inj whole
                exact ⟨run, more, fun next member => passes next (List.mem_cons_of_mem _ member), ends⟩

theorem stripBytes_eq_some_iff : stripBytes pattern text = some left ↔ Leaves pattern text left := by
  constructor
  · intro stripped
    induction pattern generalizing text with
    | nil =>
        obtain ⟨ends, whole⟩ := Option.ite_none_right_eq_some.mp stripped
        cases whole
        exact .done (atBoundary_iff.mp ends)
    | cons first pattern ih =>
        by_cases starred : first = star
        · rw [starred, stripBytes_star] at stripped
          obtain ⟨run, whole, passes, stops⟩ := skipStar_eq_iff.mp (rfl : skipStar pattern.head? text = _)
          rw [starred, whole]
          exact .star passes (stopsBefore_iff.mp stops) (ih stripped)
        · cases text with
          | nil =>
              rw [stripBytes_past_end starred] at stripped
              cases stripped
          | cons byte text =>
              simp only [stripBytes, if_neg starred, Option.ite_none_right_eq_some] at stripped
              obtain ⟨rfl, more⟩ := stripped
              exact .literal starred (ih more)
  · intro leaves
    induction leaves with
    | done ends => exact if_pos (atBoundary_iff.mpr ends)
    | literal plain _ ih => rw [stripBytes_same plain, ih]
    | star passes stops _ ih =>
        rw [stripBytes_star, skipStar_eq_iff.mpr ⟨_, rfl, passes, stopsBefore_iff.mpr stops⟩, ih]

namespace Leaves

theorem unique (leaves : Leaves pattern text left) (again : Leaves pattern text other) : left = other := by
  rw [← stripBytes_eq_some_iff] at leaves again
  exact Option.some.inj (leaves.symm.trans again)

theorem suffix (leaves : Leaves pattern text left) : left <:+ text := by
  induction leaves with
  | done _ => exact List.suffix_refl _
  | literal _ _ ih => exact ih.trans (List.suffix_cons _ _)
  | star _ _ _ ih => exact ih.trans (List.suffix_append _ _)

theorem ends (leaves : Leaves pattern text left) : left = [] ∨ left.head? = some slash := by
  induction leaves with
  | done ends => exact ends
  | literal _ _ ih => exact ih
  | star _ _ _ ih => exact ih

/-- What is left of a text is a text, for a slash is no part of another character. -/
theorem cuts {pattern text : String} (leaves : Leaves (bytes pattern) (bytes text) left) :
    ∃ front behind : String, text = front ++ behind ∧ bytes behind = left := by
  obtain ⟨front, whole⟩ := leaves.suffix
  obtain ⟨before, behind, cut, _, same⟩ :=
    exists_append_of_bytes '/' (by decide) leaves.ends whole.symm
  exact ⟨before, behind, cut, same⟩

end Leaves

theorem strip?_eq_some_iff {pattern text left : String} :
    strip? pattern text = some left ↔ Leaves (bytes pattern) (bytes text) (bytes left) := by
  rw [strip?, ← stripBytes_eq_some_iff]
  constructor
  · intro stripped
    obtain ⟨encoded, found, decoded⟩ := Option.bind_eq_some_iff.mp stripped
    obtain ⟨_, behind, _, same⟩ := (stripBytes_eq_some_iff.mp found).cuts
    rw [← same, ofBytes?_bytes] at decoded
    rw [found, ← same, Option.some.inj decoded]
  · intro found
    rw [found, Option.bind_some, ofBytes?_bytes]

theorem strip?_eq_some_iff_stripBytes {pattern text left : String} :
    strip? pattern text = some left ↔ stripBytes (bytes pattern) (bytes text) = some (bytes left) := by
  rw [strip?_eq_some_iff, stripBytes_eq_some_iff]

/-! The scan -/

/-- One look at the first byte of each: the answer, or what is left of both. -/
def look : List UInt8 → List UInt8 → Option (List UInt8) ⊕ (List UInt8 × List UInt8)
  | [], text => .inl (if atBoundary text then some text else none)
  | first :: pattern, text =>
      if first = star then
        if stopsBefore pattern.head? text then .inr (pattern, text)
        else .inr (first :: pattern, text.tail)
      else if text.head? = some first then .inr (pattern, text.tail)
      else .inl none

/-- Looks on until there is an answer, so many times at most. -/
def scan : Nat → List UInt8 → List UInt8 → Option (Option (List UInt8))
  | 0, _, _ => none
  | looks + 1, pattern, text =>
      match look pattern text with
      | .inl answer => some answer
      | .inr (pattern, text) => scan looks pattern text

/-- A look that does not answer leaves one byte less of the two together, and does not
change what matching comes to. -/
theorem look_spec (pattern text : List UInt8) :
    match look pattern text with
    | .inl answer => stripBytes pattern text = answer
    | .inr (pattern', text') => stripBytes pattern text = stripBytes pattern' text' ∧
        pattern'.length + text'.length < pattern.length + text.length := by
  cases pattern with
  | nil => rfl
  | cons first pattern =>
      by_cases starred : first = star
      · cases stops : stopsBefore pattern.head? text with
        | true =>
            simp only [look, if_pos starred, stops, if_true]
            rw [starred, stripBytes_star, skipStar_stopped stops]
            simp
        | false =>
            simp only [look, if_pos starred, stops, Bool.false_eq_true, if_false]
            cases text with
            | nil => cases stops
            | cons byte text =>
                rw [starred, stripBytes_star, stripBytes_star, skipStar_passes stops]
                simp
      · cases text with
        | nil => simp [look, starred, stripBytes_past_end starred]
        | cons byte text =>
            by_cases same : byte = first
            · simp only [look, if_neg starred, List.head?_cons, same, if_true, List.tail_cons]
              rw [stripBytes_same starred]
              exact ⟨rfl, by simp only [List.length_cons]; omega⟩
            · simp [look, starred, same, stripBytes, Ne.symm same]

/-- Every scan comes to an end, as soon as there are more looks than bytes. -/
theorem scan_eq {looks : Nat} (enough : pattern.length + text.length < looks) :
    scan looks pattern text = some (stripBytes pattern text) := by
  induction looks generalizing pattern text with
  | zero => omega
  | succ looks ih =>
      have looked := look_spec pattern text
      rw [scan]
      cases seen : look pattern text with
      | inl answer =>
          rw [seen] at looked
          rw [looked]
      | inr remaining =>
          obtain ⟨pattern', text'⟩ := remaining
          rw [seen] at looked
          obtain ⟨same, fewer⟩ := looked
          dsimp only
          rw [ih (by omega), same]

/-- What is left of a text behind a match is the one rest that the pattern can leave. It
starts between two characters of the text, and a scan for it always comes to an end. -/
theorem match_leaves_rest (pattern text : String) :
    (∀ left, strip? pattern text = some left ↔ Leaves (bytes pattern) (bytes text) (bytes left)) ∧
    (∀ left other, Leaves (bytes pattern) (bytes text) left →
      Leaves (bytes pattern) (bytes text) other → left = other) ∧
    (∀ left, Leaves (bytes pattern) (bytes text) left → ∃ front behind : String,
      text = front ++ behind ∧ bytes behind = left ∧ strip? pattern text = some behind) ∧
    ∀ looks, (bytes pattern).length + (bytes text).length < looks →
      scan looks (bytes pattern) (bytes text) = some ((strip? pattern text).map bytes) := by
  refine ⟨fun left => strip?_eq_some_iff, fun left other => Leaves.unique, ?_, ?_⟩
  · intro left leaves
    obtain ⟨front, behind, cut, same⟩ := leaves.cuts
    exact ⟨front, behind, cut, same, strip?_eq_some_iff.mpr (same ▸ leaves)⟩
  · intro looks enough
    rw [scan_eq enough, Option.some_inj]
    cases stripped : stripBytes (bytes pattern) (bytes text) with
    | none => rw [strip?, stripped]; rfl
    | some left =>
        obtain ⟨_, behind, _, same⟩ := (stripBytes_eq_some_iff.mp stripped).cuts
        rw [strip?, stripped, Option.bind_some, ← same, ofBytes?_bytes, Option.map_some]

end BootFlow.Glob
