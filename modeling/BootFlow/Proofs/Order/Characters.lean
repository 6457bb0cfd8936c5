import BootFlow.Proofs.Order.Laws

namespace BootFlow.Glob

open Text

/-! What a pattern means is said of characters, and matching looks at bytes. A star goes past
whole characters all the same, but it takes a character for the one behind it in the pattern
if the two only begin with the same byte. What it finds then is not what the pattern asks for,
so a match may be missed and never made up. -/

/-- The pattern covers the text up to what is left of it. A star goes past all characters but a
slash and those that are taken for the one behind it. -/
inductive Covers (taken : Char → Char → Prop) : List Char → List Char → List Char → Prop
  | done {text : List Char} (ends : text = [] ∨ text.head? = some '/') : Covers taken [] text text
  | literal {c : Char} {pattern text left : List Char} (plain : c ≠ '*')
      (more : Covers taken pattern text left) : Covers taken (c :: pattern) (c :: text) left
  | star {pattern run text left : List Char}
      (passes : ∀ c ∈ run, c ≠ '/' ∧ ∀ next ∈ pattern.head?, ¬taken next c)
      (stops : text = [] ∨ text.head? = some '/' ∨ text.head? = pattern.head?)
      (more : Covers taken pattern text left) : Covers taken ('*' :: pattern) (run ++ text) left

def BeginAlike (left right : Char) : Prop :=
  firstByte left = firstByte right

instance (left right : Char) : Decidable (BeginAlike left right) :=
  inferInstanceAs (Decidable (_ = _))

theorem BeginAlike.eq_ascii {ascii c : Char} (small : ascii.toNat < 128) (alike : BeginAlike ascii c) : ascii = c :=
  (firstByte_eq_ascii small alike.symm).symm

section

variable {taken : Char → Char → Prop} {c : Char} {pattern text left : List Char}

theorem covers_nil_iff : Covers taken [] text left ↔ left = text ∧ (text = [] ∨ text.head? = some '/') := by
  constructor
  · intro covers
    cases covers with
    | done ends => exact ⟨rfl, ends⟩
  · rintro ⟨same, ends⟩
    rw [same]
    exact .done ends

theorem covers_literal_iff (plain : c ≠ '*') :
    Covers taken (c :: pattern) text left ↔ ∃ rest, text = c :: rest ∧ Covers taken pattern rest left := by
  constructor
  · intro covers
    cases covers with
    | literal _ more => exact ⟨_, rfl, more⟩
    | star => exact absurd rfl plain
  · rintro ⟨rest, whole, more⟩
    rw [whole]
    exact .literal plain more

theorem covers_star_iff :
    Covers taken ('*' :: pattern) text left ↔ ∃ run rest, text = run ++ rest ∧
      (∀ c ∈ run, c ≠ '/' ∧ ∀ next ∈ pattern.head?, ¬taken next c) ∧
      (rest = [] ∨ rest.head? = some '/' ∨ rest.head? = pattern.head?) ∧ Covers taken pattern rest left := by
  constructor
  · intro covers
    cases covers with
    | literal plain _ => exact absurd rfl plain
    | star passes stops more => exact ⟨_, _, rfl, passes, stops, more⟩
  · rintro ⟨run, rest, whole, passes, stops, more⟩
    rw [whole]
    exact .star passes stops more

/-- A star does not stop before it has to. -/
theorem length_le_of_stops {next? : Option Char} (reflexive : ∀ c, taken c c) {run rest earlier behind : List Char}
    (same : run ++ rest = earlier ++ behind) (passes : ∀ c ∈ run, c ≠ '/' ∧ ∀ next ∈ next?, ¬taken next c)
    (stops : behind = [] ∨ behind.head? = some '/' ∨ behind.head? = next?) : behind.length ≤ rest.length := by
  obtain ⟨more, _, longer⟩ | ⟨more, whole, later⟩ := List.append_eq_append_iff.mp same
  · simp [longer]
  · cases more with
    | nil => simp [later]
    | cons c more =>
        obtain ⟨apart, others⟩ := passes c (by simp [whole])
        rw [later] at stops
        obtain none | slashed | followed := stops
        · cases none
        · exact absurd (Option.some.inj slashed) apart
        · exact absurd (reflexive c) (others c followed.symm)

theorem Covers.unique (reflexive : ∀ c, taken c c) {other : List Char} (covers : Covers taken pattern text left)
    (again : Covers taken pattern text other) : left = other := by
  induction covers generalizing other with
  | done ends => exact (covers_nil_iff.mp again).1.symm
  | literal plain _ ih =>
      obtain ⟨rest, whole, more⟩ := (covers_literal_iff plain).mp again
      exact ih ((List.cons.inj whole).2 ▸ more)
  | @star pattern run text left passes stops _ ih =>
      obtain ⟨earlier, rest, whole, passed, stopped, more⟩ := covers_star_iff.mp again
      have length : text.length = rest.length :=
        Nat.le_antisymm (length_le_of_stops reflexive whole.symm passed stops)
          (length_le_of_stops reflexive whole passes stopped)
      exact ih (List.append_inj_right' whole length ▸ more)

/-- A star that takes fewer characters for the one behind it goes past the same ones. -/
theorem Covers.mono {fewer : Char → Char → Prop} (covers : Covers taken pattern text left)
    (fewer_taken : ∀ next, ['*', next] <:+: pattern → ∀ c ∈ text, fewer next c → taken next c) :
    Covers fewer pattern text left := by
  induction covers with
  | done ends => exact .done ends
  | @literal c pattern text left plain _ ih =>
      refine .literal plain (ih fun next within other member => ?_)
      exact fewer_taken next (List.infix_cons within) other (List.mem_cons_of_mem c member)
  | @star pattern run text left passes stops _ ih =>
      refine .star (fun c member => ⟨(passes c member).1, fun next behind took => ?_⟩) stops (ih ?_)
      · obtain ⟨later, rfl⟩ := List.head?_eq_some_iff.mp behind
        have starred : ['*', next] <:+: '*' :: next :: later := (List.prefix_append ['*', next] later).isInfix
        exact (passes c member).2 next behind (fewer_taken next starred c (List.mem_append_left _ member) took)
      · exact fun next within c member =>
          fewer_taken next (List.infix_cons within) c (List.mem_append_right _ member)

theorem Covers.of_alike (covers : Covers BeginAlike pattern text left) : Covers (· = ·) pattern text left :=
  covers.mono fun _ _ _ _ same => congrArg firstByte same

end

section

variable {pattern text : List Char}

theorem head?_flatMap_encode (chars : List Char) :
    (chars.flatMap String.utf8EncodeChar).head? = chars.head?.map firstByte := by
  cases chars with
  | nil => rfl
  | cons c chars =>
      obtain ⟨more, encoded, _⟩ := utf8EncodeChar_eq_cons c
      rw [List.flatMap_cons, encoded]
      rfl

theorem star_notMem_utf8EncodeChar {c : Char} (plain : c ≠ '*') : star ∉ String.utf8EncodeChar c := fun member =>
  plain (firstByte_eq_ascii (by decide) (eq_firstByte member (by decide)).symm)

/-- A character of the pattern is matched by itself, all of its bytes. -/
theorem stripBytes_character {c : Char} (plain : c ≠ '*') {rest left : List UInt8} :
    stripBytes (String.utf8EncodeChar c ++ rest) (text.flatMap String.utf8EncodeChar) = some left ↔
      ∃ behind, text = c :: behind ∧ stripBytes rest (behind.flatMap String.utf8EncodeChar) = some left := by
  rw [stripBytes_starless (star_notMem_utf8EncodeChar plain)]
  constructor
  · rintro ⟨more, whole, stripped⟩
    cases text with
    | nil => exact absurd (List.append_eq_nil_iff.mp whole.symm).1 String.utf8EncodeChar_ne_nil
    | cons first behind =>
        obtain ⟨rfl, rfl⟩ := utf8EncodeChar_append_inj.mp (List.flatMap_cons ▸ whole)
        exact ⟨behind, rfl, stripped⟩
  · rintro ⟨behind, whole, stripped⟩
    exact ⟨_, by rw [whole, List.flatMap_cons], stripped⟩

theorem skipStar_characters {next? : Option Char} {run rest : List Char}
    (passes : ∀ c ∈ run, c ≠ '/' ∧ ∀ next ∈ next?, ¬BeginAlike next c)
    (stops : rest = [] ∨ rest.head? = some '/' ∨ ∃ c ∈ rest.head?, ∃ next ∈ next?, BeginAlike next c) :
    skipStar (next?.map firstByte) ((run ++ rest).flatMap String.utf8EncodeChar) =
      rest.flatMap String.utf8EncodeChar := by
  rw [skipStar_eq_iff]
  refine ⟨run.flatMap String.utf8EncodeChar, List.flatMap_append, fun byte member => ?_, ?_⟩
  · obtain ⟨c, among, within⟩ := List.mem_flatMap.mp member
    obtain ⟨apart, others⟩ := passes c among
    have unlike (other : Char) (differs : ¬BeginAlike other c) : byte ≠ firstByte other := by
      intro same
      have first : byte.IsUTF8FirstByte := same ▸ isUTF8FirstByte_firstByte other
      exact differs (same.symm.trans (eq_firstByte within first))
    constructor
    · exact unlike '/' fun alike => apart (alike.eq_ascii (by decide)).symm
    · cases next? with
      | none => simp
      | some next => simpa using unlike next (others next rfl)
  · rw [stopsBefore_iff, head?_flatMap_encode]
    obtain rfl | slashed | ⟨c, first, next, behind, alike⟩ := stops
    · exact .inl rfl
    · exact .inr (.inl (by rw [slashed]; rfl))
    · have same : firstByte next = firstByte c := alike
      exact .inr (.inr (by simp [Option.mem_def.mp first, Option.mem_def.mp behind, same]))

/-- Up to where a star goes that is followed by this character, or by none. -/
theorem exists_run (next? : Option Char) (text : List Char) : ∃ run rest, text = run ++ rest ∧
    (∀ c ∈ run, c ≠ '/' ∧ ∀ next ∈ next?, ¬BeginAlike next c) ∧
    (rest = [] ∨ rest.head? = some '/' ∨ ∃ c ∈ rest.head?, ∃ next ∈ next?, BeginAlike next c) := by
  induction text with
  | nil => exact ⟨[], [], rfl, by simp, .inl rfl⟩
  | cons c text ih =>
      by_cases stops : c = '/' ∨ ∃ next ∈ next?, BeginAlike next c
      · refine ⟨[], c :: text, rfl, by simp, .inr ?_⟩
        obtain slashed | ⟨next, behind, alike⟩ := stops
        · exact .inl (by rw [slashed]; rfl)
        · exact .inr ⟨c, rfl, next, behind, alike⟩
      · obtain ⟨run, rest, whole, passes, ends⟩ := ih
        obtain ⟨apart, others⟩ := not_or.mp stops
        refine ⟨c :: run, rest, by rw [whole, List.cons_append], ?_, ends⟩
        intro other member
        obtain same | later := List.mem_cons.mp member
        · rw [same]
          exact ⟨apart, fun next behind alike => others ⟨next, behind, alike⟩⟩
        · exact passes other later

/-- Where the match goes on, the star has stopped at the very character behind it. -/
theorem Covers.stops {taken : Char → Char → Prop} {rest left : List Char} (covers : Covers taken pattern rest left)
    (ends : rest = [] ∨ rest.head? = some '/' ∨ ∃ c ∈ rest.head?, ∃ next ∈ pattern.head?, BeginAlike next c) :
    rest = [] ∨ rest.head? = some '/' ∨ rest.head? = pattern.head? := by
  obtain none | slashed | ⟨c, first, next, behind, alike⟩ := ends
  · exact .inl none
  · exact .inr (.inl slashed)
  · obtain ⟨later, rfl⟩ := List.head?_eq_some_iff.mp behind
    by_cases starred : next = '*'
    · have same : '*' = c := (starred ▸ alike).eq_ascii (by decide)
      exact .inr (.inr (by rw [first, behind, starred, same]))
    · obtain ⟨more, whole, _⟩ := (covers_literal_iff starred).mp covers
      exact .inr (.inr (by rw [whole]; rfl))

theorem atBoundary_characters :
    atBoundary (text.flatMap String.utf8EncodeChar) = true ↔ text = [] ∨ text.head? = some '/' := by
  cases text with
  | nil => simp [atBoundary]
  | cons c text =>
      obtain ⟨more, encoded, _⟩ := utf8EncodeChar_eq_cons c
      have slashed : firstByte c = slash ↔ c = '/' := by
        constructor
        · intro same
          exact firstByte_eq_ascii (by decide) (same.trans (by decide))
        · intro same
          rw [same]
          decide
      simp [encoded, atBoundary, slashed]

/-- Matching bytes is matching characters of which those that begin alike are taken for one
another. -/
theorem stripBytes_characters {behind : List UInt8} :
    stripBytes (pattern.flatMap String.utf8EncodeChar) (text.flatMap String.utf8EncodeChar) = some behind ↔
      ∃ left, left.flatMap String.utf8EncodeChar = behind ∧ Covers BeginAlike pattern text left := by
  induction pattern generalizing text with
  | nil =>
      simp only [List.flatMap_nil, stripBytes, Option.ite_none_right_eq_some, atBoundary_characters, covers_nil_iff]
      constructor
      · rintro ⟨ended, whole⟩
        exact ⟨text, Option.some.inj whole, rfl, ended⟩
      · rintro ⟨left, encoded, same, ended⟩
        exact ⟨ended, by rw [← encoded, same]⟩
  | cons c pattern ih =>
      by_cases starred : c = '*'
      · have opened : (c :: pattern).flatMap String.utf8EncodeChar = star :: pattern.flatMap String.utf8EncodeChar := by
          rw [starred, List.flatMap_cons]
          rfl
        rw [opened, stripBytes_star, head?_flatMap_encode, starred]
        simp only [covers_star_iff]
        constructor
        · intro stripped
          obtain ⟨run, rest, rfl, passes, ends⟩ := exists_run pattern.head? text
          rw [skipStar_characters passes ends, ih] at stripped
          obtain ⟨left, encoded, covers⟩ := stripped
          exact ⟨left, encoded, run, rest, rfl, passes, covers.stops ends, covers⟩
        · rintro ⟨left, encoded, run, rest, whole, passes, stops, covers⟩
          rw [whole, skipStar_characters passes, ih]
          · exact ⟨left, encoded, covers⟩
          · obtain none | slashed | followed := stops
            · exact .inl none
            · exact .inr (.inl slashed)
            · cases first : rest.head? with
              | none => exact .inl (List.head?_eq_none_iff.mp first)
              | some c => exact .inr (.inr ⟨c, rfl, c, followed.symm.trans first, rfl⟩)
      · rw [List.flatMap_cons, stripBytes_character starred]
        simp only [ih, covers_literal_iff starred]
        constructor
        · rintro ⟨rest, whole, left, encoded, covers⟩
          exact ⟨left, encoded, rest, whole, covers⟩
        · rintro ⟨left, encoded, rest, whole, covers⟩
          exact ⟨rest, whole, left, encoded, covers⟩

end

section

variable {pattern text left : String}

theorem strip?_eq_some_iff_covers :
    strip? pattern text = some left ↔ Covers BeginAlike pattern.toList text.toList left.toList := by
  rw [strip?_eq_some_iff_stripBytes]
  apply stripBytes_characters.trans
  constructor
  · rintro ⟨chars, encoded, covers⟩
    have same : String.ofList chars = left := by
      rw [← bytes_inj, bytes, String.toList_ofList, encoded]
    rw [← same, String.toList_ofList]
    exact covers
  · intro covers
    exact ⟨left.toList, rfl, covers⟩

/-- Bytes make no difference where no other character begins like one behind a star. -/
theorem strip?_eq_some_iff_covers_same
    (apart : ∀ next, ['*', next] <:+: pattern.toList → ∀ c ∈ text.toList, BeginAlike next c → next = c) :
    strip? pattern text = some left ↔ Covers (· = ·) pattern.toList text.toList left.toList := by
  rw [strip?_eq_some_iff_covers]
  exact ⟨Covers.of_alike, fun covers => covers.mono apart⟩

end

/-- A match goes by whole characters. It is the match that the pattern asks for, but it is missed
where a star has to go past a character that begins like the one behind the star. -/
theorem matches_by_character (pattern text : String) :
    (∀ left, strip? pattern text = some left ↔ Covers BeginAlike pattern.toList text.toList left.toList) ∧
    (∀ left, strip? pattern text = some left → Covers (· = ·) pattern.toList text.toList left.toList) ∧
    (∀ left other, Covers (· = ·) pattern.toList text.toList left →
      Covers (· = ·) pattern.toList text.toList other → left = other) ∧
    ((∀ next, ['*', next] <:+: pattern.toList → ∀ c ∈ text.toList, BeginAlike next c → next = c) →
      ∀ left, strip? pattern text = some left ↔ Covers (· = ·) pattern.toList text.toList left.toList) := by
  refine ⟨fun left => strip?_eq_some_iff_covers, fun left stripped => ?_, fun left other => ?_, fun apart left => ?_⟩
  · exact (strip?_eq_some_iff_covers.mp stripped).of_alike
  · exact Covers.unique fun c => rfl
  · exact strip?_eq_some_iff_covers_same apart

/-- An arrow behind the star, and umlauts on the way to it. -/
theorem matches_by_character_arrow :
    (∀ next, ['*', next] <:+: "usb-*→1".toList → ∀ c ∈ "usb-äö→1/disk@0".toList, BeginAlike next c → next = c) ∧
      Covers (· = ·) "usb-*→1".toList "usb-äö→1/disk@0".toList "/disk@0".toList := by
  have apart : ∀ next, ['*', next] <:+: "usb-*→1".toList →
      ∀ c ∈ "usb-äö→1/disk@0".toList, BeginAlike next c → next = c := by
    intro next behind
    have arrow : next = '→' := by
      change ['*', next] <:+: ['u', 's', 'b', '-', '*', '→', '1'] at behind
      simpa [List.infix_cons_iff] using behind
    have others : "usb-äö→1/disk@0".toList.all fun c => firstByte c != firstByte '→' || c == '→' := by decide
    intro c member alike
    have same : c = '→' := by
      simpa [show firstByte c = firstByte '→' from arrow ▸ alike.symm] using List.all_eq_true.mp others c member
    rw [arrow, same]
  have stripped : strip? "usb-*→1" "usb-äö→1/disk@0" = some "/disk@0" := by decide
  exact ⟨apart, ((matches_by_character _ _).2.2.2 apart _).mp stripped⟩

/-- The two letters begin with the same byte, so the star stops at the first one. -/
theorem accented_letter_missed :
    ¬∀ pattern text left : String,
      strip? pattern text = some left ↔ Covers (· = ·) pattern.toList text.toList left.toList := by
  intro matched
  have covers : Covers (· = ·) ['*', 'é'] ['è', 'é'] [] :=
    covers_star_iff.mpr ⟨['è'], ['é'], rfl, by simp, .inr (.inr rfl), .literal (by decide) (.done (.inl rfl))⟩
  have missed : strip? "*é" "èé" = none := by decide
  have found : strip? "*é" "èé" = some "" := (matched "*é" "èé" "").mpr covers
  cases missed.symm.trans found

end BootFlow.Glob
