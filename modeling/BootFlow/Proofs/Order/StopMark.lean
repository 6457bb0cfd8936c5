import BootFlow.Proofs.Order.Characters
import BootFlow.Proofs.Order.Rank
import BootFlow.Proofs.Sequence.Flatten

namespace BootFlow

open Glob Recorded Text

/-! The stop mark is looked up like the path of a device. So a line need not name it to set
it: a line that goes on below the mark does as well, and so does one whose stars can stand
for the letters of the mark that it leaves out. -/

namespace Glob

/-- The word that the pattern becomes when each star is written out, as some run of characters. -/
inductive Spells : List Char → List Char → Prop
  | nil : Spells [] []
  | letter {c : Char} {pattern word : List Char} (plain : c ≠ '*') (more : Spells pattern word) :
      Spells (c :: pattern) (c :: word)
  | star {pattern word : List Char} (run : List Char) (more : Spells pattern word) :
      Spells ('*' :: pattern) (run ++ word)

/-- Behind two stars in a row there are only stars. -/
def DoubledLast (pattern : List Char) : Prop :=
  ∀ front back, pattern = front ++ '*' :: '*' :: back → ∀ c ∈ back, c = '*'

variable {pattern word : List Char} {c : Char}

theorem DoubledLast.tail (doubled : DoubledLast (c :: pattern)) : DoubledLast pattern :=
  fun front back whole => doubled (c :: front) back (by rw [whole, List.cons_append])

/-- Nothing but stars covers a text without characters. -/
theorem covers_empty_iff : Covers (· = ·) pattern [] [] ↔ ∀ c ∈ pattern, c = '*' := by
  induction pattern with
  | nil => simp [covers_nil_iff]
  | cons c pattern ih =>
      by_cases starred : c = '*'
      · rw [starred, covers_star_iff]
        simp [← ih]
      · rw [covers_literal_iff starred]
        simp [starred]

theorem Spells.of_covers {text left : List Char} (covers : Covers (· = ·) pattern text left) (whole : left = []) :
    Spells pattern text := by
  induction covers with
  | done _ => exact whole ▸ .nil
  | literal plain _ ih => exact .letter plain (ih whole)
  | star _ _ _ ih => exact .star _ (ih whole)

theorem DoubledLast.of_covers {text left : List Char} (covers : Covers (· = ·) pattern text left) (whole : left = [])
    (starless : '*' ∉ text) (single : '/' ∉ text) : DoubledLast pattern := by
  induction covers with
  | done _ => simp [DoubledLast]
  | @literal c pattern text left plain _ ih =>
      simp only [List.mem_cons, not_or] at starless single
      intro front back split
      cases front with
      | nil => exact absurd (List.cons.inj split).1 plain
      | cons first front => exact ih whole starless.2 single.2 front back (List.cons.inj split).2
  | @star pattern run text left _ stops covers ih =>
      simp only [List.mem_append, not_or] at starless single
      intro front back split
      cases front with
      | cons first front => exact ih whole starless.2 single.2 front back (List.cons.inj split).2
      | nil =>
          -- The first star is to stop at a star, of which the text has none, so it takes all of it.
          have behind : pattern = '*' :: back := (List.cons.inj split).2
          have nothing : text = [] := by
            obtain none | slashed | followed := stops
            · exact none
            · exact absurd (List.mem_of_head? slashed) single.2
            · rw [behind] at followed
              exact absurd (List.mem_of_head? followed) starless.2
          rw [nothing, whole, covers_empty_iff, behind] at covers
          exact fun c member => covers c (List.mem_cons_of_mem _ member)

theorem Spells.covers (spells : Spells pattern word) (doubled : DoubledLast pattern) (distinct : word.Nodup)
    (starless : '*' ∉ word) (single : '/' ∉ word) : Covers (· = ·) pattern word [] := by
  induction spells with
  | nil => exact .done (.inl rfl)
  | @letter c pattern word plain _ ih =>
      simp only [List.mem_cons, not_or] at starless single
      exact .literal plain (ih doubled.tail (List.nodup_cons.mp distinct).2 starless.2 single.2)
  | @star pattern word run spells ih =>
      simp only [List.mem_append, not_or] at starless single
      obtain ⟨_, wordDistinct, apart⟩ := List.nodup_append.mp distinct
      have notSlash {c : Char} (member : c ∈ run) : c ≠ '/' := fun same => single.1 (same ▸ member)
      cases spells with
      | nil => exact .star (fun c member => ⟨notSlash member, by simp⟩) (.inl rfl) (.done (.inl rfl))
      | @letter next later word plain more =>
          refine .star (fun c member => ⟨notSlash member, fun other behind same => ?_⟩) (.inr (.inr rfl))
            (ih doubled.tail wordDistinct starless.2 single.2)
          exact apart c member next List.mem_cons_self (same.symm.trans (Option.some.inj behind).symm)
      | @star later word more spells =>
          -- Only stars are left of the pattern, so the first of them takes the whole word.
          have stars : ∀ c ∈ '*' :: later, c = '*' := List.forall_mem_cons.mpr ⟨rfl, doubled [] later rfl⟩
          rw [← List.append_nil (run ++ (more ++ word))]
          refine .star (fun c member => ⟨?_, fun other behind same => ?_⟩) (.inl rfl) (covers_empty_iff.mpr stars)
          · obtain early | late := List.mem_append.mp member
            · exact notSlash early
            · exact fun same => single.2 (same ▸ late)
          · have star : c = '*' := same.symm.trans (Option.some.inj behind).symm
            rw [star, List.mem_append] at member
            exact member.elim starless.1 starless.2

/-- A pattern matches all of a word whose letters differ if its stars can be written out to give
the word. Two stars in a row are the exception: the first one takes all that is left. -/
theorem covers_word_iff (distinct : word.Nodup) (starless : '*' ∉ word) (single : '/' ∉ word) :
    Covers (· = ·) pattern word [] ↔ Spells pattern word ∧ DoubledLast pattern := by
  constructor
  · intro covers
    exact ⟨.of_covers covers rfl, .of_covers covers rfl starless single⟩
  · rintro ⟨spells, doubled⟩
    exact spells.covers doubled distinct starless single

theorem Spells.eq_of_starless (spells : Spells pattern word) (starless : '*' ∉ pattern) : pattern = word := by
  induction spells with
  | nil => rfl
  | letter _ _ ih => rw [ih fun member => starless (List.mem_cons_of_mem _ member)]
  | star => exact absurd List.mem_cons_self starless

/-- Without stars a pattern matches itself and what goes on below it. -/
theorem strip?_starless {pattern text left : String} (starless : '*' ∉ pattern.toList) :
    strip? pattern text = some left ↔ text = pattern ++ left ∧ (left = "" ∨ ∃ below, left = "/" ++ below) := by
  have literal : star ∉ bytes pattern := fun member => starless ((ascii_mem_bytes '*' (by decide)).mp member)
  have ends : atBoundary (bytes left) = true ↔ left = "" ∨ ∃ below, left = "/" ++ below := by
    rw [bytes, atBoundary_characters, String.toList_eq_nil_iff, List.head?_eq_some_iff]
    apply or_congr_right
    constructor
    · rintro ⟨below, whole⟩
      exact ⟨String.ofList below, by rw [← String.ofList_toList (s := left), whole, String.ofList_cons]; rfl⟩
    · rintro ⟨below, whole⟩
      exact ⟨below.toList, by rw [whole, String.toList_append]; rfl⟩
  rw [strip?_eq_some_iff_stripBytes, stripBytes_literal literal, ends, ← bytes_append, bytes_inj]

/-- A pattern matches a word of ASCII letters as a whole or not at all. -/
theorem isSome_strip?_word {pattern word : String} (ascii : ∀ c ∈ word.toList, c.toNat < 128)
    (distinct : word.toList.Nodup) (starless : '*' ∉ word.toList) (single : '/' ∉ word.toList) :
    (strip? pattern word).isSome ↔ Spells pattern.toList word.toList ∧ DoubledLast pattern.toList := by
  have apart : ∀ next, ['*', next] <:+: pattern.toList → ∀ c ∈ word.toList, BeginAlike next c → next = c :=
    fun next _ c member alike => firstByte_eq_ascii (ascii c member) alike
  rw [← covers_word_iff distinct starless single, Option.isSome_iff_exists]
  constructor
  · rintro ⟨left, stripped⟩
    have within : slash ∉ bytes word := fun member => single ((ascii_mem_bytes '/' (by decide)).mp member)
    have nothing : bytes left = bytes "" := stripBytes_whole within (strip?_eq_some_iff_stripBytes.mp stripped)
    rw [bytes_inj.mp nothing] at stripped
    exact (strip?_eq_some_iff_covers_same apart).mp stripped
  · intro covers
    exact ⟨"", (strip?_eq_some_iff_covers_same apart).mpr covers⟩

end Glob

namespace BootOrder

/-- A line sets the stop mark if it goes on below it or is the mark itself, written out or with
stars. -/
def SetsStop (line : String) : Prop :=
  (∃ rest, line = haltEntry ++ rest ∧ (rest = "" ∨ ∃ below, rest = "/" ++ below)) ∨
    (Spells line.toList haltEntry.toList ∧ DoubledLast line.toList)

variable {line : String}

theorem finds_haltEntry_iff : Finds haltEntry line ↔ SetsStop line := by
  have below : (strip? haltEntry line).isSome ↔
      ∃ rest, line = haltEntry ++ rest ∧ (rest = "" ∨ ∃ below, rest = "/" ++ below) := by
    simp only [Option.isSome_iff_exists, @strip?_starless haltEntry _ _ (by decide)]
  have spelled : (strip? line haltEntry).isSome ↔ Spells line.toList haltEntry.toList ∧ DoubledLast line.toList :=
    isSome_strip?_word (by decide) (by decide) (by decide) (by decide)
  have content (matched : (strip? haltEntry line).isSome ∨ (strip? line haltEntry).isSome) : line ≠ "" := by
    intro empty
    rw [empty] at matched
    revert matched
    decide
  rw [Finds, matchesEither, Bool.or_eq_true, and_iff_right_of_imp content, below, spelled, SetsStop]

/-- A line without stars sets the mark if it names it, or something below it. -/
theorem setsStop_starless_iff (starless : '*' ∉ line.toList) :
    SetsStop line ↔ line = haltEntry ∨ ∃ below, line = haltEntry ++ "/" ++ below := by
  constructor
  · intro sets
    obtain ⟨rest, whole, none | ⟨below, deeper⟩⟩ | ⟨spells, _⟩ := sets
    · exact .inl (by rw [whole, none, String.append_empty])
    · exact .inr ⟨below, by rw [whole, deeper, String.append_assoc]⟩
    · exact .inl (String.toList_inj.mp (spells.eq_of_starless starless))
  · intro named
    obtain same | ⟨below, whole⟩ := named
    · exact .inl ⟨"", by rw [same, String.append_empty], .inl rfl⟩
    · exact .inl ⟨"/" ++ below, by rw [whole, String.append_assoc], .inr ⟨below, rfl⟩⟩

variable {σ : Type} [Timeline σ] [DriveMapper σ] [Logging σ]

/-- Flattening sets the stop mark at the number of the first line of the text that asks for it in
any of these ways, and at no other place. -/
theorem stop_mark_by_lines (raw : String) (registry : Registry) (before : Recorded σ) :
    let flattened := (registry.flatten (parse raw) before).1.1
    (∀ line, Finds haltEntry line ↔ SetsStop line) ∧
    (∀ line, '*' ∉ line.toList →
      (SetsStop line ↔ line = haltEntry ∨ ∃ below, line = haltEntry ++ "/" ++ below)) ∧
    (∀ rank, (parse raw).haltRank? = some rank ↔ FirstFound haltEntry (textLines raw) rank) ∧
    (∀ rank, FirstFound haltEntry (textLines raw) rank →
      flattened = if registry.has .halt then registry else registry.insert (.halt rank)) ∧
    ((∀ line ∈ textLines raw, ¬SetsStop line) → flattened = registry) := by
  intro flattened
  have ranked (rank : Nat) : (parse raw).haltRank? = some rank ↔ FirstFound haltEntry (textLines raw) rank := by
    rw [haltRank?, rank?_parse, rank?_eq_some_iff]
  have placed : flattened = registry.placed (parse raw) := (registry.flatten_apply (parse raw) before).1
  refine ⟨fun line => finds_haltEntry_iff, fun line => setsStop_starless_iff, ranked, fun rank first => ?_, fun none => ?_⟩
  · rw [placed, Registry.placed, (ranked rank).mpr first]
    rfl
  · have unranked : (parse raw).haltRank? = Option.none := by
      rw [haltRank?, rank?_parse, rank?_eq_none_iff]
      exact fun line member => none line member ∘ finds_haltEntry_iff.mp
    rw [placed, Registry.placed, unranked]

/-- The second line spells the mark, and the third one goes on below it. -/
theorem stop_mark_by_lines_starred :
    let raw := "/rom@a\nH*T\nHALT/0"
    let flattened (raw : String) := (Registry.flatten {} (parse raw) ({ platform := {} } : Recorded Scripted.Board)).1.1
    FirstFound haltEntry (textLines raw) 2 ∧ flattened raw = Registry.insert {} (.halt 2) ∧
      '*' ∉ "HALT/0".toList ∧ SetsStop "HALT/0" ∧
      (∀ line ∈ textLines "HALTED\n**T", ¬SetsStop line) ∧ flattened "HALTED\n**T" = {} := by
  intro raw flattened
  obtain ⟨asks, starless, _, marks, _⟩ := stop_mark_by_lines raw {} ({ platform := {} } : Recorded Scripted.Board)
  have ranked : (BootOrder.mk (textLines raw)).rank? haltEntry = some 2 := by decide
  have first : FirstFound haltEntry (textLines raw) 2 := rank?_eq_some_iff.mp ranked
  have plain : '*' ∉ "HALT/0".toList := by decide
  have unranked : (BootOrder.mk (textLines "HALTED\n**T")).rank? haltEntry = none := by decide
  have silent : ∀ line ∈ textLines "HALTED\n**T", ¬SetsStop line :=
    fun line member sets => rank?_eq_none_iff.mp unranked line member ((asks line).mpr sets)
  exact ⟨first, marks 2 first, plain, (starless _ plain).mpr (.inr ⟨"0", by decide⟩), silent,
    (stop_mark_by_lines "HALTED\n**T" {} _).2.2.2.2 silent⟩

/-- A line for every device stops the boot, though no line names the stop mark. -/
theorem star_line_stops :
    ¬∀ (raw : String) (rank : Nat), (parse raw).haltRank? = some rank →
      (textLines raw)[rank - 1]? = some haltEntry := by
  intro named
  have marked : (parse "/rom@a\n*").haltRank? = some 2 := by decide
  have there := named "/rom@a\n*" 2 marked
  revert there
  decide

end BootOrder

end BootFlow
