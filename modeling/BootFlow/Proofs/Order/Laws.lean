import BootFlow.Proofs.Order.Match

namespace BootFlow.Glob

open Text

/-! Laws of matching: every pattern matches itself, a slash in a pattern parts the match, and a
path that goes on deeper is matched like the path it starts with. -/

variable {pattern text rest left : List UInt8} {stop : Option UInt8}

theorem skipStar_stars (stars : Nat) (other : stop ≠ some star) (stops : stopsBefore stop rest = true) :
    skipStar stop (List.replicate stars star ++ rest) = rest := by
  refine skipStar_eq_iff.mpr ⟨_, rfl, fun byte member => ?_, stops⟩
  rw [(List.mem_replicate.mp member).2]
  exact ⟨by decide, other.symm⟩

/-- A pattern matches itself, also with more stars in front of its own first one. -/
theorem stripBytes_self_behind_stars (pattern : List UInt8) :
    stripBytes pattern pattern = some [] ∧ ∀ stars,
      stripBytes (star :: pattern) (List.replicate stars star ++ star :: pattern) = some [] := by
  have counted (stars : Nat) (behind : List UInt8) :
      List.replicate stars star ++ star :: behind = List.replicate (stars + 1) star ++ behind := by
    rw [List.replicate_succ', List.append_assoc, List.singleton_append]
  -- A star that is followed by a star stops at the text's first one and takes nothing, so at the
  -- last star of a run the text is behind by the whole run.
  induction pattern with
  | nil =>
      refine ⟨rfl, fun stars => ?_⟩
      rw [counted, stripBytes_star, skipStar_stars _ (by simp) rfl]
      rfl
  | cons first pattern ih =>
      by_cases starred : first = star
      · refine ⟨starred ▸ ih.2 0, fun stars => ?_⟩
        have stops : stopsBefore (some star) (List.replicate (stars + 1) star ++ star :: pattern) = true := by
          simp [stopsBefore, List.replicate_succ]
        rw [starred, counted, stripBytes_star, List.head?_cons, skipStar_stopped stops]
        exact ih.2 (stars + 1)
      · have whole : stripBytes (first :: pattern) (first :: pattern) = some [] := by
          rw [stripBytes_same starred, ih.1]
        have stops : stopsBefore (some first) (first :: pattern) = true := by
          simp [stopsBefore]
        refine ⟨whole, fun stars => ?_⟩
        rw [counted, stripBytes_star, List.head?_cons, skipStar_stars _ (by simpa using starred) stops]
        exact whole

theorem strip?_self (text : String) : strip? text text = some "" :=
  strip?_eq_some_iff_stripBytes.mpr (stripBytes_self_behind_stars (bytes text)).1

theorem matchesEither_self (text : String) : matchesEither text text = true := by
  rw [matchesEither, strip?_self]
  rfl

theorem matchesEither_comm (left right : String) : matchesEither left right = matchesEither right left :=
  Bool.or_comm _ _

theorem stripBytes_plain {byte : UInt8} (plain : byte ≠ star) :
    stripBytes (byte :: pattern) text = some left ↔
      ∃ rest, text = byte :: rest ∧ stripBytes pattern rest = some left := by
  constructor
  · intro stripped
    cases text with
    | nil =>
        rw [stripBytes_past_end plain] at stripped
        cases stripped
    | cons other rest =>
        simp only [stripBytes, if_neg plain, Option.ite_none_right_eq_some] at stripped
        obtain ⟨rfl, more⟩ := stripped
        exact ⟨rest, rfl, more⟩
  · rintro ⟨rest, rfl, more⟩
    rw [stripBytes_same plain, more]

/-- A part of the pattern that holds no star is matched by itself. -/
theorem stripBytes_starless {front : List UInt8} (starless : star ∉ front) :
    stripBytes (front ++ pattern) text = some left ↔
      ∃ rest, text = front ++ rest ∧ stripBytes pattern rest = some left := by
  induction front generalizing text with
  | nil => simp
  | cons byte front ih =>
      rw [List.mem_cons, not_or] at starless
      rw [List.cons_append, stripBytes_plain (Ne.symm starless.1)]
      simp only [ih starless.2, List.cons_append]
      constructor
      · intro ⟨_, whole, rest, later, stripped⟩
        exact ⟨rest, by rw [whole, later], stripped⟩
      · intro ⟨rest, whole, stripped⟩
        exact ⟨_, whole, rest, rfl, stripped⟩

theorem Leaves.deeper (leaves : Leaves pattern text left) (deeper : List UInt8) :
    Leaves pattern (text ++ slash :: deeper) (left ++ slash :: deeper) := by
  have slashed {text : List UInt8} (ends : text = [] ∨ text.head? = some slash) :
      (text ++ slash :: deeper).head? = some slash := by
    rcases ends with rfl | first
    · rfl
    · rw [List.head?_append, first, Option.some_or]
  induction leaves with
  | done ends => exact .done (.inr (slashed ends))
  | literal plain _ ih => exact .literal plain ih
  | @star pattern run text left passes stops _ ih =>
      rw [List.append_assoc]
      refine .star passes (.inr ?_) ih
      rcases stops with rfl | first | followed
      · exact .inl (slashed (.inl rfl))
      · exact .inl (slashed (.inr first))
      · cases text with
        | nil => exact .inl (slashed (.inl rfl))
        | cons byte text => exact .inr followed

theorem bytes_slash_append (text : String) : bytes ("/" ++ text) = slash :: bytes text :=
  bytes_append "/" text

theorem bytes_append_slash (front back : String) :
    bytes (front ++ "/" ++ back) = bytes front ++ slash :: bytes back := by
  rw [String.append_assoc, bytes_append, bytes_slash_append]

/-- What stands behind a slash of the pattern is matched against what is left behind a slash. -/
theorem strip?_parted {front back text left : String} :
    strip? (front ++ "/" ++ back) text = some left ↔
      ∃ behind, strip? front text = some ("/" ++ behind) ∧ strip? back behind = some left := by
  rw [strip?_eq_some_iff_stripBytes, bytes_append_slash, stripBytes_append rfl, Option.bind_eq_some_iff]
  constructor
  · rintro ⟨rest, stopped, onwards⟩
    obtain ⟨more, rfl, matched⟩ := (stripBytes_plain (by decide)).mp onwards
    -- What is left starts with the slash, so the cut behind it is between two characters.
    obtain ⟨_, tail, _, same⟩ := (stripBytes_eq_some_iff.mp stopped).cuts
    obtain ⟨behind, rfl, bytesBehind⟩ := exists_append_of_bytes_cons '/' (by decide) same
    refine ⟨behind, strip?_eq_some_iff_stripBytes.mpr (stopped.trans (congrArg some same.symm)), ?_⟩
    rw [strip?_eq_some_iff_stripBytes, bytesBehind, matched]
  · rintro ⟨behind, stopped, matched⟩
    rw [strip?_eq_some_iff_stripBytes] at stopped matched
    refine ⟨_, stopped, ?_⟩
    rw [bytes_slash_append, stripBytes_same (by decide), matched]

theorem strip?_deeper {pattern text left : String} (stripped : strip? pattern text = some left)
    (deeper : String) : strip? pattern (text ++ "/" ++ deeper) = some (left ++ "/" ++ deeper) := by
  rw [strip?_eq_some_iff, bytes_append_slash, bytes_append_slash]
  exact (strip?_eq_some_iff.mp stripped).deeper (bytes deeper)

/-- Matching goes segment by segment: a slash in the pattern is a slash of the text, and a
match that has been found stays one when the path goes on behind a slash. -/
theorem matches_by_segment :
    (∀ front back text left : String, strip? (front ++ "/" ++ back) text = some left ↔
      ∃ behind, strip? front text = some ("/" ++ behind) ∧ strip? back behind = some left) ∧
    (∀ pattern text left : String, strip? pattern text = some left → ∀ deeper,
      strip? pattern (text ++ "/" ++ deeper) = some (left ++ "/" ++ deeper)) :=
  ⟨fun _ _ _ _ => strip?_parted, fun _ _ _ stripped deeper => strip?_deeper stripped deeper⟩

/-- A controller's pattern still matches where the path goes on to a disk. -/
theorem matches_by_segment_disk :
    strip? "/pci@i0cf8/*@1,1" "/pci@i0cf8/ide@1,1" = some "" ∧
      strip? "/pci@i0cf8/*@1,1" ("/pci@i0cf8/ide@1,1" ++ "/" ++ "drive@0/disk@0") =
        some ("" ++ "/" ++ "drive@0/disk@0") := by
  have controller : strip? "/pci@i0cf8/*@1,1" "/pci@i0cf8/ide@1,1" = some "" :=
    strip?_eq_some_iff_stripBytes.mpr (by decide)
  exact ⟨controller, matches_by_segment.2 _ _ _ controller _⟩

end BootFlow.Glob
