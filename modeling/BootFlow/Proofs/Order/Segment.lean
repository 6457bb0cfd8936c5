import BootFlow.Proofs.Order.Glob
import BootFlow.Text

namespace BootFlow

open Glob Text

/-! A device path is a row of segments. A pattern that is one as well matches it segment
by segment, so segments of different length or place never match in part. -/

/-- Whether all characters of a text are of a kind is decided by going through the text, not
through the characters that there are. -/
instance decidableAllChars {kind : Char → Prop} [DecidablePred kind] (text : List Char) :
    Decidable (∀ c ∈ text, kind c) :=
  List.decidableBAll kind text

/-- What a device on a bus is called. -/
@[ext] structure Label where
  text : String
  plain : ∀ c ∈ text.toList, c ≠ '/' ∧ c ≠ '@' ∧ c ≠ '\n'

/-- Where a device is on its bus. -/
@[ext] structure UnitAddress where
  text : String
  plain : ∀ c ∈ text.toList, c ≠ '/' ∧ c ≠ '*' ∧ isBlank c = false

/-- One hop of a device path. -/
@[ext] structure Segment where
  label : Label
  unit : UnitAddress

namespace Label

/-- The label that the boot order may choose. -/
def star : Label where
  text := "*"
  plain := by decide

def IsLiteral (label : Label) : Prop := '*' ∉ label.text.toList

instance (label : Label) : Decidable label.IsLiteral :=
  inferInstanceAs (Decidable (_ ∉ _))

end Label

namespace Segment

/-- The segment without the slash that starts it. -/
def body (segment : Segment) : String :=
  segment.label.text ++ "@" ++ segment.unit.text

def text (segment : Segment) : String :=
  "/" ++ segment.body

def joined : List Segment → String
  | [] => ""
  | segment :: rest => segment.text ++ joined rest

theorem joined_append (front back : List Segment) : joined (front ++ back) = joined front ++ joined back := by
  induction front with
  | nil => rw [List.nil_append, joined, String.empty_append]
  | cons segment front ih => rw [List.cons_append, joined, joined, ih, String.append_assoc]

/-- The separator between a label and a unit address, as a byte. -/
def atSign : UInt8 := 0x40

theorem bytes_body (segment : Segment) :
    bytes segment.body = bytes segment.label.text ++ atSign :: bytes segment.unit.text := by
  rw [body, bytes_append, bytes_append, List.append_assoc]
  rfl

theorem bytes_joined_cons (segment : Segment) (rest : List Segment) :
    bytes (joined (segment :: rest)) = slash :: (bytes segment.body ++ bytes (joined rest)) := by
  rw [joined, text, bytes_append, bytes_append]
  rfl

theorem atBoundary_joined (segments : List Segment) : atBoundary (bytes (joined segments)) = true := by
  cases segments with
  | nil => rfl
  | cons segment rest =>
      rw [bytes_joined_cons]
      rfl

theorem slash_notMem_label (label : Label) : slash ∉ bytes label.text := fun member =>
  (label.plain '/' ((ascii_mem_bytes '/' (by decide)).mp member)).1 rfl

theorem atSign_notMem_label (label : Label) : atSign ∉ bytes label.text := fun member =>
  (label.plain '@' ((ascii_mem_bytes '@' (by decide)).mp member)).2.1 rfl

theorem slash_notMem_unit (unit : UnitAddress) : slash ∉ bytes unit.text := fun member =>
  (unit.plain '/' ((ascii_mem_bytes '/' (by decide)).mp member)).1 rfl

theorem star_notMem_unit (unit : UnitAddress) : Glob.star ∉ bytes unit.text := fun member =>
  (unit.plain '*' ((ascii_mem_bytes '*' (by decide)).mp member)).2.1 rfl

theorem slash_notMem_body (segment : Segment) : slash ∉ bytes segment.body := by
  rw [bytes_body, List.mem_append, List.mem_cons]
  rintro (label | same | unit)
  · exact slash_notMem_label _ label
  · exact absurd same (by decide)
  · exact slash_notMem_unit _ unit

/-- A segment is told by its parts, since its label holds no at sign. -/
theorem bytes_body_inj {left right : Segment} : bytes left.body = bytes right.body ↔ left = right := by
  have front (segment : Segment) :
      (bytes segment.body).takeWhile (· != atSign) = bytes segment.label.text := by
    have within : ∀ byte ∈ bytes segment.label.text, (byte != atSign) = true := fun byte member =>
      bne_iff_ne.mpr fun same => atSign_notMem_label segment.label (same ▸ member)
    rw [bytes_body, List.takeWhile_append_of_pos within, List.takeWhile_cons_of_neg (by simp),
      List.append_nil]
  refine ⟨fun same => ?_, congrArg fun segment : Segment => bytes segment.body⟩
  have labels : left.label.text = right.label.text := by
    rw [← bytes_inj, ← front left, same, front right]
  have units : left.unit.text = right.unit.text := by
    rw [bytes_body, bytes_body, labels, List.append_cancel_left_eq, List.cons_inj_right] at same
    exact bytes_inj.mp same
  exact Segment.ext (Label.ext labels) (UnitAddress.ext units)

/-- The first segment, as a pattern, matches the second one. -/
def Fits (pattern segment : Segment) : Prop :=
  stripBytes (bytes pattern.body) (bytes segment.body) = some []

theorem fits_literal {pattern segment : Segment} (literal : pattern.label.IsLiteral) :
    Fits pattern segment ↔ pattern = segment := by
  have plain : Glob.star ∉ bytes pattern.body := by
    rw [bytes_body, List.mem_append, List.mem_cons]
    rintro (label | same | unit)
    · exact literal ((ascii_mem_bytes '*' (by decide)).mp label)
    · exact absurd same (by decide)
    · exact star_notMem_unit _ unit
  rw [Fits, stripBytes_literal_whole plain, bytes_body_inj]

/-- A star in place of the label leaves the unit address to be matched. -/
theorem fits_star {pattern segment : Segment} (starred : pattern.label = .star) :
    Fits pattern segment ↔ pattern.unit = segment.unit := by
  have stops : ∀ byte ∈ bytes segment.label.text,
      (byte != slash && some byte != some atSign) = true := by
    intro byte member
    have notSlash : byte ≠ slash := fun same => slash_notMem_label segment.label (same ▸ member)
    have notAt : byte ≠ atSign := fun same => atSign_notMem_label segment.label (same ▸ member)
    simp [notSlash, notAt]
  have skips : skipStar (some atSign) (bytes segment.body) = atSign :: bytes segment.unit.text := by
    rw [bytes_body, skipStar, List.dropWhile_append_of_pos stops, List.dropWhile_cons_of_neg (by simp)]
  have pattern_bytes : bytes pattern.body = Glob.star :: atSign :: bytes pattern.unit.text := by
    rw [bytes_body, starred]
    rfl
  rw [Fits, pattern_bytes, stripBytes_star, List.head?_cons, skips, stripBytes_same (by decide),
    stripBytes_literal_whole (star_notMem_unit _), bytes_inj, UnitAddress.ext_iff]

/-- The patterns match the segments at the start of the path, one by one. -/
def Heads : List Segment → List Segment → Prop
  | [], _ => True
  | _ :: _, [] => False
  | pattern :: patterns, segment :: segments => Fits pattern segment ∧ Heads patterns segments

theorem stripBytes_joined (patterns segments : List Segment) :
    (Heads patterns segments → stripBytes (bytes (joined patterns)) (bytes (joined segments)) =
      some (bytes (joined (segments.drop patterns.length)))) ∧
    (¬Heads patterns segments → stripBytes (bytes (joined patterns)) (bytes (joined segments)) = none) := by
  induction patterns generalizing segments with
  | nil => exact ⟨fun _ => if_pos (atBoundary_joined segments), fun none => absurd trivial none⟩
  | cons pattern patterns ih =>
      cases segments with
      | nil =>
          refine ⟨fun heads => heads.elim, fun _ => ?_⟩
          rw [bytes_joined_cons]
          exact stripBytes_past_end (by decide) _
      | cons segment segments =>
          have split : stripBytes (bytes (joined (pattern :: patterns))) (bytes (joined (segment :: segments))) =
              ((stripBytes (bytes pattern.body) (bytes segment.body)).map
                (· ++ bytes (joined segments))).bind (stripBytes (bytes (joined patterns))) := by
            rw [bytes_joined_cons, bytes_joined_cons, stripBytes_same (by decide),
              stripBytes_append (atBoundary_joined patterns),
              stripBytes_append_text (slash_notMem_body pattern) (slash_notMem_body segment)
                (atBoundary_joined segments)]
          rw [split, Heads, Fits]
          cases stripped : stripBytes (bytes pattern.body) (bytes segment.body) with
          | none => simp
          | some left =>
              have whole : left = [] := stripBytes_whole (slash_notMem_body segment) stripped
              simpa [whole] using ih segments

/-- One path matches the other as far as it goes. -/
theorem matchesEither_joined (left right : List Segment) :
    matchesEither (joined left) (joined right) = true ↔ Heads left right ∨ Heads right left := by
  have stripped (patterns segments : List Segment) :
      (strip? (joined patterns) (joined segments)).isSome = true ↔ Heads patterns segments := by
    by_cases heads : Heads patterns segments
    · rw [strip?, (stripBytes_joined patterns segments).1 heads, Option.bind_some, ofBytes?_bytes]
      exact ⟨fun _ => heads, fun _ => rfl⟩
    · rw [strip?, (stripBytes_joined patterns segments).2 heads]
      exact ⟨fun none => (nomatch none), fun found => absurd found heads⟩
  rw [matchesEither, Bool.or_eq_true, stripped, stripped]

/-! A path often holds a run of segments that share their label: the bridges on the way
to a controller, or the hubs on the way to a port. -/

section

variable {α : Type} {unit : α → UnitAddress} {shared : Label} {pattern segment : Segment}
  {patterns segments : List Segment} {left right : List α}

/-- Runs of one length match if they are the same run. -/
theorem heads_run (literal : shared.IsLiteral) (distinct : Function.Injective unit)
    (level : left.length = right.length) :
    Heads (left.map (fun one => ⟨shared, unit one⟩) ++ pattern :: patterns)
        (right.map (fun one => ⟨shared, unit one⟩) ++ segment :: segments) ↔
      left = right ∧ Fits pattern segment ∧ Heads patterns segments := by
  induction left generalizing right with
  | nil =>
      cases right with
      | nil => simp [Heads]
      | cons => cases level
  | cons one left ih =>
      cases right with
      | nil => cases level
      | cons other right =>
          have first : Fits ⟨shared, unit one⟩ ⟨shared, unit other⟩ ↔ one = other := by
            rw [fits_literal literal, Segment.mk.injEq, eq_self, true_and, distinct.eq_iff]
          simp only [List.map_cons, List.cons_append, Heads, first, ih (Nat.succ.inj level),
            List.cons.injEq, and_assoc]

/-- Where nothing behind a run is taken for a part of it, only runs of one length match. -/
theorem heads_run_length
    (short : ∀ other (more : List α), Fits pattern ⟨shared, unit other⟩ →
      ¬Heads patterns (more.map (fun one => ⟨shared, unit one⟩) ++ segment :: segments))
    (long : ∀ one (more : List α), Fits ⟨shared, unit one⟩ segment →
      ¬Heads (more.map (fun one => ⟨shared, unit one⟩) ++ pattern :: patterns) segments)
    (heads : Heads (left.map (fun one => ⟨shared, unit one⟩) ++ pattern :: patterns)
      (right.map (fun one => ⟨shared, unit one⟩) ++ segment :: segments)) :
    left.length = right.length := by
  induction left generalizing right with
  | nil =>
      cases right with
      | nil => rfl
      | cons other right => exact absurd heads.2 (short other right heads.1)
  | cons one left ih =>
      cases right with
      | nil => exact absurd heads.2 (long one left heads.1)
      | cons other right => exact congrArg (· + 1) (ih heads.2)

end

end Segment

end BootFlow
