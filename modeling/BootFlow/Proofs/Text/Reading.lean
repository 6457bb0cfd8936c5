import BootFlow.Proofs.Text.Numeral
import BootFlow.Proofs.Text.Lines
import Mathlib.Data.List.DropRight
import Mathlib.Data.List.Forall2
import Mathlib.Data.Nat.Digits.Defs

namespace BootFlow.Text

/-! Which texts are read as a number: an optional plus sign and the digits behind it, the most
significant first, with a mark in front where they are hexadecimal. -/

/-- A digit is written in lower or in upper case. -/
def WritesDigit (c : Char) (digit : Nat) : Prop :=
  c = digit.digitChar ∨ c = digit.digitChar.toUpper

instance (c : Char) (digit : Nat) : Decidable (WritesDigit c digit) :=
  inferInstanceAs (Decidable (_ ∨ _))

/-- At least one digit of a base, and the number that all of them stand for. -/
def Digits (base : Nat) (chars : List Char) (value : Nat) : Prop :=
  ∃ digits : List Nat, digits ≠ [] ∧ (∀ digit ∈ digits, digit < base) ∧ List.Forall₂ WritesDigit chars digits ∧
    Nat.ofDigits base digits.reverse = value

inductive Numeral (base : Nat) : List Char → Nat → Prop
  | bare {chars : List Char} {value : Nat} (digits : Digits base chars value) : Numeral base chars value
  | signed {chars : List Char} {value : Nat} (digits : Digits base chars value) : Numeral base ('+' :: chars) value

inductive NumberText : List Char → Nat → Prop
  | decimal {chars : List Char} {value : Nat} (numeral : Numeral 10 chars value) : NumberText chars value
  | hexadecimal {mark : Char} {chars : List Char} {value : Nat} (marked : mark = 'x' ∨ mark = 'X')
      (numeral : Numeral 16 chars value) : NumberText ('0' :: mark :: chars) value

section

variable {base start value : Nat} {c : Char} {chars : List Char}

theorem digitValue?_ascii {digit : Nat} (read : digitValue? c = some digit) : c.toNat < 128 := by
  unfold digitValue? at read
  have letter : c ≤ 'f' ∨ c ≤ '9' ∨ c ≤ 'F' := by
    split at read
    · exact .inr (.inl (by tauto))
    · split at read
      · exact .inl (by tauto)
      · split at read
        · exact .inr (.inr (by tauto))
        · cases read
  rcases letter with upTo | upTo | upTo
  all_goals exact Nat.lt_of_le_of_lt (UInt32.le_iff_toNat_le.mp upTo) (by decide)

theorem digitValue?_eq_some_iff {digit : Nat} : digitValue? c = some digit ↔ digit < 16 ∧ WritesDigit c digit := by
  constructor
  · intro read
    have table : ∀ code < 128, ∀ digit ∈ digitValue? (Char.ofNat code),
        digit < 16 ∧ WritesDigit (Char.ofNat code) digit := by
      decide +kernel
    have written := table c.toNat (digitValue?_ascii read)
    rw [Char.ofNat_toNat] at written
    exact written digit read
  · have table : ∀ digit < 16, digitValue? digit.digitChar.toUpper = some digit := by decide
    rintro ⟨small, rfl | rfl⟩
    · exact digitValue?_digitChar small
    · exact table digit small

theorem positional?_eq_some_iff (bound : base ≤ 16) :
    positional? base chars start = some value ↔ ∃ digits : List Nat, (∀ digit ∈ digits, digit < base) ∧
      List.Forall₂ WritesDigit chars digits ∧
      start * base ^ digits.length + Nat.ofDigits base digits.reverse = value := by
  induction chars generalizing start with
  | nil => simp [positional?, List.forall₂_nil_left_iff]
  | cons c rest ih =>
      have longer (digit : Nat) (digits : List Nat) :
          start * base ^ (digit :: digits).length + Nat.ofDigits base (digit :: digits).reverse =
            (start * base + digit) * base ^ digits.length + Nat.ofDigits base digits.reverse := by
        rw [List.reverse_cons, Nat.ofDigits_append, Nat.ofDigits_singleton, List.length_reverse, List.length_cons]
        ring
      constructor
      · intro read
        rw [positional?] at read
        cases first : digitValue? c with
        | none => simp [first] at read
        | some digit =>
            simp only [first] at read
            split at read
            · rename_i small
              obtain ⟨digits, valid, written, total⟩ := ih.mp read
              refine ⟨digit :: digits, ?_, .cons (digitValue?_eq_some_iff.mp first).2 written, ?_⟩
              · exact List.forall_mem_cons.mpr ⟨small, valid⟩
              · rw [longer, total]
            · cases read
      · rintro ⟨digits, valid, written, total⟩
        cases written with
        | @cons _ digit _ digits first written =>
            obtain ⟨small, valid⟩ := List.forall_mem_cons.mp valid
            have read := digitValue?_eq_some_iff.mpr ⟨Nat.lt_of_lt_of_le small bound, first⟩
            rw [longer] at total
            simp only [positional?, read, if_pos small]
            exact ih.mpr ⟨digits, valid, written, total⟩

theorem digits_iff (bound : base ≤ 16) :
    Digits base chars value ↔ chars ≠ [] ∧ positional? base chars 0 = some value := by
  rw [positional?_eq_some_iff bound]
  constructor
  · rintro ⟨digits, some, valid, written, rfl⟩
    refine ⟨?_, digits, valid, written, by rw [Nat.zero_mul, Nat.zero_add]⟩
    rintro rfl
    exact some (List.forall₂_nil_left_iff.mp written)
  · rintro ⟨some, digits, valid, written, total⟩
    refine ⟨digits, ?_, valid, written, by rwa [Nat.zero_mul, Nat.zero_add] at total⟩
    rintro rfl
    exact some (List.forall₂_nil_right_iff.mp written)

theorem not_digits_plus (bound : base ≤ 16) : ¬Digits base ('+' :: chars) value := by
  rw [digits_iff bound]
  have plus : digitValue? '+' = none := by decide
  simp [positional?, plus]

theorem numeral?_eq_some_iff (bound : base ≤ 16) : numeral? base chars = some value ↔ Numeral base chars value := by
  constructor
  · intro read
    unfold numeral? at read
    split at read
    · cases read
    · cases read
    · rename_i digits more
      exact .signed ((digits_iff bound).mpr ⟨more, read⟩)
    · rename_i some _ _
      exact .bare ((digits_iff bound).mpr ⟨some, read⟩)
  · intro numeral
    unfold numeral?
    cases numeral with
    | bare digits =>
        have read := (digits_iff bound).mp digits
        split
        · exact absurd rfl read.1
        · exact absurd digits (not_digits_plus bound)
        · exact absurd digits (not_digits_plus bound)
        · exact read.2
    | signed digits =>
        have read := (digits_iff bound).mp digits
        split
        · contradiction
        · simp_all
        · simp_all
        · simp_all

theorem not_numeral_marked {mark : Char} (marked : mark = 'x' ∨ mark = 'X') :
    ¬Numeral 10 ('0' :: mark :: chars) value := by
  rw [← numeral?_eq_some_iff (by decide)]
  have zero : digitValue? '0' = some 0 := by decide
  have unread : digitValue? mark = none := by
    rcases marked with rfl | rfl <;> decide
  simp [numeral?, positional?, zero, unread]

theorem readNumber?_eq_some_iff : readNumber? chars = some value ↔ NumberText chars value ∧ value < 2 ^ 64 := by
  have fits : value < UInt64.size ↔ value < 2 ^ 64 := Iff.rfl
  simp only [readNumber?, Option.filter_eq_some_iff, decide_eq_true_eq, fits]
  refine and_congr_left fun _ => ?_
  constructor
  · intro read
    split at read
    · exact .hexadecimal (.inl rfl) ((numeral?_eq_some_iff (by decide)).mp read)
    · exact .hexadecimal (.inr rfl) ((numeral?_eq_some_iff (by decide)).mp read)
    · exact .decimal ((numeral?_eq_some_iff (by decide)).mp read)
  · intro text
    cases text with
    | hexadecimal marked numeral =>
        rcases marked with rfl | rfl
        · exact (numeral?_eq_some_iff (by decide)).mpr numeral
        · exact (numeral?_eq_some_iff (by decide)).mpr numeral
    | decimal numeral =>
        split
        · exact absurd numeral (not_numeral_marked (.inl rfl))
        · exact absurd numeral (not_numeral_marked (.inr rfl))
        · exact (numeral?_eq_some_iff (by decide)).mpr numeral

theorem readNumber?_eq_none_iff :
    readNumber? chars = none ↔ ∀ value, NumberText chars value → 2 ^ 64 ≤ value := by
  rw [Option.eq_none_iff_forall_ne_some]
  refine forall_congr' fun value => ?_
  rw [Ne, readNumber?_eq_some_iff, not_and, Nat.not_lt]

example : ["0x", "+", "-1", "1_000", "18446744073709551616"].map (readNumber? ·.toList) =
    List.replicate 5 none := by
  decide

end

section

variable {value : Nat} (fits : value < 2 ^ 64)

include fits

/-- A written number is read as itself, with leading zeros or without. -/
theorem readNumber?_decimal : readNumber? (decimal value).toList = some value := by
  have digits : Digits 10 (decimal value).toList value := by
    rw [decimal, String.toList_ofList, digits_iff (by decide)]
    exact ⟨Nat.toDigits_ne_nil, positional?_toDigits (by decide) (by decide) value⟩
  exact readNumber?_eq_some_iff.mpr ⟨.decimal (.bare digits), fits⟩

theorem readNumber?_hexPadded (width : Nat) : readNumber? ("0x" ++ hexPadded width value).toList = some value := by
  have digits : Digits 16 (hexPadded width value).toList value := by
    rw [digits_iff (by decide), toList_hexPadded, positional?_append, positional?_zeros 16 _ (by decide)]
    refine ⟨?_, positional?_toDigits (by decide) (by decide) value⟩
    exact List.append_ne_nil_of_right_ne_nil _ Nat.toDigits_ne_nil
  have marked : ("0x" ++ hexPadded width value).toList = '0' :: 'x' :: (hexPadded width value).toList :=
    String.toList_append
  rw [marked]
  exact readNumber?_eq_some_iff.mpr ⟨.hexadecimal (.inl rfl) (.bare digits), fits⟩

end

/-- What is left of a text without the blanks at its ends. -/
structure Trims (chars core : List Char) : Prop where
  blanks : ∃ front back, chars = front ++ core ++ back ∧ (∀ c ∈ front, isBlank c) ∧ ∀ c ∈ back, isBlank c
  starts : ∀ c ∈ core.head?, isBlank c = false
  ends : ∀ c ∈ core.getLast?, isBlank c = false

theorem trims_trim (chars : List Char) : Trims chars (trim chars) where
  blanks := by
    refine ⟨chars.takeWhile isBlank, (trimStart chars).rtakeWhile isBlank, ?_, ?_, ?_⟩
    · have parted : trim chars ++ (trimStart chars).rtakeWhile isBlank = trimStart chars :=
        List.rdropWhile_append_rtakeWhile
      rw [List.append_assoc, parted, trimStart, List.takeWhile_append_dropWhile]
    · exact fun c member => List.mem_takeWhile_imp member
    · exact fun c member => List.mem_rtakeWhile_imp member
  starts c first := by
    have start : trim chars <+: trimStart chars := List.rdropWhile_prefix isBlank _
    obtain ⟨rest, whole⟩ := List.head?_eq_some_iff.mp first
    obtain ⟨more, started⟩ := whole ▸ start
    have visible := List.head?_dropWhile_not isBlank chars
    rw [← trimStart, ← started] at visible
    exact visible
  ends c last := by
    obtain ⟨some, rfl⟩ := List.mem_getLast?_eq_getLast last
    exact Bool.eq_false_iff.mpr (List.rdropWhile_last_not isBlank (trimStart chars) some)

theorem Trims.eq_trim {chars core : List Char} (trims : Trims chars core) : core = trim chars := by
  obtain ⟨front, back, rfl, frontBlank, backBlank⟩ := trims.blanks
  have started : trimStart (front ++ core ++ back) = trimStart (core ++ back) := by
    rw [trimStart, List.append_assoc, List.dropWhile_append_of_pos frontBlank, trimStart]
  rw [trim, started]
  cases core using List.reverseRecOn with
  | nil => rw [List.nil_append, trimStart, List.dropWhile_eq_nil_iff.mpr backBlank, trimEnd_eq_nil_iff.mpr (by simp)]
  | append_singleton before last =>
      have lastVisible : isBlank last = false := trims.ends last (by simp)
      have unmoved : trimStart (before ++ [last] ++ back) = before ++ [last] ++ back := by
        cases before with
        | nil => exact List.dropWhile_cons_of_neg (by simp [lastVisible])
        | cons first before =>
            have firstVisible : isBlank first = false := trims.starts first rfl
            exact List.dropWhile_cons_of_neg (by simp [firstVisible])
      rw [unmoved, trimEnd_append_blank _ backBlank, trimEnd_append_singleton _ lastVisible]

end BootFlow.Text
