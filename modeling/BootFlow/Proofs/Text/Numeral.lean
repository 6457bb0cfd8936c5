import BootFlow.Text

namespace BootFlow.Text

/-! A written number is read back, so numbers are written differently unless they are
equal. -/

theorem positional?_append (base : Nat) (front back : List Char) (value : Nat) :
    positional? base (front ++ back) value = (positional? base front value).bind (positional? base back) := by
  induction front generalizing value with
  | nil => rfl
  | cons c rest ih =>
      simp only [List.cons_append, positional?]
      cases digitValue? c with
      | none => rfl
      | some digit =>
          simp only
          split
          · exact ih _
          · rfl

theorem digitValue?_digitChar {digit : Nat} (small : digit < 16) :
    digitValue? digit.digitChar = some digit := by
  have read : ∀ digit < 16, digitValue? digit.digitChar = some digit := by decide
  exact read digit small

theorem positional?_digitChar {base digit : Nat} (small : digit < base) (bound : base ≤ 16) (value : Nat) :
    positional? base [digit.digitChar] value = some (value * base + digit) := by
  simp only [positional?, digitValue?_digitChar (Nat.lt_of_lt_of_le small bound), if_pos small]

theorem positional?_toDigits {base : Nat} (two : 1 < base) (bound : base ≤ 16) (n : Nat) :
    positional? base (Nat.toDigits base n) 0 = some n := by
  induction n using Nat.strongRecOn with
  | ind n ih =>
      by_cases small : n < base
      · rw [Nat.toDigits_of_lt_base small, positional?_digitChar small bound, Nat.zero_mul, Nat.zero_add]
      · have positive : 0 < base := by omega
        have shorter : n / base < n := Nat.div_lt_self (by omega) two
        rw [Nat.toDigits_of_base_le two (Nat.le_of_not_lt small), positional?_append, ih _ shorter,
          Option.bind_some, positional?_digitChar (Nat.mod_lt n positive) bound, Nat.div_add_mod']

theorem positional?_zeros (base count : Nat) (positive : 0 < base) :
    positional? base (List.replicate count '0') 0 = some 0 := by
  have zero : digitValue? '0' = some 0 := by decide
  induction count with
  | zero => rfl
  | succ count ih =>
      rw [List.replicate_succ, positional?]
      simpa only [zero, if_pos positive, Nat.zero_mul] using ih

theorem toList_hex (n : Nat) : (hex n).toList = Nat.toDigits 16 n :=
  String.toList_ofList

theorem toList_hexPadded (width n : Nat) :
    (hexPadded width n).toList =
      List.replicate (width - (Nat.toDigits 16 n).length) '0' ++ Nat.toDigits 16 n :=
  String.toList_ofList

theorem hexPadded_zero (n : Nat) : hexPadded 0 n = hex n := by
  simp [hexPadded, hex, List.leftpad]

theorem hex_inj {left right : Nat} : hex left = hex right ↔ left = right := by
  refine ⟨fun same => ?_, congrArg hex⟩
  have read (n : Nat) : positional? 16 (hex n).toList 0 = some n := by
    rw [toList_hex, positional?_toDigits (by decide) (by decide)]
  rw [← Option.some_inj, ← read left, same, read right]

theorem hexPadded_inj {width left right : Nat} :
    hexPadded width left = hexPadded width right ↔ left = right := by
  refine ⟨fun same => ?_, congrArg (hexPadded width)⟩
  have read (n : Nat) : positional? 16 (hexPadded width n).toList 0 = some n := by
    rw [toList_hexPadded, positional?_append, positional?_zeros 16 _ (by decide), Option.bind_some,
      positional?_toDigits (by decide) (by decide)]
  rw [← Option.some_inj, ← read left, same, read right]

/-- The characters of hexadecimal numbers. -/
def isHexDigit (c : Char) : Bool :=
  (digitValue? c).isSome

theorem isHexDigit_of_mem_toDigits {c : Char} {n : Nat} (member : c ∈ Nat.toDigits 16 n) :
    isHexDigit c = true := by
  induction n using Nat.strongRecOn with
  | ind n ih =>
      have digit {d : Nat} (small : d < 16) : isHexDigit d.digitChar = true := by
        rw [isHexDigit, digitValue?_digitChar small]
        rfl
      by_cases small : n < 16
      · rw [Nat.toDigits_of_lt_base small, List.mem_singleton] at member
        exact member ▸ digit small
      · rw [Nat.toDigits_of_base_le (by decide) (Nat.le_of_not_lt small), List.mem_append,
          List.mem_singleton] at member
        rcases member with front | last
        · exact ih _ (Nat.div_lt_self (by omega) (by decide)) front
        · exact last ▸ digit (Nat.mod_lt n (by decide))

theorem isHexDigit_of_mem_hex {c : Char} {n : Nat} (member : c ∈ (hex n).toList) : isHexDigit c = true :=
  isHexDigit_of_mem_toDigits (toList_hex n ▸ member)

theorem isHexDigit_of_mem_hexPadded {c : Char} {width n : Nat} (member : c ∈ (hexPadded width n).toList) :
    isHexDigit c = true := by
  rw [toList_hexPadded, List.mem_append] at member
  rcases member with zero | digit
  · rw [(List.mem_replicate.mp zero).2]
    rfl
  · exact isHexDigit_of_mem_toDigits digit

end BootFlow.Text
