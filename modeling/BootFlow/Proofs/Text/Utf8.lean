import BootFlow.Text

namespace BootFlow.Text

/-! Encoding a text loses nothing, and keeps ASCII characters apart from all others:
their bytes occur in the encoding of no other character. A text that is cut to a number of
bytes keeps as many whole characters as they can hold. -/

@[simp] theorem bytes_append (left right : String) : bytes (left ++ right) = bytes left ++ bytes right := by
  rw [bytes, String.toList_append, List.flatMap_append]
  rfl

theorem ofBytes?_bytes (text : String) : ofBytes? (bytes text) = some text := by
  have encoded : (⟨(bytes text).toArray⟩ : ByteArray) = text.toByteArray := by
    conv => rhs; rw [← String.ofList_toList (s := text)]
    change _ = (bytes text).toByteArray
    rw [ByteArray.ext_iff, List.data_toByteArray]
  rw [ofBytes?, encoded, String.fromUTF8?, dif_pos text.isValidUTF8]
  rfl

theorem bytes_inj {left right : String} : bytes left = bytes right ↔ left = right := by
  refine ⟨fun same => ?_, congrArg bytes⟩
  rw [← Option.some_inj, ← ofBytes?_bytes left, same, ofBytes?_bytes]

/-- A character is its own byte, or else all of its bytes are outside ASCII. -/
theorem mem_utf8EncodeChar {byte : UInt8} {c : Char} (member : byte ∈ String.utf8EncodeChar c) :
    c.toNat < 128 ∧ byte = UInt8.ofNat c.toNat ∨ 128 ≤ byte.toNat := by
  have outside {n : Nat} (low : 128 ≤ n) (high : n < 256) (same : byte = UInt8.ofNat n) :
      128 ≤ byte.toNat := by
    rw [same, UInt8.toNat_ofNat', Nat.mod_eq_of_lt high]
    exact low
  rw [String.utf8EncodeChar.eq_1] at member
  split at member
  · rename_i small
    exact .inl ⟨Nat.lt_succ_of_le small, List.mem_singleton.mp member⟩
  · right
    split at member
    · simp only [List.mem_cons, List.not_mem_nil, or_false] at member
      rcases member with first | last
      · exact outside (by omega) (by omega) first
      · exact outside (by omega) (by omega) last
    · split at member
      · simp only [List.mem_cons, List.not_mem_nil, or_false] at member
        rcases member with first | second | last
        · exact outside (by omega) (by omega) first
        · exact outside (by omega) (by omega) second
        · exact outside (by omega) (by omega) last
      · simp only [List.mem_cons, List.not_mem_nil, or_false] at member
        rcases member with first | second | third | last
        · exact outside (by omega) (by omega) first
        · exact outside (by omega) (by omega) second
        · exact outside (by omega) (by omega) third
        · exact outside (by omega) (by omega) last

theorem utf8EncodeChar_ascii {ascii : Char} (small : ascii.toNat < 128) :
    String.utf8EncodeChar ascii = [UInt8.ofNat ascii.toNat] := by
  have single : ascii.val.toNat ≤ 127 := Nat.le_of_lt_succ small
  rw [String.utf8EncodeChar.eq_1, if_pos single]
  rfl

theorem ascii_mem_bytes (ascii : Char) (small : ascii.toNat < 128) {text : String} :
    UInt8.ofNat ascii.toNat ∈ bytes text ↔ ascii ∈ text.toList := by
  rw [bytes, List.mem_flatMap]
  constructor
  · rintro ⟨c, member, encoded⟩
    rcases mem_utf8EncodeChar encoded with ⟨tiny, same⟩ | large
    · have numbers := congrArg UInt8.toNat same
      rw [UInt8.toNat_ofNat', UInt8.toNat_ofNat', Nat.mod_eq_of_lt (by omega),
        Nat.mod_eq_of_lt (by omega)] at numbers
      rw [← Char.ofNat_toNat ascii, numbers, Char.ofNat_toNat]
      exact member
    · rw [UInt8.toNat_ofNat'] at large
      omega
  · intro member
    refine ⟨ascii, member, ?_⟩
    rw [utf8EncodeChar_ascii small]
    exact List.mem_singleton_self _

theorem utf8EncodeChar_of_ascii_mem {ascii c : Char} (small : ascii.toNat < 128)
    (member : UInt8.ofNat ascii.toNat ∈ String.utf8EncodeChar c) :
    String.utf8EncodeChar c = [UInt8.ofNat ascii.toNat] := by
  rcases mem_utf8EncodeChar member with ⟨tiny, same⟩ | large
  · rw [same, utf8EncodeChar_ascii tiny]
  · rw [UInt8.toNat_ofNat'] at large
    omega

/-- The byte that the encoding of a character begins with. -/
def firstByte (c : Char) : UInt8 :=
  (String.utf8EncodeChar c).head String.utf8EncodeChar_ne_nil

/-- The first byte of a character is none that characters go on with, and its others are. -/
theorem utf8EncodeChar_eq_cons (c : Char) :
    ∃ more, String.utf8EncodeChar c = firstByte c :: more ∧ (firstByte c).IsUTF8FirstByte ∧
      ∀ byte ∈ more, ¬byte.IsUTF8FirstByte := by
  obtain ⟨first, more, encoded⟩ := List.exists_cons_of_ne_nil (String.utf8EncodeChar_ne_nil (c := c))
  have begins : firstByte c = first := by simp only [firstByte, encoded, List.head_cons]
  have isFirst (index : Nat) (inside : index < (first :: more).length) :
      (first :: more)[index].IsUTF8FirstByte ↔ index = 0 := by
    have located := @UInt8.isUTF8FirstByte_getElem_utf8EncodeChar c index (encoded ▸ inside)
    simpa only [encoded] using located
  refine ⟨more, by rw [begins, encoded], begins ▸ (isFirst 0 (by simp)).mpr rfl, fun byte member => ?_⟩
  obtain ⟨index, inside, rfl⟩ := List.mem_iff_getElem.mp member
  exact fun first => nomatch (isFirst (index + 1) (Nat.succ_lt_succ inside)).mp first

theorem isUTF8FirstByte_firstByte (c : Char) : (firstByte c).IsUTF8FirstByte := by
  obtain ⟨_, _, first, _⟩ := utf8EncodeChar_eq_cons c
  exact first

theorem eq_firstByte {byte : UInt8} {c : Char} (member : byte ∈ String.utf8EncodeChar c)
    (first : byte.IsUTF8FirstByte) : byte = firstByte c := by
  obtain ⟨more, encoded, _, others⟩ := utf8EncodeChar_eq_cons c
  rw [encoded] at member
  rcases List.mem_cons.mp member with same | later
  · exact same
  · exact absurd first (others byte later)

theorem firstByte_ascii {ascii : Char} (small : ascii.toNat < 128) : firstByte ascii = UInt8.ofNat ascii.toNat := by
  simp only [firstByte, utf8EncodeChar_ascii small, List.head_cons]

/-- An ASCII character shares its first byte with no other character. -/
theorem firstByte_eq_ascii {ascii c : Char} (small : ascii.toNat < 128) (same : firstByte c = firstByte ascii) :
    c = ascii := by
  obtain ⟨more, encoded, _⟩ := utf8EncodeChar_eq_cons c
  have member : UInt8.ofNat ascii.toNat ∈ bytes (String.singleton c) := by
    rw [bytes, String.toList_singleton, List.flatMap_singleton, encoded, same, firstByte_ascii small]
    exact List.mem_cons_self
  have among := (ascii_mem_bytes ascii small).mp member
  rw [String.toList_singleton, List.mem_singleton] at among
  exact among.symm

theorem utf8EncodeChar_append_inj {c d : Char} {left right : List UInt8} :
    String.utf8EncodeChar c ++ left = String.utf8EncodeChar d ++ right ↔ c = d ∧ left = right := by
  constructor
  · intro same
    have decoded (c : Char) (rest : List UInt8) :
        (String.utf8EncodeChar c ++ rest).toByteArray.utf8DecodeChar? 0 = some c := by
      rw [List.toByteArray_append]
      exact ByteArray.utf8DecodeChar?_utf8EncodeChar_append
    have chars : c = d := by rw [← Option.some_inj, ← decoded c left, same, decoded d right]
    subst chars
    exact ⟨rfl, List.append_cancel_left same⟩
  · rintro ⟨rfl, rfl⟩
    rfl

/-- Where the bytes of a text are cut in front of the first byte of a character or at their
end, the text is cut between two characters. -/
theorem exists_append_of_flatMap {chars : List Char} {front back : List UInt8}
    (starts : ∀ byte ∈ back.head?, byte.IsUTF8FirstByte)
    (whole : chars.flatMap String.utf8EncodeChar = front ++ back) :
    ∃ before behind, chars = before ++ behind ∧ before.flatMap String.utf8EncodeChar = front ∧
      behind.flatMap String.utf8EncodeChar = back := by
  induction chars generalizing front with
  | nil =>
      obtain ⟨rfl, rfl⟩ := List.append_eq_nil_iff.mp whole.symm
      exact ⟨[], [], rfl, rfl, rfl⟩
  | cons c chars ih =>
      rw [List.flatMap_cons, List.append_eq_append_iff] at whole
      rcases whole with ⟨more, rfl, rest⟩ | ⟨part, encoded, rfl⟩
      · obtain ⟨before, behind, rfl, atFront, atBack⟩ := ih rest
        exact ⟨c :: before, behind, rfl, by rw [List.flatMap_cons, atFront], atBack⟩
      · -- The cut is within the bytes of the first character, so it is at one of their ends.
        cases part with
        | nil =>
            rw [List.append_nil] at encoded
            exact ⟨[c], chars, rfl, by rw [List.flatMap_singleton, encoded], rfl⟩
        | cons byte part =>
            obtain ⟨more, begins, _, others⟩ := utf8EncodeChar_eq_cons c
            have none : front = [] := by
              cases front with
              | nil => rfl
              | cons first front =>
                  have behind : front ++ byte :: part = more := (List.cons.inj (encoded.symm.trans begins)).2
                  exact absurd (starts byte rfl) (others byte (by simp [← behind]))
            refine ⟨[], c :: chars, rfl, none.symm, ?_⟩
            rw [List.flatMap_cons, encoded, none, List.nil_append]

section

variable (ascii : Char) {back : List UInt8}

/-- Where the bytes of a text are cut in front of an ASCII character or at their end, the
text is cut between two characters. -/
theorem exists_append_of_bytes (small : ascii.toNat < 128)
    (starts : back = [] ∨ back.head? = some (UInt8.ofNat ascii.toNat)) {text : String} {front : List UInt8}
    (whole : bytes text = front ++ back) :
    ∃ before behind : String, text = before ++ behind ∧ bytes before = front ∧ bytes behind = back := by
  have first : ∀ byte ∈ back.head?, byte.IsUTF8FirstByte := by
    rcases starts with rfl | starts
    · nofun
    · rw [starts, ← firstByte_ascii small]
      exact fun byte same => Option.some.inj same ▸ isUTF8FirstByte_firstByte ascii
  obtain ⟨before, behind, cut, atFront, atBack⟩ := exists_append_of_flatMap first whole
  refine ⟨String.ofList before, String.ofList behind, ?_, ?_, ?_⟩
  · rw [← String.ofList_append, ← cut, String.ofList_toList]
  · rw [bytes, String.toList_ofList, atFront]
  · rw [bytes, String.toList_ofList, atBack]

/-- What follows an ASCII character at the start of a text is a text again. -/
theorem exists_append_of_bytes_cons (small : ascii.toNat < 128) {text : String}
    (whole : bytes text = UInt8.ofNat ascii.toNat :: back) :
    ∃ behind : String, text = String.singleton ascii ++ behind ∧ bytes behind = back := by
  have first : bytes (String.singleton ascii) = [UInt8.ofNat ascii.toNat] := by
    rw [bytes, String.toList_singleton, List.flatMap_singleton, utf8EncodeChar_ascii small]
  cases chars : text.toList with
  | nil =>
      rw [bytes, chars] at whole
      cases whole
  | cons c rest =>
      obtain ⟨byte, more, encoded⟩ := List.exists_cons_of_ne_nil (@String.utf8EncodeChar_ne_nil c)
      have split : byte :: (more ++ rest.flatMap String.utf8EncodeChar) = UInt8.ofNat ascii.toNat :: back := by
        rw [← whole, bytes, chars, List.flatMap_cons, encoded, List.cons_append]
      obtain ⟨rfl, following⟩ := List.cons.inj split
      have alone := utf8EncodeChar_of_ascii_mem small (encoded ▸ List.mem_cons_self)
      rw [encoded, List.cons.injEq] at alone
      have behind : bytes (String.ofList rest) = back := by
        rw [← following, alone.2, bytes, String.toList_ofList, List.nil_append]
      refine ⟨String.ofList rest, bytes_inj.mp ?_, behind⟩
      rw [bytes_append, first, behind, whole, List.singleton_append]

end

section

/-- The longest start of the text, in whole characters, that takes up at most `limit` UTF-8 bytes. -/
structure LongestStart (limit : Nat) (text start : String) : Prop where
  starts : start.toList <+: text.toList
  fits : start.utf8ByteSize ≤ limit
  longest : ∀ other : String, other.toList <+: text.toList → other.utf8ByteSize ≤ limit →
    other.toList <+: start.toList

variable {chars start : List Char} {limit : Nat}

theorem utf8ByteSize_cons (c : Char) (chars : List Char) :
    (String.ofList (c :: chars)).utf8ByteSize = c.utf8Size + (String.ofList chars).utf8ByteSize := by
  rw [String.ofList_cons, String.utf8ByteSize_append, String.utf8ByteSize_singleton]

theorem takeBytes_prefix (limit : Nat) (chars : List Char) : takeBytes limit chars <+: chars := by
  induction chars generalizing limit with
  | nil => exact List.prefix_rfl
  | cons c rest ih =>
      unfold takeBytes
      split
      · exact (List.prefix_cons_inj c).mpr (ih _)
      · exact List.nil_prefix

theorem utf8ByteSize_takeBytes_le (limit : Nat) (chars : List Char) :
    (String.ofList (takeBytes limit chars)).utf8ByteSize ≤ limit := by
  induction chars generalizing limit with
  | nil => exact Nat.zero_le limit
  | cons c rest ih =>
      unfold takeBytes
      split
      · rename_i room
        rw [utf8ByteSize_cons]
        exact Nat.add_le_of_le_sub' room (ih _)
      · exact Nat.zero_le limit

theorem prefix_takeBytes (starts : start <+: chars) (fits : (String.ofList start).utf8ByteSize ≤ limit) :
    start <+: takeBytes limit chars := by
  induction start generalizing chars limit with
  | nil => exact List.nil_prefix
  | cons c more ih =>
      obtain ⟨rest, rfl, shorter⟩ := List.cons_prefix_iff.mp starts
      rw [utf8ByteSize_cons] at fits
      rw [takeBytes, if_pos (Nat.le_of_add_right_le fits)]
      exact (List.prefix_cons_inj c).mpr (ih shorter (Nat.le_sub_of_add_le' fits))

theorem takeBytes_longest (limit : Nat) (text : String) :
    LongestStart limit text (String.ofList (takeBytes limit text.toList)) where
  starts := by
    rw [String.toList_ofList]
    exact takeBytes_prefix limit text.toList
  fits := utf8ByteSize_takeBytes_le limit text.toList
  longest other starts fits := by
    rw [String.toList_ofList]
    exact prefix_takeBytes starts (by rwa [String.ofList_toList])

end

end BootFlow.Text
