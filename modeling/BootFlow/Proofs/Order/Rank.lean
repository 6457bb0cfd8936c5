import BootFlow.Proofs.Order.Laws
import BootFlow.Proofs.Registry.Enrolment
import BootFlow.Proofs.Text.Lines

namespace BootFlow.BootOrder

open Glob Logging Text

/-! The rank of a path is the number of the first line that it finds. It depends on the lines
up to that one and on nothing that stands behind them. -/

/-- The path finds a line of content where one of the two matches the other. -/
def Finds (path line : String) : Prop :=
  line ≠ "" ∧ matchesEither path line = true

/-- The path finds the line with this number and none before it. Numbers count from one. -/
def FirstFound (path : String) (lines : List String) (rank : Nat) : Prop :=
  ∃ position line, rank = position + 1 ∧ lines[position]? = some line ∧ Finds path line ∧
    ∀ earlier < position, ∀ other, lines[earlier]? = some other → ¬Finds path other

variable {path line : String} {lines : List String} {order : BootOrder} {position rank : Nat}

theorem rank?_eq_some_iff : (BootOrder.mk lines).rank? path = some rank ↔ FirstFound path lines rank := by
  have finds (line : String) : (line != "" && matchesEither path line) = true ↔ Finds path line := by
    rw [Finds, Bool.and_eq_true, bne_iff_ne]
  simp only [rank?, Option.map_eq_some_iff, List.findIdx?_eq_some_iff_getElem, finds]
  constructor
  · rintro ⟨position, ⟨within, found, missed⟩, rfl⟩
    refine ⟨position, lines[position], rfl, List.getElem?_eq_getElem within, found, ?_⟩
    intro earlier before other there
    obtain ⟨_, rfl⟩ := List.getElem?_eq_some_iff.mp there
    exact missed earlier before
  · rintro ⟨position, line, rfl, there, found, missed⟩
    obtain ⟨within, rfl⟩ := List.getElem?_eq_some_iff.mp there
    exact ⟨position, ⟨within, found, fun earlier before =>
      missed earlier before _ (List.getElem?_eq_getElem (Nat.lt_trans before within))⟩, rfl⟩

theorem rank?_eq_none_iff : order.rank? path = none ↔ ∀ line ∈ order.entries, ¬Finds path line := by
  simp [rank?, Finds, List.findIdx?_eq_none_iff]

theorem rank?_le_of_finds (there : order.entries[position]? = some line) (found : Finds path line) :
    ∃ rank, order.rank? path = some rank ∧ rank ≤ position + 1 := by
  cases ranked : order.rank? path with
  | none => exact absurd found (rank?_eq_none_iff.mp ranked line (List.mem_of_getElem? there))
  | some rank =>
      obtain ⟨first, other, rfl, at_first, _, missed⟩ := rank?_eq_some_iff.mp ranked
      refine ⟨first + 1, rfl, Nat.succ_le_succ (Nat.le_of_not_lt fun behind => ?_)⟩
      exact missed position behind line there found

theorem search_ok {σ : Type} [Logging σ] {state : σ} (ranked : order.rank? path = some rank) :
    (order.search path state).1 = .ok rank := by
  rw [search_answer, ranked]

/-! Every line finds itself -/

theorem finds_self (content : line ≠ "") : Finds line line :=
  ⟨content, matchesEither_self line⟩

theorem rank?_of_line (there : order.entries[position]? = some line) (content : line ≠ "") :
    ∃ rank, order.rank? line = some rank ∧ rank ≤ position + 1 ∧
      (rank = position + 1 ↔ ∀ earlier < position, ∀ other, order.entries[earlier]? = some other →
        other ≠ "" → matchesEither line other = false) := by
  obtain ⟨rank, ranked, within⟩ := rank?_le_of_finds there (finds_self content)
  obtain ⟨first, shown, rfl, at_first, found, missed⟩ := rank?_eq_some_iff.mp ranked
  refine ⟨first + 1, ranked, within, ?_⟩
  constructor
  · rintro same earlier before other at_other visible
    have unfound := missed earlier (by omega) other at_other
    exact Bool.eq_false_iff.mpr fun matched => unfound ⟨visible, matched⟩
  · intro apart
    refine Nat.le_antisymm within (Nat.le_of_not_lt fun earlier => ?_)
    have unmatched := apart first (by omega) shown at_first found.1
    rw [found.2] at unmatched
    cases unmatched

/-- No line of content is matched by another one. -/
def Unambiguous (order : BootOrder) : Prop :=
  order.entries.Pairwise fun first second => first ≠ "" → second ≠ "" → matchesEither first second = false

theorem rank?_of_unambiguous (apart : order.Unambiguous) (there : order.entries[position]? = some line)
    (content : line ≠ "") : order.rank? line = some (position + 1) := by
  obtain ⟨rank, ranked, -, own⟩ := rank?_of_line there content
  rw [ranked, own.mpr]
  intro earlier before other at_other visible
  obtain ⟨within, rfl⟩ := List.getElem?_eq_some_iff.mp there
  obtain ⟨_, rfl⟩ := List.getElem?_eq_some_iff.mp at_other
  rw [matchesEither_comm]
  exact List.pairwise_iff_getElem.mp apart earlier position _ within before visible content

/-- A path matches itself, whatever stars it holds. So a line that is looked up is found no later
than at its own place, and at that place where no line before it matches. -/
theorem line_finds_itself {σ : Type} [Logging σ] (state : σ) :
    (∀ text, strip? text text = some "") ∧
    (∀ raw position line, (parse raw).entries[position]? = some line → line ≠ "" →
      ∃ rank, ((parse raw).search line state).1 = .ok rank ∧ rank ≤ position + 1 ∧
        (rank = position + 1 ↔ ∀ earlier < position, ∀ other, (parse raw).entries[earlier]? = some other →
          other ≠ "" → matchesEither line other = false)) ∧
    (∀ raw, (parse raw).Unambiguous →
      (∀ position line, (parse raw).entries[position]? = some line → line ≠ "" →
        ((parse raw).search line state).1 = .ok (position + 1)) ∧
      ∀ earlier later : Nat, earlier < later → ∀ first second, (parse raw).entries[earlier]? = some first →
        (parse raw).entries[later]? = some second → first ≠ "" → second ≠ "" →
        ∃ low high, ((parse raw).search first state).1 = .ok low ∧
          ((parse raw).search second state).1 = .ok high ∧ low < high) := by
  refine ⟨strip?_self, fun raw position line there content => ?_, fun raw apart => ⟨?_, ?_⟩⟩
  · obtain ⟨rank, ranked, within, own⟩ := rank?_of_line there content
    exact ⟨rank, search_ok ranked, within, own⟩
  · intro position line there content
    exact search_ok (rank?_of_unambiguous apart there content)
  · intro earlier later before first second at_first at_second visible content
    exact ⟨_, _, search_ok (rank?_of_unambiguous apart at_first visible),
      search_ok (rank?_of_unambiguous apart at_second content), Nat.succ_lt_succ before⟩

/-- Lines with stars on both sides of a blank one. -/
theorem line_finds_itself_starred :
    let order := parse "/rom@**b*b\n \n/pci@i0cf8/*@1,*"
    order.Unambiguous ∧ order.entries[2]? = some "/pci@i0cf8/*@1,*" ∧
      (order.search "/pci@i0cf8/*@1,*" ({} : Scripted.Board)).1 = .ok 3 := by
  intro order
  have apart : order.Unambiguous := by
    unfold Unambiguous
    decide
  have there : order.entries[2]? = some "/pci@i0cf8/*@1,*" := by decide
  exact ⟨apart, there, ((line_finds_itself ({} : Scripted.Board)).2.2 _ apart).1 2 _ there (by decide)⟩

/-! Ranks are line numbers of the text that was loaded. Trimming, blank lines and the text without
content, which gives no entries at all, change none of them. -/

/-- The lines of a text, blank ones too, without the blanks at their ends. -/
def textLines (raw : String) : List String :=
  (Text.lines raw.toList).map fun line => String.ofList (trimEnd line)

theorem textLines_append_newline (front back : String) :
    textLines (front ++ "\n" ++ back) = textLines front ++ textLines back := by
  have whole : (front ++ "\n" ++ back).toList = front.toList ++ '\n' :: back.toList := by simp
  rw [textLines, whole, lines_append_newline, List.map_append]
  rfl

theorem textLines_newline (raw : String) : textLines (raw ++ "\n") = textLines raw ++ [""] := by
  rw [← String.append_empty (s := raw ++ "\n"), textLines_append_newline]
  rfl

theorem textLines_append_blanks (front : String) {blanks : String}
    (blank : ∀ c ∈ blanks.toList, isBlank c = true ∧ c ≠ '\n') :
    textLines (front ++ blanks) = textLines front := by
  have single : '\n' ∉ blanks.toList := fun member => (blank _ member).2 rfl
  obtain ⟨before, last, whole, longer⟩ := lines_append_single front.toList single
  rw [textLines, textLines, String.toList_append, whole, longer, List.map_append, List.map_append]
  simp only [List.map_cons, List.map_nil, trimEnd_append_blank last fun c member => (blank c member).1]

theorem not_finds_blank : ¬Finds path "" := fun found => found.1 rfl

/-- A text without content has blank lines only, and nothing finds those. -/
theorem rank?_parse (raw path : String) : (parse raw).rank? path = (BootOrder.mk (textLines raw)).rank? path := by
  unfold parse
  split
  · rename_i blank
    rw [List.all_eq_true] at blank
    refine (rank?_eq_none_iff.mpr ?_).symm
    intro line member
    obtain ⟨chars, among, rfl⟩ := List.mem_map.mp member
    rw [trimEnd_eq_nil_iff.mpr fun c within => blank c (mem_of_mem_lines among within)]
    exact not_finds_blank
  · rfl

theorem rank?_append_blank :
    (BootOrder.mk (lines ++ [""])).rank? path = (BootOrder.mk lines).rank? path := by
  simp [rank?, List.findIdx?_append, List.findIdx?_cons]

theorem FirstFound.append (found : FirstFound path lines rank) (more : List String) :
    FirstFound path (lines ++ more) rank := by
  obtain ⟨position, line, rfl, there, finds, missed⟩ := found
  have within : position < lines.length := (List.getElem?_eq_some_iff.mp there).1
  refine ⟨position, line, rfl, (List.getElem?_append_left within).trans there, finds, ?_⟩
  intro earlier ahead other at_other
  rw [List.getElem?_append_left (Nat.lt_trans ahead within)] at at_other
  exact missed earlier ahead other at_other

section

variable {σ : Type} [Logging σ] {raw more : String} {state : σ}

theorem load_answer (file : Option String) (state : σ) : (load file state).1 = ofFile file := by
  simp only [load]
  split
  · rfl
  · split <;> rfl

/-- Loads the boot order from a text and looks the path up in it. -/
def lookUp (raw path : String) : Action σ (Except BootError Nat) := do
  let order ← load (some raw)
  order.search path

theorem lookUp_answer (raw path : String) (state : σ) :
    (lookUp raw path state).1 = match (BootOrder.mk (textLines raw)).rank? path with
      | some rank => .ok rank
      | none => .error .noMatch := by
  have loaded : (load (some raw) state).1 = parse raw := load_answer (some raw) state
  rw [← rank?_parse, ← loaded]
  rfl

theorem lookUp_ok_iff : (lookUp raw path state).1 = .ok rank ↔ FirstFound path (textLines raw) rank := by
  rw [lookUp_answer, ← rank?_eq_some_iff]
  cases (BootOrder.mk (textLines raw)).rank? path <;> simp

theorem lookUp_noMatch_iff :
    (lookUp raw path state).1 = .error .noMatch ↔ ¬∃ rank, FirstFound path (textLines raw) rank := by
  simp only [← rank?_eq_some_iff, lookUp_answer]
  cases (BootOrder.mk (textLines raw)).rank? path <;> simp

theorem lookUp_newline (raw : String) : (lookUp (raw ++ "\n") path state).1 = (lookUp raw path state).1 := by
  rw [lookUp_answer, lookUp_answer, textLines_newline, rank?_append_blank]

/-- What comes behind a line feed does not matter to a path that finds a line in front of it. -/
theorem lookUp_append (apart : (∃ front, raw = front ++ "\n") ∨ ∃ rest, more = "\n" ++ rest)
    (found : (lookUp raw path state).1 = .ok rank) : (lookUp (raw ++ more) path state).1 = .ok rank := by
  rcases apart with ⟨front, rfl⟩ | ⟨rest, rfl⟩
  · rw [lookUp_newline, lookUp_ok_iff] at found
    rw [lookUp_ok_iff, textLines_append_newline]
    exact found.append _
  · rw [lookUp_ok_iff] at found ⊢
    rw [← String.append_assoc, textLines_append_newline]
    exact found.append _

theorem lookUp_trimmed (front : String) {blanks back : String}
    (blank : ∀ c ∈ blanks.toList, isBlank c = true ∧ c ≠ '\n') (ends : back = "" ∨ ∃ rest, back = "\n" ++ rest) :
    (lookUp (front ++ blanks ++ back) path state).1 = (lookUp (front ++ back) path state).1 := by
  have trimmed : textLines (front ++ blanks ++ back) = textLines (front ++ back) := by
    rcases ends with rfl | ⟨rest, rfl⟩
    · rw [String.append_empty, String.append_empty, textLines_append_blanks front blank]
    · rw [← String.append_assoc, ← String.append_assoc, textLines_append_newline, textLines_append_newline,
        textLines_append_blanks front blank]
  rw [lookUp_answer, lookUp_answer, trimmed]

/-- A path is answered by the number of the first line of the text that it finds. Lines that are
appended, blanks at the ends of lines and a line feed at the end of the text do not change that. -/
theorem lookUp_by_line_number (path : String) (state : σ) :
    (∀ raw rank, (lookUp raw path state).1 = .ok rank ↔ FirstFound path (textLines raw) rank) ∧
    (∀ raw, (lookUp raw path state).1 = .error .noMatch ↔ ¬∃ rank, FirstFound path (textLines raw) rank) ∧
    (∀ raw more rank, ((∃ front, raw = front ++ "\n") ∨ ∃ rest, more = "\n" ++ rest) →
      (lookUp raw path state).1 = .ok rank → (lookUp (raw ++ more) path state).1 = .ok rank) ∧
    (∀ front blanks back : String, (∀ c ∈ blanks.toList, isBlank c = true ∧ c ≠ '\n') →
      (back = "" ∨ ∃ rest, back = "\n" ++ rest) →
      (lookUp (front ++ blanks ++ back) path state).1 = (lookUp (front ++ back) path state).1) ∧
    (∀ raw, (lookUp (raw ++ "\n") path state).1 = (lookUp raw path state).1) :=
  ⟨fun _ _ => lookUp_ok_iff, fun _ => lookUp_noMatch_iff, fun _ _ _ apart found => lookUp_append apart found,
    fun front _ _ blank ends => lookUp_trimmed front blank ends, lookUp_newline⟩

/-- Behind a blank line, with a line appended that would match as well. -/
theorem lookUp_by_line_number_appended :
    let raw := " \n/rom@*\t \n"
    let look (raw : String) := (lookUp raw "/rom@a" ({} : Scripted.Board)).1
    look raw = .ok 2 ∧ look (raw ++ "/rom@a") = .ok 2 ∧
      look (" \n/rom@*" ++ "\t " ++ "\n") = look (" \n/rom@*" ++ "\n") := by
  intro raw look
  have numbered := lookUp_by_line_number "/rom@a" ({} : Scripted.Board)
  have ranked : (BootOrder.mk (textLines raw)).rank? "/rom@a" = some 2 := by decide
  have found : look raw = .ok 2 := (numbered.1 raw 2).mpr (rank?_eq_some_iff.mp ranked)
  exact ⟨found, numbered.2.2.1 _ _ _ (.inl ⟨" \n/rom@*\t ", rfl⟩) found,
    numbered.2.2.2.1 _ _ _ (by decide) (.inr ⟨"", rfl⟩)⟩

end

end BootFlow.BootOrder
