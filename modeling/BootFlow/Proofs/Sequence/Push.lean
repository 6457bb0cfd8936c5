import BootFlow.Sequence
import Mathlib.Data.List.Induction

namespace BootFlow

/-! Whatever is pushed onto a sequence, its entries are the first ones of what
was pushed, once every floppy but the first is left out. -/

variable {α β : Type}

/-- The list without those elements of a sort that come after the first of them. -/
def keepFirst (sort : α → Bool) : List α → List α
  | [] => []
  | head :: rest =>
      if sort head then head :: rest.filter (!sort ·) else head :: keepFirst sort rest

section

variable (sort : α → Bool)

theorem keepFirst_append_singleton (list : List α) (last : α) :
    keepFirst sort (list ++ [last]) =
      keepFirst sort list ++ if sort last && list.any sort then [] else [last] := by
  induction list with
  | nil => cases chosen : sort last <;> simp [keepFirst, chosen]
  | cons head rest ih =>
      cases first : sort head with
      | true => cases chosen : sort last <;> simp [keepFirst, first, chosen]
      | false => simp [keepFirst, first, ih]

theorem keepFirst_cons (head : α) (list : List α) :
    ∃ rest, keepFirst sort (head :: list) = head :: rest := by
  cases first : sort head with
  | true => exact ⟨list.filter (!sort ·), by simp [keepFirst, first]⟩
  | false => exact ⟨keepFirst sort list, by simp [keepFirst, first]⟩

theorem keepFirst_map (f : β → α) (list : List β) :
    keepFirst sort (list.map f) = (keepFirst (fun element => sort (f element)) list).map f := by
  induction list with
  | nil => rfl
  | cons head rest ih =>
      cases first : sort (f head) with
      | true => simp [keepFirst, first, List.filter_map, Function.comp_def]
      | false => simp [keepFirst, first, ih]

theorem keepFirst_congr (sort' : α → Bool) {list : List α}
    (same : ∀ element ∈ list, sort element = sort' element) :
    keepFirst sort list = keepFirst sort' list := by
  induction list with
  | nil => rfl
  | cons head rest ih =>
      have others := fun element member => same element (List.mem_cons_of_mem _ member)
      have kept : rest.filter (!sort ·) = rest.filter (!sort' ·) :=
        List.filter_congr fun element member => congrArg Bool.not (others element member)
      rw [keepFirst, keepFirst, ih others, kept, same head (List.mem_cons_self ..)]

theorem countP_keepFirst (list : List α) :
    (keepFirst sort list).countP sort = if list.any sort then 1 else 0 := by
  induction list with
  | nil => rfl
  | cons head rest ih =>
      cases first : sort head with
      | true =>
          have none : (rest.filter (!sort ·)).countP sort = 0 := by
            rw [List.countP_eq_zero]
            intro element member
            simpa using (List.mem_filter.mp member).2
          simp [keepFirst, first, none]
      | false => simp [keepFirst, first, ih]

theorem countP_keepFirst_le (list : List α) : (keepFirst sort list).countP sort ≤ 1 := by
  rw [countP_keepFirst]
  split <;> omega

theorem keepFirst_sublist (list : List α) : (keepFirst sort list).Sublist list := by
  induction list with
  | nil => exact .slnil
  | cons head rest ih =>
      unfold keepFirst
      split
      · exact List.filter_sublist.cons_cons head
      · exact ih.cons_cons head

/-- Up to the first of the sort nothing is left out, so it stays in its place. -/
theorem any_take_keepFirst (list : List α) (count : Nat) :
    ((keepFirst sort list).take count).any sort = (list.take count).any sort := by
  induction list generalizing count with
  | nil => rfl
  | cons head rest ih =>
      cases count with
      | zero => rfl
      | succ count =>
          cases first : sort head with
          | true => simp [keepFirst, first]
          | false => simp [keepFirst, first, ih]

end

/-- What is taken of a longer list: the last element too, while there is room. -/
theorem take_append_singleton (list : List α) (last : α) (count : Nat) :
    (list ++ [last]).take count =
      if (list.take count).length < count then list.take count ++ [last] else list.take count := by
  rw [List.take_append, List.length_take]
  by_cases room : list.length < count
  · have fits : [last].length ≤ count - list.length := by
      rw [List.length_singleton]
      omega
    rw [if_pos (by omega), List.take_of_length_le (Nat.le_of_lt room), List.take_of_length_le fits]
  · rw [if_neg (by omega), show count - list.length = 0 by omega, List.take_zero, List.append_nil]

namespace Entry

def isFloppy (entry : Entry) : Bool := entry == .floppy

end Entry

namespace Sequence

theorem accepts_iff {sequence : Sequence} {entry : Entry} :
    sequence.accepts entry = true ↔
      (entry.isFloppy && sequence.floppySeen) = false ∧ sequence.entries.length < capacity := by
  simp only [accepts, Entry.isFloppy, Bool.and_eq_true, Bool.not_eq_true', decide_eq_true_iff]

theorem entries_push (sequence : Sequence) (entry : Entry) :
    (sequence.push entry).entries =
      if (entry.isFloppy && sequence.floppySeen) = false ∧ sequence.entries.length < capacity
      then sequence.entries ++ [entry] else sequence.entries :=
  if_congr accepts_iff rfl rfl

theorem floppySeen_push (sequence : Sequence) (entry : Entry) :
    (sequence.push entry).floppySeen = (sequence.floppySeen || entry.isFloppy) := rfl

theorem floppySeen_foldl_push (pushed : List Entry) :
    (pushed.foldl push {}).floppySeen = pushed.any Entry.isFloppy := by
  induction pushed using List.reverseRecOn with
  | nil => rfl
  | append_singleton pushed last ih =>
      rw [List.foldl_append, List.foldl_cons, List.foldl_nil, floppySeen_push, ih]
      simp

/-- A floppy is left out for having been pushed before, not for being stored. -/
theorem entries_foldl_push (pushed : List Entry) :
    (pushed.foldl push {}).entries = (keepFirst Entry.isFloppy pushed).take capacity := by
  induction pushed using List.reverseRecOn with
  | nil => rfl
  | append_singleton pushed last ih =>
      rw [List.foldl_append, List.foldl_cons, List.foldl_nil, entries_push, floppySeen_foldl_push,
        ih, keepFirst_append_singleton]
      cases folded : last.isFloppy && pushed.any Entry.isFloppy with
      | true => simp
      | false => simp [take_append_singleton]

theorem entries_prefix_push (sequence : Sequence) (entry : Entry) :
    sequence.entries <+: (sequence.push entry).entries := by
  rw [entries_push]
  split
  · exact List.prefix_append _ _
  · exact List.prefix_rfl

theorem entries_prefix_foldl_push (sequence : Sequence) (pushed : List Entry) :
    sequence.entries <+: (pushed.foldl push sequence).entries := by
  induction pushed generalizing sequence with
  | nil => exact List.prefix_rfl
  | cons entry later ih => exact (sequence.entries_prefix_push entry).trans (ih (sequence.push entry))

/-- What is stored of the entries pushed, each with its place among them. -/
def retained (pushed : List Entry) : List (Entry × Nat) :=
  (keepFirst (·.1.isFloppy) pushed.zipIdx).take capacity

theorem map_retained (pushed : List Entry) :
    (retained pushed).map Prod.fst = (keepFirst Entry.isFloppy pushed).take capacity := by
  rw [retained, List.map_take, ← keepFirst_map Entry.isFloppy Prod.fst, List.zipIdx_map_fst]

theorem place_of_mem_retained {pushed : List Entry} {pair : Entry × Nat} (member : pair ∈ retained pushed) :
    pair.2 < pushed.length := by
  have among := (keepFirst_sublist _ _).subset (List.mem_of_mem_take member)
  obtain ⟨bound, _⟩ := List.getElem?_eq_some_iff.mp (List.mem_zipIdx_iff_getElem?.mp among)
  exact bound

/-- A push that is answered with yes, and no other, adds its entry to what is stored. -/
theorem retained_append_singleton (pushed : List Entry) (last : Entry) :
    retained (pushed ++ [last]) =
      retained pushed ++ if (pushed.foldl push {}).accepts last then [(last, pushed.length)] else [] := by
  have held : (pushed.foldl push {}).entries.length = (retained pushed).length := by
    rw [entries_foldl_push, ← map_retained, List.length_map]
  have seen : pushed.zipIdx.any (·.1.isFloppy) = pushed.any Entry.isFloppy := by
    conv => rhs; rw [← List.zipIdx_map_fst 0 pushed, List.any_map]
    rfl
  have answer : (pushed.foldl push {}).accepts last = true ↔
      (last.isFloppy && pushed.any Entry.isFloppy) = false ∧ (retained pushed).length < capacity := by
    rw [accepts_iff, floppySeen_foldl_push, held]
  rw [if_congr answer rfl rfl]
  simp only [retained]
  rw [List.zipIdx_append, List.zipIdx_cons, List.zipIdx_nil, keepFirst_append_singleton, seen]
  cases last.isFloppy && pushed.any Entry.isFloppy with
  | true => simp
  | false =>
      simp only [Bool.false_eq_true, if_false, true_and, Nat.zero_add, take_append_singleton]
      split
      · rfl
      · exact (List.append_nil _).symm

theorem accepts_iff_mem_retained (earlier : List Entry) (entry : Entry) (later : List Entry) :
    (earlier.foldl push {}).accepts entry = true ↔
      (entry, earlier.length) ∈ retained (earlier ++ entry :: later) := by
  induction later using List.reverseRecOn with
  | nil =>
      have unheld : (entry, earlier.length) ∉ retained earlier :=
        fun member => Nat.lt_irrefl _ (place_of_mem_retained member)
      rw [retained_append_singleton, List.mem_append, or_iff_right unheld]
      split
      · exact iff_of_true ‹_› (List.mem_singleton_self _)
      · exact iff_of_false ‹_› List.not_mem_nil
  | append_singleton later last ih =>
      have split : earlier ++ entry :: (later ++ [last]) = (earlier ++ entry :: later) ++ [last] := by
        rw [List.append_assoc, List.cons_append]
      rw [ih, split, retained_append_singleton, List.mem_append]
      refine (or_iff_left fun member => ?_).symm
      split at member
      · have place := congrArg Prod.snd (List.mem_singleton.mp member)
        simp at place
      · cases member

theorem has_iff {sequence : Sequence} {kind : Kind} :
    sequence.has kind = true ↔ ∃ entry ∈ sequence.entries, entry.kind = kind := by
  simp only [has, List.any_eq_true, beq_iff_eq]

theorem has_floppy_iff {pushed : List Entry} :
    (pushed.foldl push {}).has .floppy = true ↔ .floppy ∈ pushed.take capacity := by
  have told : (fun entry : Entry => entry.kind == .floppy) = Entry.isFloppy := by
    funext entry
    cases entry <;> rfl
  rw [has, told, entries_foldl_push, any_take_keepFirst, List.any_eq_true]
  simp [Entry.isFloppy]

/-- Of any number of entries pushed the first twenty are stored in order, with the floppies behind the
first left out. Each push tells whether its own entry is one of these, and takes none away. A first
floppy that came too late is not there, and keeps the later ones out all the same. -/
theorem pushes_fill_in_order (pushed : List Entry) :
    let sequence := pushed.foldl push {}
    let kept := (keepFirst (·.1.isFloppy) pushed.zipIdx).take 20
    sequence.entries = (keepFirst Entry.isFloppy pushed).take 20 ∧
    kept.map Prod.fst = sequence.entries ∧
    (∀ earlier entry later, pushed = earlier ++ entry :: later →
      let before := earlier.foldl push {}
      (before.accepts entry = true ↔ (entry, earlier.length) ∈ kept) ∧
      before.entries <+: (before.push entry).entries ∧ (before.push entry).entries <+: sequence.entries) ∧
    (∀ kind, sequence.has kind = true ↔ ∃ entry ∈ sequence.entries, entry.kind = kind) ∧
    (sequence.has .floppy = true ↔ .floppy ∈ pushed.take 20) := by
  intro sequence kept
  have held : sequence.entries = (keepFirst Entry.isFloppy pushed).take 20 := entries_foldl_push pushed
  refine ⟨held, (map_retained pushed).trans held.symm, ?_, fun kind => has_iff, has_floppy_iff⟩
  rintro earlier entry later rfl before
  refine ⟨accepts_iff_mem_retained earlier entry later, before.entries_prefix_push entry, ?_⟩
  have continues : sequence = later.foldl push (before.push entry) :=
    List.foldl_append.trans List.foldl_cons
  rw [continues]
  exact entries_prefix_foldl_push _ later

example :
    let full := List.replicate 20 (Entry.rom ⟨0xc800, 3⟩)
    let sequence := (full ++ [Entry.floppy]).foldl push {}
    sequence.entries = full ∧ sequence.has .floppy = false ∧ sequence.floppySeen = true := by
  decide

end Sequence

end BootFlow
