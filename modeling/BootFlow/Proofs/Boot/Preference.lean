import BootFlow.Proofs.Order.Rank
import BootFlow.Proofs.Registry.Enrolment
import BootFlow.Proofs.Sequence.Stop

namespace BootFlow

open DriveMapper Logging Recorded Text

/-! The configured order of preference is that of the boot. Its ranks are below all defaults, so
the candidates that it names stand before the others, and what there is no room for stood last. -/

namespace BootOrder

/-- Behind so many lines a text holds blanks only, such as the line feed that ends the last one. -/
def WithinLines (count : Nat) (raw : String) : Prop :=
  ∀ line ∈ (lines raw.toList).drop count, trimEnd line = []

instance (count : Nat) (raw : String) : Decidable (WithinLines count raw) :=
  inferInstanceAs (Decidable (∀ line ∈ (lines raw.toList).drop count, trimEnd line = []))

variable {raw : String} {count rank : Nat}

theorem blank_beyond (few : WithinLines count raw) {index : Nat} {line : String}
    (found : (textLines raw)[index]? = some line) (beyond : count ≤ index) : line = "" := by
  rw [textLines, List.getElem?_map] at found
  obtain ⟨chars, here, rfl⟩ := Option.map_eq_some_iff.mp found
  have behind : chars ∈ (lines raw.toList).drop count := by
    refine List.mem_of_getElem? (i := index - count) ?_
    rw [List.getElem?_drop, Nat.add_sub_cancel' beyond, here]
  rw [few chars behind]

theorem rank?_le (few : WithinLines count raw) {path : String} (found : (parse raw).rank? path = some rank) :
    rank ≤ count := by
  rw [rank?_parse] at found
  obtain ⟨index, line, rfl, there, finds, -⟩ := rank?_eq_some_iff.mp found
  by_contra beyond
  exact finds.1 (blank_beyond few there (by omega))

theorem answer?_le (few : WithinLines count raw) {query : Query}
    (found : (parse raw).answer? query = some rank) : rank ≤ count := by
  cases query with
  | path path => exact rank?_le few found
  | halt => exact rank?_le few found
  | target target =>
      obtain ⟨path, _, ranked⟩ := List.exists_of_findSome?_eq_some found
      exact rank?_le few ranked

end BootOrder

namespace Candidate

/-- The rank behind a priority, where that is none of the defaults. -/
def rank? (candidate : Candidate) : Option Nat :=
  if candidate.priority ≤ 100 then some candidate.priority.toNat else none

/-- Whether the boot order puts one candidate before the other. -/
def preferred (left right : Candidate) : Bool :=
  match left.rank?, right.rank? with
  | some rank, some other => rank < other
  | some _, none => true
  | none, _ => false

theorem priority_lt_of_preferred {left right : Candidate} (preferred : left.preferred right = true) :
    left.priority < right.priority := by
  simp only [Candidate.preferred, rank?] at preferred
  split at preferred <;> grind

end Candidate

namespace Enrolment

/-- A report whose priority is looked up in the boot order, or left to its kind. -/
def isConfigured : Enrolment → Bool
  | .finding _ _ (.ranked _) | .finding _ _ (.given none) => true
  | _ => false

/-- The rank that the lookup gave. -/
def rank? (order : BootOrder) : Enrolment → Option Nat
  | .finding _ _ (.ranked query) => order.answer? query
  | _ => none

theorem cases_of_isConfigured {enrolment : Enrolment} (configured : enrolment.isConfigured) :
    ∃ found description placement, enrolment = .finding found description placement ∧
      (placement = .given none ∨ ∃ query, placement = .ranked query) := by
  cases enrolment with
  | finding found description placement =>
      refine ⟨found, description, placement, rfl, ?_⟩
      cases placement with
      | given priority =>
          cases priority with
          | none => exact .inl rfl
          | some _ => cases configured
      | ranked query => exact .inr ⟨query, rfl⟩
  | halt _ | candidate _ => cases configured

theorem priority_default_gt {placement : Placement} {order : BootOrder} (unranked : placement.priority? order = none)
    (found : Finding) (description : Option String) (earlier : List Enrolment) :
    100 < (Enrolment.finding found description placement).priority order {} earlier := by
  simp only [priority, unranked, Option.getD_none]
  cases found with
  | floppy _ => exact (by decide : (100 : Int) < 101)
  | cdRom _ => exact (by decide : (100 : Int) < 102)
  | hardDisk _ | bcv _ => exact (by decide : (100 : Int) < 103)
  | cbfs _ => exact (by decide : 100 < unplaced)
  | bev _ =>
      dsimp only
      split <;> decide

theorem rank?_candidateAt {raw : String} (few : BootOrder.WithinLines 100 raw) {enrolment : Enrolment}
    (configured : enrolment.isConfigured) (earlier : List Enrolment) :
    (enrolment.candidateAt (enrolment.priority (.parse raw) {} earlier)).rank? = enrolment.rank? (.parse raw) := by
  obtain ⟨found, description, placement, rfl, looked⟩ := cases_of_isConfigured configured
  let enrolment := Enrolment.finding found description placement
  have placed : placement.priority? (.parse raw) = (enrolment.rank? (.parse raw)).map Int.ofNat := by
    obtain rfl | ⟨query, rfl⟩ := looked <;> rfl
  change (if enrolment.priority (.parse raw) {} earlier ≤ 100 then
    some (enrolment.priority (.parse raw) {} earlier).toNat else none) = enrolment.rank? (.parse raw)
  cases ranked : enrolment.rank? (.parse raw) with
  | none =>
      -- Without a rank there is a default, and all of them are above a hundred.
      rw [ranked] at placed
      exact if_neg (Int.not_le.mpr (priority_default_gt placed found description earlier))
  | some rank =>
      have upTo : rank ≤ 100 := by
        obtain rfl | ⟨query, rfl⟩ := looked
        · cases ranked
        · exact BootOrder.answer?_le few ranked
      have given : enrolment.priority (.parse raw) {} earlier = rank := by
        simp only [enrolment, priority, placed, ranked]
        rfl
      rw [given, if_pos (by omega), Int.toNat_natCast]

theorem fits_candidateAt {enrolment : Enrolment} (configured : enrolment.isConfigured) (priority : Int) :
    (enrolment.candidateAt priority).fits = true := by
  obtain ⟨found, _, _, rfl, _⟩ := cases_of_isConfigured configured
  cases found <;> rfl

end Enrolment

namespace BootOrder

variable {raw : String} {enrolments : List Enrolment}

theorem map_rank?_enrolled (few : WithinLines 100 raw)
    (configured : ∀ enrolment ∈ enrolments, enrolment.isConfigured) :
    ((parse raw).enrolled {} enrolments).map Candidate.rank? = enrolments.map (Enrolment.rank? (parse raw)) := by
  refine List.ext_getElem (by simp [enrolled]) fun index inside _ => ?_
  have listed : index < enrolments.length := by simpa [enrolled] using inside
  rw [List.getElem_map, List.getElem_map]
  simp only [enrolled, List.getElem_mapIdx]
  exact Enrolment.rank?_candidateAt few (configured _ (List.getElem_mem listed)) _

theorem fits_of_mem_enrolled {order : BootOrder} {defaults : Defaults}
    (configured : ∀ enrolment ∈ enrolments, enrolment.isConfigured) {candidate : Candidate}
    (member : candidate ∈ order.enrolled defaults enrolments) : candidate.fits = true := by
  obtain ⟨index, inside, rfl⟩ := List.mem_mapIdx.mp member
  exact Enrolment.fits_candidateAt (configured _ (List.getElem_mem inside)) _

end BootOrder

section

variable {α : Type} {sort selected : α → Bool}

theorem filter_keepFirst (other : ∀ element, selected element = true → sort element = false) (list : List α) :
    (keepFirst sort list).filter selected = list.filter selected := by
  induction list with
  | nil => rfl
  | cons head rest ih =>
      unfold keepFirst
      split
      · have both : ∀ element, (selected element && !sort element) = selected element := by
          intro element
          cases chosen : selected element with
          | false => rfl
          | true => simp [other element chosen]
        rw [List.filter_cons, List.filter_cons, List.filter_filter]
        simp only [both]
      · rw [List.filter_cons, List.filter_cons, ih]

theorem filter_take_of_pairwise {relation : α → α → Prop} {list : List α} (related : list.Pairwise relation)
    {count : Nat} {element : α} (member : element ∈ list.take count)
    (unselected : ∀ other, relation element other → selected other = false) :
    (list.take count).filter selected = list.filter selected := by
  rw [← List.take_append_drop count list] at related
  -- All that is dropped stood behind the element.
  have across := (List.pairwise_append.mp related).2.2 element member
  have dropped : (list.drop count).filter selected = [] := by
    refine List.filter_eq_nil_iff.mpr fun other behind => ?_
    rw [unselected other (across other behind)]
    exact Bool.false_ne_true
  conv => rhs; rw [← List.take_append_drop count list, List.filter_append, dropped, List.append_nil]

end

/-- Behind what was pushed there is room for the fallbacks at most. -/
theorem Sequence.entries_withFallbacks_append (pushed : List Entry) :
    ∃ added : List Entry, added.Sublist [.floppy, .hardDisk 0] ∧
      (pushed.foldl push {}).withFallbacks.entries = (keepFirst Entry.isFloppy pushed).take capacity ++ added := by
  have floppy : ∃ fallback : List Entry, fallback.Sublist [.floppy] ∧
      listed pushed = (keepFirst Entry.isFloppy pushed).take capacity ++ fallback := by
    rw [listed, keepFirst_append_singleton, List.take_append]
    refine ⟨_, (List.take_sublist _ _).trans ?_, rfl⟩
    split
    · exact List.nil_sublist _
    · exact .refl _
  obtain ⟨fallback, once, kept⟩ := floppy
  rw [entries_withFallbacks, kept]
  split
  · exact ⟨fallback ++ [.hardDisk 0], once.append (.refl _), List.append_assoc ..⟩
  · exact ⟨fallback, once.trans (List.sublist_append_left [Entry.floppy] _), rfl⟩

namespace Mapping

theorem map_some_entries {mapping : Mapping} (fit : ∀ pair ∈ mapping, pair.1.fits = true) :
    mapping.entries.map some = mapping.map fun pair => pair.1.entryFor pair.2 := by
  rw [entries_eq_map fit, List.map_map]
  refine List.map_congr_left fun pair member => ?_
  have given : (pair.1.entryFor pair.2).isSome := by rw [pair.1.isSome_entryFor, fit pair member]
  obtain ⟨entry, own⟩ := Option.isSome_iff_exists.mp given
  rw [Function.comp_apply, own, Option.getD_some]

/-- What is kept of candidates that all fit, the floppies as one. -/
def kept (mapping : Mapping) : Mapping :=
  (keepFirst (·.1.kind == .floppy) mapping).take Sequence.capacity

theorem kept_sublist (mapping : Mapping) : mapping.kept.Sublist mapping :=
  (List.take_sublist _ _).trans (keepFirst_sublist _ mapping)

theorem candidates_kept (mapping : Mapping) :
    mapping.kept.map Prod.fst =
      (keepFirst (·.kind == .floppy) (mapping.map Prod.fst)).take Sequence.capacity := by
  rw [kept, List.map_take, keepFirst_map (·.kind == .floppy) Prod.fst mapping]

theorem entries_kept {mapping : Mapping} (fit : ∀ pair ∈ mapping, pair.1.fits = true) :
    ∃ added : List Entry, added.Sublist [.floppy, .hardDisk 0] ∧
      (mapping.entries.foldl Sequence.push {}).withFallbacks.entries.map some =
        mapping.kept.map (fun pair => pair.1.entryFor pair.2) ++ added.map some := by
  obtain ⟨added, fallbacks, entries⟩ := Sequence.entries_withFallbacks_append mapping.entries
  have all : mapping.filter (·.1.fits) = mapping := List.filter_eq_self.mpr fit
  refine ⟨added, fallbacks, ?_⟩
  rw [entries, keepFirst_entries, all, List.map_append]
  exact congrArg (· ++ _) (map_some_entries fun pair member => fit pair (mapping.kept_sublist.subset member))

section

variable {mapping : Mapping} (ranked : Ranked (mapping.map Prod.fst))

include ranked

theorem pairwise_priority : mapping.Pairwise fun left right => left.1.priority ≤ right.1.priority := by
  rwa [Ranked, List.pairwise_map] at ranked

theorem kept_in_order {first second : Candidate × UInt32} {i j : Nat} (here : mapping.kept[i]? = some first)
    (there : mapping.kept[j]? = some second) (preferred : first.1.preferred second.1) : i < j := by
  have below := Candidate.priority_lt_of_preferred preferred
  obtain ⟨insideFirst, rfl⟩ := List.getElem?_eq_some_iff.mp here
  obtain ⟨insideSecond, rfl⟩ := List.getElem?_eq_some_iff.mp there
  by_contra behind
  rcases Nat.lt_or_eq_of_le (Nat.not_lt.mp behind) with earlier | rfl
  · have keeps := (pairwise_priority ranked).sublist mapping.kept_sublist
    have follows := List.pairwise_iff_getElem.mp keeps j i insideSecond insideFirst earlier
    exact Int.not_lt.mpr follows below
  · exact Int.lt_irrefl _ below

theorem filter_kept {pair : Candidate × UInt32} (member : pair ∈ mapping.kept) :
    mapping.kept.filter (fun other => other.1.kind != .floppy && other.1.preferred pair.1) =
      mapping.filter (fun other => other.1.kind != .floppy && other.1.preferred pair.1) := by
  have keeps := (pairwise_priority ranked).sublist (keepFirst_sublist (·.1.kind == .floppy) mapping)
  refine (filter_take_of_pairwise keeps member fun other follows => ?_).trans
    (filter_keepFirst (fun other chosen => ?_) mapping)
  · cases preferred : other.1.preferred pair.1 with
    | false => exact Bool.and_false _
    | true => exact absurd (Candidate.priority_lt_of_preferred preferred) (Int.not_lt.mpr follows)
  · exact Bool.eq_false_of_not_eq_true' (Bool.and_eq_true_iff.mp chosen).1

end

end Mapping

namespace Registry

variable {σ τ : Type} [Timeline σ] [DriveMapper σ] [Logging σ] [Logging τ]

theorem placed_of_ranked {registry : Registry} (order : BootOrder) (ranked : Ranked registry.candidates)
    (fit : ∀ candidate ∈ registry.candidates, candidate.fits = true) :
    Ranked (registry.placed order).candidates ∧
      ∀ candidate ∈ (registry.placed order).candidates, candidate.fits = true := by
  unfold placed
  cases order.haltRank? with
  | none => exact ⟨ranked, fit⟩
  | some rank =>
      simp only [withHalt]
      split
      · exact ⟨ranked, fit⟩
      · refine ⟨insert_ranked _ ranked, fun candidate member => ?_⟩
        rcases Candidate.mem_insertInto.mp member with rfl | earlier
        · rfl
        · exact fit candidate earlier

/-- What the boot order prefers boots first: where all priorities come from a boot order of at most
a hundred lines, or from the usual defaults, an entry stands before every entry of less
preference, and what there was no room for was of less preference than all that is there. Of the
floppies the first is kept. -/
theorem flatten_honours_order {raw : String} {enrolments : List Enrolment} (few : BootOrder.WithinLines 100 raw)
    (configured : ∀ enrolment ∈ enrolments, enrolment.isConfigured) (state : τ) (before : Recorded σ) :
    let order := BootOrder.parse raw
    let enrolled := order.enrolled {} enrolments
    let registry := (({} : Registry).enrolAll order enrolments state).1
    let result := registry.flatten order before
    enrolled.map Candidate.rank? = enrolments.map (Enrolment.rank? order) ∧
    registry.candidates.Perm enrolled ∧
    result.1.1 = registry.placed order ∧
    ∃ (mapping : Mapping) (added : List Entry),
      mapping.map Prod.fst = (registry.placed order).candidates ∧
      result.2.calls = before.calls ++ mapping.calls ∧
      mapping.kept.Sublist mapping ∧ added.Sublist [.floppy, .hardDisk 0] ∧
      mapping.kept.map Prod.fst = (keepFirst (·.kind == .floppy) (registry.placed order).candidates).take 20 ∧
      result.1.2.entries.map some = mapping.kept.map (fun pair => pair.1.entryFor pair.2) ++ added.map some ∧
      (∀ (i j : Nat) (first second : Candidate × UInt32), mapping.kept[i]? = some first →
        mapping.kept[j]? = some second → first.1.preferred second.1 → i < j) ∧
      ∀ pair ∈ mapping.kept,
        mapping.kept.filter (fun other => other.1.kind != .floppy && other.1.preferred pair.1) =
          mapping.filter (fun other => other.1.kind != .floppy && other.1.preferred pair.1) := by
  intro order enrolled registry result
  have enlisted : registry.candidates = (enrolled.foldl insert { defaults := {} }).candidates := by
    change (({} : Registry).enrolAll order enrolments state).1.candidates = _
    rw [enrolAll_answer, foldl_enlist]
  have same : registry.candidates.Perm enrolled := by
    have permuted := foldl_insert_perm { defaults := {} } enrolled
    rwa [← enlisted, List.append_nil] at permuted
  have ranked : Ranked registry.candidates := by
    rw [enlisted]
    exact foldl_insert_ranked enrolled .nil
  have fit : ∀ candidate ∈ registry.candidates, candidate.fits = true := fun candidate member =>
    BootOrder.fits_of_mem_enrolled configured (same.mem_iff.mp member)
  obtain ⟨placedRanked, placedFit⟩ := placed_of_ranked order ranked fit
  obtain ⟨marks, mapping, listed, sequenced, mapped⟩ := registry.flatten_apply order before
  have pairsFit : ∀ pair ∈ mapping, pair.1.fits = true := fun pair member =>
    placedFit pair.1 (listed ▸ List.mem_map_of_mem member)
  rw [← listed] at placedRanked
  obtain ⟨added, fallbacks, entries⟩ := Mapping.entries_kept pairsFit
  rw [← sequenced] at entries
  exact ⟨BootOrder.map_rank?_enrolled few configured, same, marks, mapping, added, listed, mapped,
    mapping.kept_sublist, fallbacks, listed ▸ mapping.candidates_kept, entries,
    fun _ _ _ _ here there preferred => Mapping.kept_in_order placedRanked here there preferred,
    fun _ member => Mapping.filter_kept placedRanked member⟩

/-- One floppy goes first and takes the other with it. The boot order names neither the disk nor
the vector, so they are last. -/
theorem flatten_honours_order_folded :
    let raw := "/floppy/a\n/rom@img/first\nHALT\n/floppy/b\n"
    let drive (handle : UInt32) : Drive := { handle, driveType := 0x10, controller := 0 }
    let vector : FarPointer := { segment := 0xc800, offset := 3 }
    let named (found : Finding) (path : String) : Enrolment := .finding found none (.ranked (.path path))
    let enrolments : List Enrolment :=
      [.finding (.hardDisk (drive 1)) none (.given none), named (.floppy (drive 2)) "/floppy/b",
        named (.cbfs { id := 7 }) "/rom@img/first", named (.floppy (drive 3)) "/floppy/a",
        named (.bev vector) "/rom@genroms/absent"]
    let board : Scripted.Board := {}
    let before : Recorded Scripted.Board := { platform := {} }
    let order := BootOrder.parse raw
    let result := (({} : Registry).enrolAll order enrolments board).1.flatten order before
    BootOrder.WithinLines 100 raw ∧ (∀ enrolment ∈ enrolments, enrolment.isConfigured) ∧
    (order.enrolled {} enrolments).map Candidate.rank? = [none, some 4, some 2, some 1, none] ∧
    result.1.2.entries = [.floppy, .cbfs { id := 7 }, .halt, .hardDisk 0, .rom vector] ∧
    ∃ (mapping : Mapping) (added : List Entry),
      mapping.kept.map (·.1.payload) = [.drive (drive 3), .file { id := 7 }, .none, .drive (drive 1), .vector vector] ∧
      result.1.2.entries.map some = mapping.kept.map (fun pair => pair.1.entryFor pair.2) ++ added.map some ∧
      ∀ (i j : Nat) (first second : Candidate × UInt32), mapping.kept[i]? = some first →
        mapping.kept[j]? = some second → first.1.preferred second.1 → i < j := by
  intro raw drive vector named enrolments board before order result
  have few : BootOrder.WithinLines 100 raw := by decide +kernel
  have configured : ∀ enrolment ∈ enrolments, enrolment.isConfigured := by decide
  obtain ⟨ranks, _, _, mapping, added, _, _, _, _, candidates, entries, ordered, _⟩ :=
    flatten_honours_order few configured board before
  refine ⟨few, configured, ranks.trans ?_, by decide +kernel, mapping, added, ?_, entries, ordered⟩
  · decide +kernel
  · change mapping.kept.map (Candidate.payload ∘ Prod.fst) = _
    rw [← List.map_map, candidates]
    decide +kernel

end Registry

end BootFlow
