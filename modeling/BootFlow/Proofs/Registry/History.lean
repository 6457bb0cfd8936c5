import BootFlow.Proofs.Registry.Key
import BootFlow.Proofs.Registry.Promotion
import Mathlib

namespace BootFlow

/-! A registry tells its history: in front the candidates that were ever promoted,
the last one first, and behind them the stable sort of the others. -/

section

variable {α : Type} [BEq α] [LawfulBEq α]

theorem eraseDups_filter (selected : α → Bool) : (list : List α) →
    (list.filter selected).eraseDups = list.eraseDups.filter selected
  | [] => rfl
  | head :: rest => by
      have others := eraseDups_filter selected (rest.filter (!· == head))
      rw [List.eraseDups_cons]
      cases chosen : selected head with
      | true =>
          rw [List.filter_cons_of_pos chosen, List.filter_cons_of_pos chosen, List.eraseDups_cons,
            List.filter_comm, others]
      | false =>
          have without : (rest.filter (!· == head)).filter selected = rest.filter selected := by
            rw [List.filter_filter]
            apply List.filter_congr
            intro element _
            cases same : element == head with
            | false => simp
            | true => simp [eq_of_beq same, chosen]
          rw [List.filter_cons_of_neg (by simp [chosen]), List.filter_cons_of_neg (by simp [chosen]),
            ← others, without]
  termination_by list => list.length
  decreasing_by exact Nat.lt_succ_of_le (List.length_filter_le _ _)

theorem nodup_eraseDups : (list : List α) → list.eraseDups.Nodup
  | [] => .nil
  | head :: rest => by
      rw [List.eraseDups_cons, List.nodup_cons, List.mem_eraseDups]
      exact ⟨by simp, nodup_eraseDups (rest.filter (!· == head))⟩
  termination_by list => list.length
  decreasing_by exact Nat.lt_succ_of_le (List.length_filter_le _ _)

end

namespace Registry

/-- What may happen to the candidates of a registry. -/
inductive Operation
  | register (candidate : Candidate)
  | promote (position : Nat)
  deriving DecidableEq, Repr

def Operation.registered? : Operation → Option Candidate
  | .register candidate => some candidate
  | .promote _ => none

def operate (registry : Registry) : Operation → Registry
  | .register candidate => registry.insert candidate
  | .promote position => registry.promote position

end Registry

/-- What has happened to the candidates of a registry. Each candidate goes by the
number of its registration, for two of them may look alike. -/
structure History where
  registered : List Candidate := []
  /-- The candidates that the promotions took, the last one first. -/
  promotions : List (Candidate × Nat) := []
  deriving DecidableEq, Repr

namespace History

/-- The candidates that were ever promoted, the last one first. -/
def front (history : History) : List (Candidate × Nat) :=
  history.promotions.eraseDups

def others (history : History) : List (Candidate × Nat) :=
  history.registered.zipIdx.filter (· ∉ history.promotions)

def rest (history : History) : List (Candidate × Nat) :=
  history.others.mergeSort (byKey (·.1.key))

def standing (history : History) : List (Candidate × Nat) :=
  history.front ++ history.rest

/-- A promotion takes what stands at its position. -/
def record (history : History) : Registry.Operation → History
  | .register candidate => { history with registered := history.registered ++ [candidate] }
  | .promote 0 => history
  | .promote (index + 1) =>
      match history.standing[index]? with
      | some entry => { history with promotions := entry :: history.promotions }
      | none => history

def candidates (history : History) : List Candidate :=
  history.front.map (·.1.promoted) ++ history.rest.map (·.1)

/-- Only candidates that were registered were promoted, and each of them can be
sorted and stands behind priority zero. -/
structure WellFormed (history : History) : Prop where
  known : ∀ entry ∈ history.promotions, entry ∈ history.registered.zipIdx
  placed : ∀ candidate ∈ history.registered, 1 ≤ candidate.priority ∧ candidate.sortable

variable {history : History}

theorem map_rest (history : History) :
    history.rest.map (·.1) = (history.others.map (·.1)).mergeSort (byKey Candidate.key) := by
  rw [rest, List.map_mergeSort]
  intro left _ right _
  rfl

theorem mem_front {entry : Candidate × Nat} : entry ∈ history.front ↔ entry ∈ history.promotions :=
  List.mem_eraseDups

theorem mem_rest {entry : Candidate × Nat} :
    entry ∈ history.rest ↔ entry ∈ history.registered.zipIdx ∧ entry ∉ history.promotions := by
  rw [rest, (List.mergeSort_perm _ _).mem_iff, others, List.mem_filter, decide_eq_true_iff]

theorem nodup_zipIdx (list : List Candidate) : list.zipIdx.Nodup :=
  List.Nodup.of_map _ (List.nodup_zipIdx_map_snd list)

theorem nodup_standing (history : History) : history.standing.Nodup := by
  rw [standing, List.nodup_append]
  refine ⟨nodup_eraseDups _, ?_, ?_⟩
  · exact (List.mergeSort_perm _ _).nodup_iff.mpr ((nodup_zipIdx _).filter _)
  · intro left leftMember right rightMember same
    exact (mem_rest.mp rightMember).2 (same ▸ mem_front.mp leftMember)

theorem standing_perm (wellFormed : history.WellFormed) :
    history.standing.Perm history.registered.zipIdx := by
  rw [List.perm_ext_iff_of_nodup history.nodup_standing (nodup_zipIdx _)]
  intro entry
  rw [standing, List.mem_append, mem_front, mem_rest]
  constructor
  · rintro (promoted | ⟨registered, _⟩)
    · exact wellFormed.known entry promoted
    · exact registered
  · intro registered
    by_cases promoted : entry ∈ history.promotions
    · exact .inl promoted
    · exact .inr ⟨registered, promoted⟩

/-- A candidate as it stands in the registry. -/
def shown (history : History) (entry : Candidate × Nat) : Candidate :=
  if entry ∈ history.promotions then entry.1.promoted else entry.1

theorem candidates_eq_map (history : History) :
    history.candidates = history.standing.map history.shown := by
  rw [standing, List.map_append, candidates]
  congr 1
  · apply List.map_congr_left
    intro entry member
    rw [shown, if_pos (mem_front.mp member)]
  · apply List.map_congr_left
    intro entry member
    rw [shown, if_neg (mem_rest.mp member).2]

theorem promoted_shown (history : History) (entry : Candidate × Nat) :
    (history.shown entry).promoted = entry.1.promoted := by
  unfold shown
  split <;> rfl

section

variable {candidate : Candidate} {entry : Candidate × Nat} {index : Nat}

theorem others_register (wellFormed : history.WellFormed) (candidate : Candidate) :
    (history.record (.register candidate)).others =
      history.others ++ [(candidate, history.registered.length)] := by
  have fresh : (candidate, history.registered.length) ∉ history.promotions := by
    intro promoted
    have bound := List.snd_lt_of_mem_zipIdx (wellFormed.known _ promoted)
    simp at bound
  have last : [(candidate, history.registered.length)].filter (· ∉ history.promotions) =
      [(candidate, history.registered.length)] := List.filter_cons_of_pos (decide_eq_true fresh)
  rw [others, others, record, List.zipIdx_append, List.filter_append, Nat.zero_add, List.zipIdx_singleton,
    last]

/-- A candidate with a priority of its own passes all that were promoted. -/
theorem insertInto_candidates (placed : 1 ≤ candidate.priority) :
    candidate.insertInto history.candidates =
      history.front.map (·.1.promoted) ++ candidate.insertInto (history.rest.map (·.1)) := by
  apply Candidate.insertInto_append
  intro other member precedes
  obtain ⟨entry, _, rfl⟩ := List.mem_map.mp member
  have below : candidate.priority ≤ 0 := Candidate.priority_le_of_order_lt precedes
  omega

theorem candidates_register (wellFormed : history.WellFormed)
    (placed : 1 ≤ candidate.priority ∧ candidate.sortable) :
    candidate.insertInto history.candidates = (history.record (.register candidate)).candidates := by
  have sortable : ∀ other ∈ history.others.map (·.1) ++ [candidate], other.sortable := by
    intro other member
    rcases List.mem_append.mp member with earlier | last
    · obtain ⟨entry, listed, rfl⟩ := List.mem_map.mp earlier
      have registered := List.fst_mem_of_mem_zipIdx (List.mem_filter.mp listed).1
      exact (wellFormed.placed _ registered).2
    · rw [List.mem_singleton.mp last]
      exact placed.2
  rw [insertInto_candidates placed.1, map_rest, Candidate.insertInto_mergeSort sortable, candidates,
    map_rest, others_register wellFormed, List.map_append]
  rfl

theorem record_promote (stands : history.standing[index]? = some entry) :
    history.record (.promote (index + 1)) = { history with promotions := entry :: history.promotions } := by
  simp only [record, stands]

theorem front_promote (stands : history.standing[index]? = some entry) :
    (history.record (.promote (index + 1))).front = entry :: history.front.filter (!· == entry) := by
  rw [record_promote stands, front, List.eraseDups_cons, eraseDups_filter]
  rfl

theorem rest_promote (stands : history.standing[index]? = some entry) :
    (history.record (.promote (index + 1))).rest = history.rest.filter (!· == entry) := by
  rw [record_promote stands, rest, rest, filter_mergeSort, others, others, List.filter_filter]
  congr 1
  apply List.filter_congr
  intro other _
  cases same : other == entry <;> simp_all

theorem standing_promote (stands : history.standing[index]? = some entry) :
    (history.record (.promote (index + 1))).standing = entry :: history.standing.filter (!· == entry) := by
  rw [standing, front_promote stands, rest_promote stands, standing, List.filter_append, List.cons_append]

theorem candidates_promote (stands : history.standing[index]? = some entry) :
    entry.1.promoted :: history.candidates.eraseIdx index =
      (history.record (.promote (index + 1))).candidates := by
  obtain ⟨inside, found⟩ := List.getElem?_eq_some_iff.mp stands
  have erased : history.standing.eraseIdx index = history.standing.filter (!· == entry) := by
    rw [← history.nodup_standing.erase_getElem index inside, found,
      history.nodup_standing.erase_eq_filter]
    rfl
  rw [candidates_eq_map, List.eraseIdx_map, erased, candidates_eq_map, standing_promote stands,
    List.map_cons, record_promote stands]
  congr 1
  · simp [shown]
  · apply List.map_congr_left
    intro other member
    have distinct : other ≠ entry := by simpa using (List.mem_filter.mp member).2
    simp [shown, distinct]

end

theorem candidates_operate {registry : Registry} (wellFormed : history.WellFormed)
    (told : registry.candidates = history.candidates) {operation : Registry.Operation}
    (placed : ∀ candidate ∈ operation.registered?, 1 ≤ candidate.priority ∧ candidate.sortable) :
    (registry.operate operation).candidates = (history.record operation).candidates := by
  cases operation with
  | register candidate =>
      rw [← candidates_register wellFormed (placed candidate rfl), ← told]
      rfl
  | promote position =>
      cases position with
      | zero => exact told
      | succ index =>
          have here : registry.at? (index + 1) = history.standing[index]?.map history.shown := by
            rw [Registry.at?, told, candidates_eq_map, List.getElem?_map]
          cases stands : history.standing[index]? with
          | none =>
              rw [stands] at here
              simp only [Registry.operate, Registry.promote, here, Option.map_none, record, stands, told]
          | some entry =>
              rw [stands] at here
              rw [← candidates_promote stands, ← promoted_shown, ← told]
              simp only [Registry.operate, Registry.promote, here, Option.map_some]
              rfl

theorem registered_record (history : History) (operation : Registry.Operation) :
    (history.record operation).registered = history.registered ++ operation.registered?.toList := by
  cases operation with
  | register candidate => rfl
  | promote position =>
      have kept : (history.record (.promote position)).registered = history.registered := by
        unfold record
        split
        · contradiction
        · rfl
        · split <;> rfl
      rw [kept]
      exact (List.append_nil _).symm

theorem wellFormed_record (wellFormed : history.WellFormed) {operation : Registry.Operation}
    (placed : ∀ candidate ∈ operation.registered?, 1 ≤ candidate.priority ∧ candidate.sortable) :
    (history.record operation).WellFormed := by
  cases operation with
  | register candidate =>
      constructor
      · intro entry promoted
        simp only [record, List.zipIdx_append]
        exact List.mem_append_left _ (wellFormed.known entry promoted)
      · intro other member
        rcases List.mem_append.mp member with earlier | last
        · exact wellFormed.placed other earlier
        · rw [List.mem_singleton.mp last]
          exact placed candidate rfl
  | promote position =>
      cases position with
      | zero => exact wellFormed
      | succ index =>
          cases stands : history.standing[index]? with
          | none => simpa only [record, stands] using wellFormed
          | some entry =>
              rw [record_promote stands]
              refine ⟨?_, wellFormed.placed⟩
              intro other promoted
              rcases List.mem_cons.mp promoted with rfl | earlier
              · exact (standing_perm wellFormed).mem_iff.mp (List.mem_of_getElem? stands)
              · exact wellFormed.known other earlier

end History

namespace Registry

variable {operations : List Operation}

theorem foldl_operate (defaults : Defaults)
    (placed : ∀ candidate ∈ operations.filterMap Operation.registered?,
      1 ≤ candidate.priority ∧ candidate.sortable) :
    (operations.foldl History.record {}).WellFormed ∧
      (operations.foldl operate { defaults }).candidates =
        (operations.foldl History.record {}).candidates := by
  induction operations using List.reverseRecOn with
  | nil =>
      refine ⟨⟨by simp, by simp⟩, ?_⟩
      simp [History.candidates, History.front, History.rest, History.others]
  | append_singleton earlier last ih =>
      rw [List.filterMap_append] at placed
      obtain ⟨wellFormed, told⟩ := ih fun candidate member =>
        placed candidate (List.mem_append_left _ member)
      have lastPlaced (candidate : Candidate) (registers : candidate ∈ last.registered?) :
          1 ≤ candidate.priority ∧ candidate.sortable := by
        refine placed candidate (List.mem_append_right _ ?_)
        exact List.mem_filterMap.mpr ⟨last, List.mem_singleton_self last, registers⟩
      rw [List.foldl_append, List.foldl_append, List.foldl_cons, List.foldl_cons, List.foldl_nil,
        List.foldl_nil]
      exact ⟨History.wellFormed_record wellFormed lastPlaced,
        History.candidates_operate wellFormed told lastPlaced⟩

theorem registered_foldl_record (operations : List Operation) :
    (operations.foldl History.record {}).registered = operations.filterMap Operation.registered? := by
  induction operations using List.reverseRecOn with
  | nil => rfl
  | append_singleton earlier last ih =>
      rw [List.foldl_append, List.foldl_cons, List.foldl_nil, History.registered_record, ih,
        List.filterMap_append]
      cases last <;> rfl

/-- However registrations and promotions alternate, the candidates that were ever
promoted stand in front, the last one first, and the stable sort of the others stands
behind them. A further registration goes behind the front, too. -/
theorem candidates_history (defaults : Defaults)
    (placed : ∀ candidate ∈ operations.filterMap Operation.registered?,
      1 ≤ candidate.priority ∧ candidate.sortable) :
    let registry := operations.foldl operate { defaults }
    let history := operations.foldl History.record {}
    let front := history.front.map (·.1.promoted)
    let rest := (history.others.map (·.1)).mergeSort (byKey Candidate.key)
    registry.candidates = front ++ rest ∧
    history.registered = operations.filterMap Operation.registered? ∧
    (history.front ++ history.others).Perm history.registered.zipIdx ∧
    (∀ candidate : Candidate, 1 ≤ candidate.priority →
      (registry.insert candidate).candidates = front ++ candidate.insertInto rest) ∧
    ∀ position, position = 0 ∨ registry.candidates.length < position →
      registry.promote position = registry := by
  intro registry history front rest
  obtain ⟨wellFormed, told⟩ := foldl_operate defaults placed
  have sorted : history.rest.map (·.1) = rest := history.map_rest
  refine ⟨?_, registered_foldl_record operations, ?_, ?_, fun position outside => promote_outside outside⟩
  · rw [told, ← sorted]
    rfl
  · have sortedOthers : (history.front ++ history.others).Perm history.standing :=
      (List.mergeSort_perm history.others _).symm.append_left history.front
    exact sortedOthers.trans (History.standing_perm wellFormed)
  · intro candidate placed
    rw [← sorted, insert, told]
    exact History.insertInto_candidates placed

section

def drivenAt (kind : Kind) (priority : Int) : Candidate where
  kind := kind
  priority := priority
  payload := .drive { handle := 1, driveType := 0x80, controller := 0 }
  description := kind.name

/-- Of two disks that look alike the second is promoted, then a floppy, then the disk
again. -/
def lively : List Operation :=
  [.register (drivenAt .hardDisk 5), .register (drivenAt .floppy 3), .register (drivenAt .hardDisk 5),
    .promote 3, .register (drivenAt .cdRom 4), .promote 2, .promote 0, .promote 9, .promote 2]

theorem candidates_history_lively :
    (lively.foldl History.record {}).front = [(drivenAt .hardDisk 5, 2), (drivenAt .floppy 3, 1)] ∧
      (lively.foldl History.record {}).others = [(drivenAt .hardDisk 5, 0), (drivenAt .cdRom 4, 3)] ∧
      (lively.foldl operate {}).candidates =
        [drivenAt .hardDisk 0, drivenAt .floppy 0, drivenAt .cdRom 4, drivenAt .hardDisk 5] ∧
      (lively.foldl operate {}).promote 9 = lively.foldl operate {} := by
  have front : (lively.foldl History.record {}).front =
      [(drivenAt .hardDisk 5, 2), (drivenAt .floppy 3, 1)] := by cbv
  have others : (lively.foldl History.record {}).others =
      [(drivenAt .hardDisk 5, 0), (drivenAt .cdRom 4, 3)] := by cbv
  have placed : ∀ candidate ∈ lively.filterMap Operation.registered?,
      1 ≤ candidate.priority ∧ candidate.sortable := by decide
  obtain ⟨held, _, _, _, outside⟩ := candidates_history {} placed
  refine ⟨front, others, ?_, outside 9 (by decide)⟩
  rw [held, front, others]
  cbv

end

end Registry

end BootFlow
