import BootFlow.Enumeration
import BootFlow.Proofs.Platform.Action
import BootFlow.Proofs.Registry.Key
import BootFlow.Scripted.Board

namespace BootFlow

open Logging

/-! However the enumeration goes, the registry holds the stable sort of what it
enrolled. Only the default of boot execution vectors depends on what came before. -/

variable {σ τ : Type} [Logging σ] [Logging τ]

namespace BootOrder

theorem search_answer (order : BootOrder) (path : String) (state : σ) :
    (order.search path state).1 = match order.rank? path with
      | some rank => .ok rank
      | none => .error .noMatch := rfl

theorem searchFirst_answer (order : BootOrder) (paths : List String) (state : σ) :
    (order.searchFirst paths state).1 = paths.findSome? order.rank? := by
  induction paths generalizing state with
  | nil => rfl
  | cons path others ih =>
      simp only [searchFirst, Action.bind_apply, search_answer, List.findSome?_cons]
      cases order.rank? path with
      | none => exact ih _
      | some rank => rfl

/-- What a query comes to, apart from the log. -/
def answer? (order : BootOrder) : Query → Option Nat
  | .path path => order.rank? path
  | .halt => order.haltRank?
  | .target target => order.targetRank? target

theorem ask_answer (order : BootOrder) (query : Query) (state : σ) :
    (order.ask query state).1 = order.answer? query := by
  cases query with
  | path path =>
      rw [ask, searchFirst_answer, List.findSome?_singleton]
      rfl
  | halt =>
      rw [ask, searchHalt, searchFirst_answer, List.findSome?_singleton]
      rfl
  | target target => exact order.searchFirst_answer target.paths state

end BootOrder

def Placement.priority? (order : BootOrder) : Placement → Option Int
  | .given priority => priority
  | .ranked query => (order.answer? query).map Int.ofNat

theorem Placement.resolve_answer (placement : Placement) (order : BootOrder) (state : σ) :
    (placement.resolve order state).1 = placement.priority? order := by
  cases placement with
  | given priority => rfl
  | ranked query => exact congrArg (Option.map Int.ofNat) (order.ask_answer query state)

namespace Registry

/-- What an enrolment comes to, apart from the log. -/
def enlist (order : BootOrder) (registry : Registry) : Enrolment → Registry
  | .finding finding description placement =>
      registry.add { finding, description, priority := placement.priority? order }
  | .halt placement => registry.insert (.halt ((placement.priority? order).getD unplaced))
  | .candidate candidate => registry.insert candidate

theorem enrol_answer (registry : Registry) (order : BootOrder) (enrolment : Enrolment) (state : σ) :
    (registry.enrol order enrolment state).1 = registry.enlist order enrolment := by
  cases enrolment with
  | finding finding description placement =>
      rw [enlist, ← placement.resolve_answer order state]
      rfl
  | halt placement =>
      rw [enlist, ← placement.resolve_answer order state]
      rfl
  | candidate candidate => rfl

theorem enrolAll_answer (registry : Registry) (order : BootOrder) (enrolments : List Enrolment)
    (state : σ) :
    (registry.enrolAll order enrolments state).1 = enrolments.foldl (enlist order) registry := by
  induction enrolments generalizing registry state with
  | nil => rfl
  | cons enrolment others ih =>
      rw [List.foldl_cons, ← registry.enrol_answer order enrolment state]
      exact ih _ _

end Registry

namespace Enrolment

/-- Enrolments of boot execution vectors. The first of them, with a priority of its
own or without, spends their default. -/
def isVector : Enrolment → Bool
  | .finding (.bev _) _ _ => true
  | _ => false

/-- The priority that an enrolment gets behind those before it. -/
def priority (order : BootOrder) (defaults : Defaults) (earlier : List Enrolment) : Enrolment → Int
  | .finding found _ placement =>
      (placement.priority? order).getD
        (match found with
          | .floppy _ => defaults.floppy
          | .hardDisk _ | .bcv _ => defaults.hardDisk
          | .cdRom _ => defaults.cdRom
          | .cbfs _ => unplaced
          | .bev _ => if earlier.any isVector then unplaced else defaults.bev)
  | .halt placement => (placement.priority? order).getD unplaced
  | .candidate given => given.priority

def candidateAt (priority : Int) : Enrolment → Candidate
  | .finding found description _ =>
      { kind := found.kind
        priority
        payload := found.payload
        description := description.getD found.defaultDescription }
  | .halt _ => .halt priority
  | .candidate given => { given with priority }

/-- What a driver reports can be sorted. A candidate that is registered as it is may
lack what its kind is compared by. -/
def sortable : Enrolment → Bool
  | .candidate given => given.sortable
  | _ => true

theorem sortable_candidateAt {enrolment : Enrolment} (sortable : enrolment.sortable) (priority : Int) :
    (enrolment.candidateAt priority).sortable := by
  cases enrolment with
  | finding found _ _ => cases found <;> rfl
  | halt _ => rfl
  | candidate _ => exact sortable

end Enrolment

namespace BootOrder

def enrolled (order : BootOrder) (defaults : Defaults) (enrolments : List Enrolment) :
    List Candidate :=
  enrolments.mapIdx fun index enrolment =>
    enrolment.candidateAt (enrolment.priority order defaults (enrolments.take index))

variable {order : BootOrder} {defaults : Defaults}

theorem enrolled_concat (earlier : List Enrolment) (last : Enrolment) :
    order.enrolled defaults (earlier ++ [last]) =
      order.enrolled defaults earlier ++ [last.candidateAt (last.priority order defaults earlier)] := by
  rw [enrolled, List.mapIdx_concat, List.take_left, enrolled, List.append_cancel_right_eq,
    List.mapIdx_eq_mapIdx_iff]
  intro index inside
  rw [List.take_append_of_le_length (Nat.le_of_lt inside)]

theorem sortable_of_mem_enrolled {enrolments : List Enrolment} {candidate : Candidate}
    (sortable : ∀ enrolment ∈ enrolments, enrolment.sortable)
    (member : candidate ∈ order.enrolled defaults enrolments) : candidate.sortable := by
  obtain ⟨index, inside, rfl⟩ := List.mem_mapIdx.mp member
  exact Enrolment.sortable_candidateAt (sortable _ (List.getElem_mem inside)) _

end BootOrder

/-- The defaults that are left behind some enrolments. -/
def Defaults.behind (defaults : Defaults) (earlier : List Enrolment) : Defaults :=
  { defaults with bev := if earlier.any Enrolment.isVector then unplaced else defaults.bev }

theorem Defaults.behind_concat (defaults : Defaults) (earlier : List Enrolment) (last : Enrolment) :
    defaults.behind (earlier ++ [last]) =
      if last.isVector then { defaults.behind earlier with bev := unplaced }
      else defaults.behind earlier := by
  cases vector : last.isVector <;> simp [behind, vector]

namespace Registry

variable {order : BootOrder} {defaults : Defaults}

theorem enlist_behind {registry : Registry} {earlier : List Enrolment}
    (left : registry.defaults = defaults.behind earlier) (last : Enrolment) :
    registry.enlist order last =
      { registry.insert (last.candidateAt (last.priority order defaults earlier)) with
        defaults := defaults.behind (earlier ++ [last]) } := by
  rw [Defaults.behind_concat, ← left]
  cases last with
  | finding found description placement =>
      have made : registry.candidateOf
            { finding := found, description, priority := placement.priority? order } =
          (Enrolment.finding found description placement).candidateAt
            ((Enrolment.finding found description placement).priority order defaults earlier) := by
        cases found <;> simp only [candidateOf, left] <;> rfl
      rw [enlist, add, made]
      cases found <;> rfl
  | halt placement => rfl
  | candidate given => rfl

theorem foldl_enlist (order : BootOrder) (defaults : Defaults) (enrolments : List Enrolment) :
    enrolments.foldl (enlist order) { defaults } =
      { (order.enrolled defaults enrolments).foldl insert { defaults } with
        defaults := defaults.behind enrolments } := by
  induction enrolments using List.reverseRecOn with
  | nil => rfl
  | append_singleton earlier last ih =>
      rw [List.foldl_append, List.foldl_cons, List.foldl_nil, ih, enlist_behind rfl,
        BootOrder.enrolled_concat, List.foldl_append, List.foldl_cons, List.foldl_nil]
      rfl

theorem candidates_enrolAll {enrolments : List Enrolment}
    (sortable : ∀ candidate ∈ order.enrolled defaults enrolments, candidate.sortable) (state : σ) :
    (({ defaults } : Registry).enrolAll order enrolments state).1.candidates =
      (order.enrolled defaults enrolments).mergeSort (byKey Candidate.key) := by
  rw [enrolAll_answer, foldl_enlist, ← candidates_foldl_insert defaults sortable]

/-- The enumeration leaves the stable sort of all that it enrolled. So where no two
keys are the same, the order of the enumeration does not show. -/
theorem enrolAll_sorts {enrolments : List Enrolment}
    (sortable : ∀ enrolment ∈ enrolments, enrolment.sortable) (state : σ) :
    let enrolled := order.enrolled defaults enrolments
    let registry := (({ defaults } : Registry).enrolAll order enrolments state).1
    registry.candidates = enrolled.mergeSort (byKey Candidate.key) ∧
    ∀ (others : List Enrolment) (later : τ),
      (order.enrolled defaults others).Perm enrolled → (enrolled.map Candidate.key).Nodup →
      (({ defaults } : Registry).enrolAll order others later).1.candidates = registry.candidates := by
  intro enrolled registry
  have enrolledSortable : ∀ candidate ∈ enrolled, candidate.sortable :=
    fun candidate member => BootOrder.sortable_of_mem_enrolled sortable member
  have sorted : registry.candidates = enrolled.mergeSort (byKey Candidate.key) :=
    candidates_enrolAll enrolledSortable state
  refine ⟨sorted, ?_⟩
  intro others later same distinct
  have othersSortable : ∀ candidate ∈ order.enrolled defaults others, candidate.sortable :=
    fun candidate member => enrolledSortable candidate (same.mem_iff.mp member)
  rw [sorted, candidates_enrolAll othersSortable later, mergeSort_eq_of_perm same distinct]

/-- The second vector finds the default spent. The disks and the stop mark tie in
priority, and the disks in kind. -/
theorem enrolAll_sorts_ties :
    let disk (driveType : UInt8) : Enrolment :=
      .finding (.hardDisk { handle := 0, driveType, controller := 0 }) none (.given (some 5))
    let vector (offset : UInt16) (priority : Option Int) : Enrolment :=
      .finding (.bev { segment := 0xc800, offset }) none (.given priority)
    let enrolments := [vector 1 (some 7), .halt (.given (some 5)), disk 2, vector 2 none, disk 1]
    let others := [disk 1, vector 1 (some 7), vector 2 none, disk 2, .halt (.given (some 5))]
    let sorted := (({} : BootOrder).enrolled {} enrolments).mergeSort (byKey Candidate.key)
    let board : Scripted.Board := {}
    (sorted.map fun candidate => (candidate.priority, candidate.payload)) =
        [(5, .drive { handle := 0, driveType := 1, controller := 0 }),
          (5, .drive { handle := 0, driveType := 2, controller := 0 }), (5, .none),
          (7, .vector { segment := 0xc800, offset := 1 }),
          (9999, .vector { segment := 0xc800, offset := 2 })] ∧
      (({} : Registry).enrolAll {} others board).1.candidates =
        (({} : Registry).enrolAll {} enrolments board).1.candidates := by
  intro disk vector enrolments others sorted board
  have sortable : ∀ enrolment ∈ enrolments, enrolment.sortable := by decide
  obtain ⟨stable, independent⟩ :=
    @enrolAll_sorts _ Scripted.Board _ _ {} {} enrolments sortable board
  have distinct : ((({} : BootOrder).enrolled {} enrolments).map Candidate.key).Nodup := by decide
  refine ⟨?_, independent others board (by decide) distinct⟩
  exact (congrArg (List.map _) stable).symm.trans (by decide)

end Registry

end BootFlow
