import EntityQuery.Proofs.Execution.Dialogue
import EntityQuery.Proofs.Expression.Conforming
import EntityQuery.Proofs.Schema.Registration

/-!
# Answers that do not depend on the sort

The pipelines of a query and the list program answer alike with whatever stable sort, provided that
the keys order the records that pass the filter.  Keys do so if their values are null or scalars of
one type and none of them is a floating point number that is none.

With such a number among the keys there is no answer to compare with.  It ties with numbers that
differ, so a list may have no stably sorted form at all, and the pipelines leave a larger key before
a smaller one.
-/

namespace EntityQuery

open ListProgram

variable {query : Query} {recordType : TypeKey} {records : List Record} {sort : Sorter}
  {keys : List SortKey}

/-- The keys of a query order the records that pass its filter, if they can be read there. -/
def Query.HasOrder (query : Query) (records : List Record) : Prop :=
  ∀ filter orderBy kept, query.filter = .ok filter → query.orderBy = .ok orderBy →
    filtered filter records = .ok kept →
    (Stage.sort (orderBy.map SortKey.ofOrderKey)).Applies kept →
    (Stage.sort (orderBy.map SortKey.ofOrderKey)).HasOrder kept

theorem filtered_sublist {filter : Option Expression} {kept : List Record}
    (h : filtered filter records = .ok kept) : kept.Sublist records := by
  cases filter with
  | none => exact Except.ok.inj h ▸ List.Sublist.refl _
  | some predicate => exact keep_sublist h

/-- A query has an order to go by if the values of each of its keys are null or scalars of one type,
and none of them is a floating point number that is none. -/
theorem Query.hasOrder_of_isOf
    (h : ∀ orderBy, query.orderBy = .ok orderBy → ∀ key ∈ orderBy.map SortKey.ofOrderKey,
      ∃ type, ∀ r ∈ records,
        (Stage.valueOn r key).IsOf type ∧ (Stage.valueOn r key).isNaN = false) :
    query.HasOrder records := by
  intro filter orderBy kept _ horder hkept happlies
  have hsub := (filtered_sublist hkept).subset
  refine Stage.hasOrder_of_isOf happlies fun key hkey => ?_
  obtain ⟨type, htype⟩ := h orderBy horder key hkey
  exact ⟨type, fun r hr => htype r (hsub hr)⟩

/-- Keys that can be read on all records apply to them. -/
theorem Stage.applies_of_mapM {keyed : List Sorting.Keyed}
    (h : records.mapM (withValues keys) = .ok keyed) : (Stage.sort keys).Applies records := by
  intro r hr
  obtain ⟨entry, -, hentry⟩ := exists_mem_of_mapM h hr
  obtain ⟨values, hvalues, -⟩ := bind_eq_ok.1 hentry
  rw [← values_eq_mapM] at hvalues
  exact ⟨values, mapError_eq_ok.1 hvalues⟩

/-- Stable sorts arrange records alike where the keys order them. -/
theorem arranged_eq {other : Sorter} (hsort : sort.IsStable) (hother : other.IsStable)
    (h : (Stage.sort keys).Applies records → (Stage.sort keys).HasOrder records) :
    arranged sort (some keys) records = arranged other (some keys) records := by
  cases hkeyed : records.mapM (withValues keys) with
  | error e => rw [arranged, arranged, hkeyed]; rfl
  | ok keyed =>
      have happlies := Stage.applies_of_mapM hkeyed
      have horder := h happlies
      obtain rfl := Except.ok.inj ((Stage.mapM_withValues happlies).symm.trans hkeyed)
      rw [arranged, arranged, hkeyed, ok_bind, ok_bind,
        (hsort keys _).unique (hother keys _) horder]

/-- A query whose keys order the records is answered as the list program answers it, whatever the
sort is, provided it is stable. -/
theorem execute_eq_answer (hsort : sort.IsStable) (query : Query) (recordType : TypeKey)
    (records : List Record) (horder : query.HasOrder records) :
    query.execute recordType records = answer sort query recordType records := by
  rw [execute_eq_answer_insertionSorter, answer, answer]
  split
  · exact bind_congr_ok fun _ hthrow => absurd hthrow throw_ne_ok
  · refine bind_congr_ok fun filter hfilter => bind_congr_ok fun orderBy horderBy => ?_
    refine bind_congr fun shape => bind_congr fun skip => bind_congr fun top => ?_
    refine bind_congr fun count => bind_congr fun format => bind_congr_ok fun kept hkept => ?_
    have harranged : arranged insertionSorter (if (query.raw.value? .orderBy).isSome then
          some (orderBy.map SortKey.ofOrderKey) else none) kept =
        arranged sort (if (query.raw.value? .orderBy).isSome then
          some (orderBy.map SortKey.ofOrderKey) else none) kept := by
      split
      · exact arranged_eq insertionSorter_isStable hsort
          (horder filter orderBy kept hfilter horderBy hkept)
      · rfl
    rw [harranged]

/-! ## Points -/

namespace Sample

def pointKey : TypeKey := ⟨"Point"⟩

/-- A point has a number and a place on a line. -/
def pointGraph : HostGraph :=
  ⟨[(pointKey, .record ⟨"Sample", "Point", none,
    [⟨"Id", .primitive .int32, true⟩, ⟨"X", .primitive .double, true⟩]⟩)]⟩

def xProperty : Property := ⟨"X", pointKey, .primitive .double, false, false⟩

def pointType : ComplexType :=
  ⟨pointKey, "Sample", "Point", none,
    [⟨"Id", pointKey, .primitive .int32, false, false⟩, xProperty]⟩

def points : EntitySet := ⟨"Points", pointKey, none, .none⟩

def pointModel : Model := ⟨[points], [pointType], [], [("Sample.Point", pointKey)]⟩

theorem build_points : (ModelBuilder.afterCalls
    [.register pointGraph "Points" (.named pointKey) none .none]).build = .ok pointModel := by
  cbv

def point (id : Int32) (x : Float) : Record :=
  .ofFields id.toNatClampNeg pointKey "point" [("Id", .int32 id), ("X", .double x)]

theorem point_conforms (id : Int32) (x : Float) : Conforms pointModel pointKey (point id x) := by
  intro type htype p hp
  obtain rfl : pointType = type := Option.some.inj htype
  rcases List.mem_pair.1 hp with rfl | rfl
  · exact .inr (.primitive rfl)
  · exact .inr (.primitive rfl)

/-- All points by their place. -/
def pointQuery : Query := ⟨pointModel, points, ⟨[(.orderBy, "$orderby=X")]⟩⟩

/-- The second point from the left. -/
def secondQuery : Query :=
  ⟨pointModel, points, ⟨[(.orderBy, "$orderby=X"), (.skip, "$skip=1"), (.top, "$top=1")]⟩⟩

/-- The key that the points are sorted by. -/
def placeKey : SortKey := ⟨.single xProperty, .ascending, .first⟩

end Sample

open Sample in
/-- The points are answered from left to right. -/
theorem execute_eq_answer_points :
    insertionSorter.IsStable ∧ pointQuery.HasOrder [point 1 2, point 2 1] ∧
      answer insertionSorter pointQuery pointKey [point 1 2, point 2 1] = .ok
        ⟨[.mk [.mk "Id" (.value (.int32 2)), .mk "X" (.value (.double 1))],
          .mk [.mk "Id" (.value (.int32 1)), .mk "X" (.value (.double 2))]], none, none⟩ ∧
      pointQuery.execute pointKey [point 1 2, point 2 1] =
        answer insertionSorter pointQuery pointKey [point 1 2, point 2 1] := by
  have horder : pointQuery.HasOrder [point 1 2, point 2 1] := by
    refine Query.hasOrder_of_isOf fun orderBy horderBy key hkey => ⟨.primitive .double, ?_⟩
    obtain rfl := Except.ok.inj horderBy
    obtain rfl := List.mem_singleton.1 hkey
    intro r hr
    rcases List.mem_pair.1 hr with rfl | rfl
    · exact ⟨.inr rfl, by decide +kernel⟩
    · exact ⟨.inr rfl, by decide +kernel⟩
  exact ⟨insertionSorter_isStable, horder, rfl,
    execute_eq_answer insertionSorter_isStable pointQuery pointKey _ horder⟩

open Sample in
/-- Two points lie left of the first one, which is answered before them.  So the second point from
the left lies at 1, wherever the point without a number is put, and it is not the one that is
answered. -/
theorem execute_notANumber :
    (ModelBuilder.afterCalls
        [.register pointGraph "Points" (.named pointKey) none .none]).build = .ok pointModel ∧
      Query.parse pointModel "Points" "$orderby=X" = .ok pointQuery ∧
      Query.parse pointModel "Points" "$orderby=X&$skip=1&$top=1" = .ok secondQuery ∧
      (∀ r ∈ [point 1 2, point 2 (0 / 0), point 3 1, point 4 1],
        Conforms pointModel pointKey r) ∧
      placeKey.compare (.double 1) (.double 2) = .lt ∧
      (∃ page, pointQuery.execute pointKey
          [point 1 2, point 2 (0 / 0), point 3 1, point 4 1] = .ok page ∧
        page.records =
          [.mk [.mk "Id" (.value (.int32 1)), .mk "X" (.value (.double 2))],
            .mk [.mk "Id" (.value (.int32 2)), .mk "X" (.value (.double (0 / 0)))],
            .mk [.mk "Id" (.value (.int32 3)), .mk "X" (.value (.double 1))],
            .mk [.mk "Id" (.value (.int32 4)), .mk "X" (.value (.double 1))]]) ∧
      ∃ page, secondQuery.execute pointKey
          [point 1 2, point 2 (0 / 0), point 3 1, point 4 1] = .ok page ∧
        page.records =
          [.mk [.mk "Id" (.value (.int32 2)), .mk "X" (.value (.double (0 / 0)))]] := by
  refine ⟨build_points, rfl, rfl, ?_, by decide +kernel, ?_, ?_⟩
  · simp only [List.forall_mem_cons, point_conforms, true_and]
    exact List.forall_mem_nil _
  · rw [execute_eq_answer_insertionSorter]
    exact ⟨_, rfl, rfl⟩
  · rw [execute_eq_answer_insertionSorter]
    exact ⟨_, rfl, rfl⟩

end EntityQuery
