import EntityQuery.Proofs.Execution.Refinement
import Mathlib.Data.List.Perm.Subperm

/-!
# What an answer says

An answer that is no error tells that all options could be read, that the records could be filtered
and sorted, and that those on the page could be projected.
-/

namespace EntityQuery

namespace ListProgram

variable {α : Type} {sort : Sorter} {query : Query} {recordType : TypeKey}
  {records found : List Record} {page : Page}

/-- The records that match a query, in the order that is asked for. -/
def matching (sort : Sorter) (query : Query) (records : List Record) :
    Except QueryError (List Record) := do
  let filter ← query.filter
  let orderBy ← query.orderBy
  let kept ← filtered filter records
  arranged sort
    (if (query.raw.value? .orderBy).isSome then some (orderBy.map SortKey.ofOrderKey) else none)
    kept

/-- The parts of a page that was cut out of the matching records. -/
structure Cut (query : Query) (recordType : TypeKey) (found : List Record) (page : Page) :
    Prop where
  type : query.type = recordType
  read : ∃ shape skip top count, query.shape = .ok shape ∧ query.skip = .ok skip ∧
    query.top = .ok top ∧ query.count = .ok count ∧
    (ListProgram.page (skip.getD 0) top found).mapM
      (Projection.shaped query.model recordType shape) = .ok page.records ∧
    page.count = (if count then some found.length else none) ∧
    page.nextSkip = nextPlace (skip.getD 0) top found.length

theorem answer_eq_ok (h : answer sort query recordType records = .ok page) :
    ∃ found, matching sort query records = .ok found ∧ Cut query recordType found page := by
  unfold answer at h
  obtain ⟨htype, h⟩ := guard_eq_ok.1 h
  obtain ⟨filter, hfilter, h⟩ := bind_eq_ok.1 h
  obtain ⟨orderBy, horder, h⟩ := bind_eq_ok.1 h
  obtain ⟨shape, hshape, h⟩ := bind_eq_ok.1 h
  obtain ⟨skip, hskip, h⟩ := bind_eq_ok.1 h
  obtain ⟨top, htop, h⟩ := bind_eq_ok.1 h
  obtain ⟨count, hcount, h⟩ := bind_eq_ok.1 h
  obtain ⟨format, -, h⟩ := bind_eq_ok.1 h
  obtain ⟨kept, hkept, h⟩ := bind_eq_ok.1 h
  obtain ⟨found, hfound, h⟩ := bind_eq_ok.1 h
  obtain ⟨shown, hshown, h⟩ := bind_eq_ok.1 h
  obtain rfl := pure_eq_ok.1 h
  refine ⟨found, ?_, Decidable.not_not.1 htype, shape, skip, top, count, hshape, hskip, htop,
    hcount, hshown, rfl, rfl⟩
  rw [matching, hfilter, ok_bind, horder, ok_bind, hkept, ok_bind]
  exact hfound

/-! ## Matching records -/

/-- What matches is among the records, and nothing of it twice. -/
theorem matching_subperm (hstable : sort.IsStable) (h : matching sort query records = .ok found) :
    found.Subperm records := by
  obtain ⟨filter, -, h⟩ := bind_eq_ok.1 h
  obtain ⟨orderBy, -, h⟩ := bind_eq_ok.1 h
  obtain ⟨kept, hkept, h⟩ := bind_eq_ok.1 h
  have hsublist : kept.Sublist records := by
    cases filter with
    | none =>
        obtain rfl := Except.ok.inj hkept
        exact List.Sublist.refl _
    | some predicate => exact keep_sublist hkept
  revert h
  generalize (if (query.raw.value? .orderBy).isSome then some (orderBy.map SortKey.ofOrderKey)
    else none) = keys
  intro h
  cases keys with
  | none =>
      obtain rfl := Except.ok.inj h
      exact hsublist.subperm
  | some keys =>
      obtain ⟨keyed, hkeyed, h⟩ := bind_eq_ok.1 h
      obtain rfl := pure_eq_ok.1 h
      have hrecords : keyed.map Prod.fst = kept := by
        refine (map_eq_of_mapM (fun record item hitem => ?_) hkeyed).trans (List.map_id kept)
        obtain ⟨values, -, hitem⟩ := bind_eq_ok.1 hitem
        obtain rfl := pure_eq_ok.1 hitem
        rfl
      have hperm := (hstable keys keyed).perm.map Prod.fst
      rw [hrecords] at hperm
      exact hperm.subperm.trans hsublist.subperm

theorem page_sublist (skip : Nat) (top : Option Nat) (as : List α) :
    (ListProgram.page skip top as).Sublist as := by
  cases top with
  | none => exact List.drop_sublist skip as
  | some top => exact (List.take_sublist top _).trans (List.drop_sublist skip as)

end ListProgram

end EntityQuery
