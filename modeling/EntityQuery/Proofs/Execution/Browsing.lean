import EntityQuery.Proofs.Execution.Answers
import EntityQuery.Proofs.Options.Moves
import EntityQuery.Proofs.Sample

/-!
# Following links

A client asks for a page, reads the query in the link to the next page, asks for that one, and so on
until there is no link.  It sees every matching record behind the place where it began, once and in
order.

Each page but the last one is full, so the next one begins where it ends.  The query in the link
differs in `$skip` only; it finds the same records, in the same order since sorting is determined,
and therefore continues the same list.
-/

namespace EntityQuery

open ListProgram

/-- What pages are made from and where they are found.  No list is longer than can be counted. -/
structure Site where
  model : Model
  setName : String
  path : String
  recordType : TypeKey
  records : List Record
  records_le : records.length ≤ maxCount

/-- How following links comes to an end. -/
inductive Ending
  | complete
  | failed (error : QueryError)
  | lost (error : QueryError)

namespace Site

variable {site : Site} {query next : Query} {page : Page} {pages : List Page} {ending : Ending}
  {text : String} {top : Nat}

/-- The answer to a query. -/
def ask (site : Site) (query : Query) : Except QueryError Page :=
  query.execute site.recordType site.records

/-- The query in a text. -/
def read (site : Site) (text : String) : Except QueryError Query :=
  Query.parse site.model site.setName text

/-- The link behind a page, up to the path. -/
def Links (site : Site) (query : Query) (page : Page) (text : String) : Prop :=
  ∃ skip, page.nextSkip = some skip ∧ query.nextLink site.path skip = site.path ++ "?" ++ text

/-- The pages that are seen from a query on, until there is no link, an answer is an error or a link
cannot be read. -/
inductive Visit (site : Site) : Query → List Page → Ending → Prop
  | fail {query : Query} {e : QueryError} (hask : site.ask query = .error e) :
      Visit site query [] (.failed e)
  | last {query : Query} {page : Page} (hask : site.ask query = .ok page)
      (hnext : page.nextSkip = none) : Visit site query [page] .complete
  | lose {query : Query} {page : Page} {text : String} {e : QueryError}
      (hask : site.ask query = .ok page) (hlink : site.Links query page text)
      (hread : site.read text = .error e) : Visit site query [page] (.lost e)
  | follow {query next : Query} {page : Page} {text : String} {pages : List Page} {ending : Ending}
      (hask : site.ask query = .ok page) (hlink : site.Links query page text)
      (hread : site.read text = .ok next) (hrest : Visit site next pages ending) :
      Visit site query (page :: pages) ending

theorem Links.unique {other : String} (h : site.Links query page text)
    (h' : site.Links query page other) : text = other := by
  obtain ⟨skip, hskip, hlink⟩ := h
  obtain ⟨skip', hskip', hlink'⟩ := h'
  obtain rfl : skip = skip' := Option.some.inj (hskip.symm.trans hskip')
  rw [hlink] at hlink'
  simpa using hlink'

theorem Links.nextSkip_ne_none (h : site.Links query page text) : page.nextSkip ≠ none := by
  obtain ⟨skip, hskip, -⟩ := h
  rw [hskip]
  exact Option.some_ne_none skip

/-! ## What an answer leaves to a client -/

theorem Visit.of_error {e : QueryError} (h : Visit site query pages ending)
    (hask : site.ask query = .error e) : pages = [] ∧ ending = .failed e := by
  cases h with
  | fail hask' =>
      obtain rfl := Except.error.inj (hask.symm.trans hask')
      exact ⟨rfl, rfl⟩
  | last hask' _ | lose hask' _ _ | follow hask' _ _ _ => cases hask.symm.trans hask'

theorem Visit.of_last (h : Visit site query pages ending) (hask : site.ask query = .ok page)
    (hnext : page.nextSkip = none) : pages = [page] ∧ ending = .complete := by
  cases h with
  | fail hask' => cases hask.symm.trans hask'
  | last hask' _ =>
      obtain rfl := Except.ok.inj (hask.symm.trans hask')
      exact ⟨rfl, rfl⟩
  | lose hask' hlink _ | follow hask' hlink _ _ =>
      obtain rfl := Except.ok.inj (hask.symm.trans hask')
      exact absurd hnext hlink.nextSkip_ne_none

/-- A link is the only one, and is either lost or followed. -/
theorem Visit.of_link (h : Visit site query pages ending) (hask : site.ask query = .ok page)
    (hlink : site.Links query page text) :
    (∃ e, site.read text = .error e ∧ pages = [page] ∧ ending = .lost e) ∨
      ∃ next others, site.read text = .ok next ∧ pages = page :: others ∧
        Visit site next others ending := by
  cases h with
  | fail hask' => cases hask.symm.trans hask'
  | last hask' hnext =>
      obtain rfl := Except.ok.inj (hask.symm.trans hask')
      exact absurd hnext hlink.nextSkip_ne_none
  | lose hask' hlink' hread =>
      obtain rfl := Except.ok.inj (hask.symm.trans hask')
      obtain rfl := hlink.unique hlink'
      exact .inl ⟨_, hread, rfl, rfl⟩
  | follow hask' hlink' hread hrest =>
      obtain rfl := Except.ok.inj (hask.symm.trans hask')
      obtain rfl := hlink.unique hlink'
      exact .inr ⟨_, _, hread, rfl, hrest⟩

/-- A client has no choice. -/
theorem Visit.unique {pages' : List Page} {ending' : Ending} (h : Visit site query pages ending)
    (h' : Visit site query pages' ending') : pages' = pages ∧ ending' = ending := by
  induction h generalizing pages' ending' with
  | fail hask => exact h'.of_error hask
  | last hask hnext => exact h'.of_last hask hnext
  | lose hask hlink hread =>
      rcases h'.of_link hask hlink with ⟨e, hread', rfl, rfl⟩ | ⟨next, others, hread', -, -⟩
      · obtain rfl := Except.error.inj (hread.symm.trans hread')
        exact ⟨rfl, rfl⟩
      · cases hread.symm.trans hread'
  | follow hask hlink hread _ ih =>
      rcases h'.of_link hask hlink with ⟨e, hread', -, -⟩ | ⟨next, others, hread', rfl, hrest⟩
      · cases hread.symm.trans hread'
      · obtain rfl := Except.ok.inj (hread.symm.trans hread')
        obtain ⟨rfl, rfl⟩ := ih hrest
        exact ⟨rfl, rfl⟩

theorem Visit.ne_nil (h : Visit site query pages .complete) : pages ≠ [] := by
  cases h with
  | last hask hnext => exact List.cons_ne_nil _ _
  | follow hask hlink hread hrest => exact List.cons_ne_nil _ _

/-! ## All pages -/

/-- What is seen if no answer is an error: full pages but for the last one, each with the same
count, and on them everything behind the place where the first one begins. -/
structure Enumerates (sort : Sorter) (site : Site) (query : Query) (top : Nat)
    (pages : List Page) : Prop where
  full : ∀ page ∈ pages.dropLast, page.records.length = top
  whole : ∃ shape skip count found, query.shape = .ok shape ∧ query.skip = .ok skip ∧
    query.count = .ok count ∧ matching sort query site.records = .ok found ∧
    (found.drop (skip.getD 0)).mapM (Projection.shaped site.model site.recordType shape) =
      .ok (pages.flatMap Page.records) ∧
    ∀ page ∈ pages, page.count = if count then some found.length else none

theorem nextPlace_eq_none {skip top total : Nat} (h : nextPlace skip (some top) total = none)
    (htotal : total ≤ maxCount) : total ≤ skip + top := by
  unfold nextPlace at h
  split at h
  · rename_i htop
    cases htop
  · rename_i htop
    obtain rfl := Option.some.inj htop
    split at h
    · cases h
    · omega

theorem nextPlace_eq_some {skip top total place : Nat}
    (h : nextPlace skip (some top) total = some place) (htotal : total ≤ maxCount) :
    place = skip + top ∧ skip + top < total := by
  unfold nextPlace at h
  split at h
  · cases h
  · rename_i htop
    obtain rfl := Option.some.inj htop
    split at h
    · obtain rfl := Option.some.inj h
      omega
    · cases h

/-- A page with a link is full, and the link leads behind it, though not behind all records. -/
theorem full_of_cut {found : List Record} {place : Nat} (htotal : found.length ≤ maxCount)
    (hcut : Cut query site.recordType found page) (hnext : page.nextSkip = some place) :
    ∃ skip top, query.skip = .ok skip ∧ query.top = .ok (some top) ∧ page.records.length = top ∧
      place = skip.getD 0 + top ∧ place < found.length := by
  obtain ⟨shape, skip, top?, count, -, hskip, htop, -, hshown, -, hplace⟩ := hcut.read
  cases top? with
  | none => cases hplace.symm.trans hnext
  | some top =>
      obtain ⟨rfl, hmore⟩ := nextPlace_eq_some (hplace.symm.trans hnext) htotal
      refine ⟨skip, top, hskip, htop, ?_, rfl, hmore⟩
      rw [length_of_mapM_eq_ok hshown, ListProgram.page, List.length_take, List.length_drop]
      omega

theorem Enumerates.single {sort : Sorter} {found : List Record}
    (hfound : matching sort query site.records = .ok found) (htotal : found.length ≤ maxCount)
    (hmodel : query.model = site.model) (htop : query.top = .ok (some top))
    (hcut : Cut query site.recordType found page) (hnext : page.nextSkip = none) :
    Enumerates sort site query top [page] := by
  obtain ⟨shape, skip, top', count, hshape, hskip, htop', hcount, hshown, hcounted, hplace⟩ :=
    hcut.read
  obtain rfl : top' = some top := Except.ok.inj (htop'.symm.trans htop)
  have hlast := nextPlace_eq_none (hplace.symm.trans hnext) htotal
  refine ⟨by simp, shape, skip, count, found, hshape, hskip, hcount, hfound, ?_, ?_⟩
  · have hall : ListProgram.page (skip.getD 0) (some top) found = found.drop (skip.getD 0) := by
      apply List.take_of_length_le
      rw [List.length_drop]
      omega
    rw [hall, hmodel] at hshown
    simpa using hshown
  · simpa using hcounted

theorem matching_congr (h : Query.SameButSkip next query) (sort : Sorter) (records : List Record) :
    matching sort next records = matching sort query records := by
  rw [matching, matching, h.filter, h.orderBy, h.values .orderBy (by decide)]

theorem Enumerates.cons {sort : Sorter} {found : List Record} {place : Nat}
    (hfound : matching sort query site.records = .ok found) (htotal : found.length ≤ maxCount)
    (hmodel : query.model = site.model) (htop : query.top = .ok (some top))
    (hcut : Cut query site.recordType found page) (hnext : page.nextSkip = some place)
    (hsame : Query.SameButSkip next query) (hskip' : next.skip = .ok (some place))
    (hne : pages ≠ []) (hrest : Enumerates sort site next top pages) :
    Enumerates sort site query top (page :: pages) := by
  obtain ⟨shape, skip, top', count, hshape, hskip, htop', hcount, hshown, hcounted, -⟩ :=
    hcut.read
  obtain rfl : top' = some top := Except.ok.inj (htop'.symm.trans htop)
  obtain ⟨skip', top', hskip'', htop'', hlength, rfl, -⟩ := full_of_cut htotal hcut hnext
  obtain rfl := Except.ok.inj (hskip.symm.trans hskip'')
  obtain rfl := Option.some.inj (Except.ok.inj (htop.symm.trans htop''))
  -- The rest of the pages goes on where this one ends, in the same list.
  obtain ⟨hfull, shape', place, count', found', hshape', hplace', hcount', hfound', hothers,
    hcounts⟩ := hrest
  obtain rfl := Except.ok.inj (hplace'.symm.trans hskip')
  rw [hsame.shape, hshape] at hshape'
  rw [hsame.count, hcount] at hcount'
  rw [matching_congr hsame, hfound] at hfound'
  obtain rfl := Except.ok.inj hshape'
  obtain rfl := Except.ok.inj hcount'
  obtain rfl := Except.ok.inj hfound'
  refine ⟨?_, shape, skip, count, found, hshape, hskip, hcount, hfound, ?_, ?_⟩
  · intro other hother
    rw [List.dropLast_cons_of_ne_nil hne] at hother
    rcases List.mem_cons.1 hother with rfl | hmem
    · exact hlength
    · exact hfull other hmem
  · have hsplit : found.drop (skip.getD 0) =
        ListProgram.page (skip.getD 0) (some top) found ++ found.drop (skip.getD 0 + top) := by
      rw [ListProgram.page, ← List.drop_drop, List.take_append_drop]
    rw [hmodel] at hshown
    rw [Option.getD_some] at hothers
    calc (found.drop (skip.getD 0)).mapM (Projection.shaped site.model site.recordType shape)
        = (do
            let shown ← (ListProgram.page (skip.getD 0) (some top) found).mapM
              (Projection.shaped site.model site.recordType shape)
            let others ← (found.drop (skip.getD 0 + top)).mapM
              (Projection.shaped site.model site.recordType shape)
            return shown ++ others) := by rw [hsplit, List.mapM_append]
      _ = .ok ((page :: pages).flatMap Page.records) := by
        rw [hshown, ok_bind, hothers]
        rfl
  · intro other hother
    rcases List.mem_cons.1 hother with rfl | hmem
    · exact hcounted
    · exact hcounts other hmem

/-- The records behind the place where a query begins. -/
def left (site : Site) (query : Query) : Nat :=
  match query.skip with
  | .ok skip => site.records.length - skip.getD 0
  | .error _ => 0

theorem exists_visit (hread : site.read text = .ok query) (htop : query.top = .ok (some top))
    (hpos : 0 < top) :
    ∃ pages ending, Visit site query pages ending ∧
      (ending = .complete ∧ Enumerates insertionSorter site query top pages ∨
        ∃ e, ending = .failed e) := by
  -- The induction is on the records behind the place where the query begins.
  induction hn : site.left query using Nat.strongRecOn generalizing query text with
  | ind n ih =>
      subst hn
      cases hask : site.ask query with
      | error e => exact ⟨[], .failed e, .fail hask, .inr ⟨e, rfl⟩⟩
      | ok page =>
          have hmodel : query.model = site.model := (Query.parse_eq_ok.1 hread).1
          -- The answer is a page cut out of what matches.
          obtain ⟨found, hfound, hcut⟩ :=
            answer_eq_ok ((execute_eq_answer_insertionSorter ..).symm.trans hask)
          have hlength := (matching_subperm insertionSorter_isStable hfound).length_le
          have htotal : found.length ≤ maxCount := Nat.le_trans hlength site.records_le
          cases hnext : page.nextSkip with
          | none =>
              exact ⟨[page], .complete, .last hask hnext,
                .inl ⟨rfl, .single hfound htotal hmodel htop hcut hnext⟩⟩
          | some place =>
              obtain ⟨skip, top', hskip, htop', -, hbehind, hplace⟩ :=
                full_of_cut htotal hcut hnext
              obtain rfl := Option.some.inj (Except.ok.inj (htop.symm.trans htop'))
              obtain ⟨nextText, next, hlink, hread', hsame, hskip'⟩ :=
                Query.parse_nextLink hread site.path (by omega : place ≤ maxCount)
              -- The link leads to a place further on.
              have hless : site.left next < site.left query := by
                simp only [left, hskip, hskip', Option.getD_some]
                omega
              obtain ⟨pages, ending, hvisit, hend⟩ :=
                ih (site.left next) hless hread' (hsame.top.trans htop) rfl
              have hlinks : site.Links query page nextText := ⟨place, hnext, hlink⟩
              refine ⟨page :: pages, ending, .follow hask hlinks hread' hvisit, ?_⟩
              rcases hend with ⟨rfl, hrest⟩ | hfailed
              · left
                exact ⟨rfl, .cons hfound htotal hmodel htop hcut hnext hsame hskip' hvisit.ne_nil
                  hrest⟩
              · right
                exact hfailed

/-- Whoever follows links from a query sees, after finitely many full pages, the last one, unless an
answer is an error, and by then every matching record once and in order. -/
theorem visit_enumerates :
    ∃ sort : Sorter, sort.IsStable ∧ ∀ (site : Site) (text : String) (query : Query) (top : Nat),
      site.read text = .ok query → query.top = .ok (some top) → 0 < top →
        ∃ pages ending, Visit site query pages ending ∧
          (∀ pages' ending', Visit site query pages' ending' →
            pages' = pages ∧ ending' = ending) ∧
          (ending = .complete ∧ Enumerates sort site query top pages ∨
            ∃ e, ending = .failed e) := by
  refine ⟨insertionSorter, insertionSorter_isStable, ?_⟩
  intro site text query top hread htop hpos
  obtain ⟨pages, ending, hvisit, hend⟩ := exists_visit hread htop hpos
  exact ⟨pages, ending, hvisit, fun pages' ending' hvisit' => hvisit.unique hvisit', hend⟩

/-- Two items on two pages. -/
def sample : Site :=
  ⟨Sample.model, "Items", "/Items", Sample.itemKey,
    [Sample.item 1 "Bolt" 12 [], Sample.item 2 "Nut" 3 []], by decide⟩

/-- From the cheapest item of the sample a link leads to the dear one, and from there none leads on.
-/
theorem visit_enumerates_sample :
    ∃ sort : Sorter, sort.IsStable ∧ ∃ query first second,
      sample.read "$top=1&$orderby=Price" = .ok query ∧ query.top = .ok (some 1) ∧
        Visit sample query [first, second] .complete ∧
        (∀ pages ending, Visit sample query pages ending →
          pages = [first, second] ∧ ending = .complete) ∧
        Enumerates sort sample query 1 [first, second] := by
  let query : Query :=
    ⟨Sample.model, Sample.items, ⟨[(.top, "$top=1"), (.orderBy, "$orderby=Price")]⟩⟩
  let next : Query := ⟨Sample.model, Sample.items,
    ⟨[(.top, "$top=1"), (.orderBy, "$orderby=Price"), (.skip, "$skip=1")]⟩⟩
  have hread : sample.read "$top=1&$orderby=Price" = .ok query := rfl
  have htop : query.top = .ok (some 1) := rfl
  obtain ⟨first, hfirst, hlink⟩ : ∃ page, sample.ask query = .ok page ∧
      sample.Links query page "$top=1&$orderby=Price&$skip=1" := by
    rw [ask, execute_eq_answer_insertionSorter]
    exact ⟨_, rfl, 1, rfl, rfl⟩
  obtain ⟨second, hsecond, hlast⟩ : ∃ page, sample.ask next = .ok page ∧
      page.nextSkip = none := by
    rw [ask, execute_eq_answer_insertionSorter]
    exact ⟨_, rfl, rfl⟩
  have hreadNext : sample.read "$top=1&$orderby=Price&$skip=1" = .ok next := rfl
  have hvisit : Visit sample query [first, second] .complete :=
    .follow hfirst hlink hreadNext (.last hsecond hlast)
  obtain ⟨sort, hstable, h⟩ := visit_enumerates
  obtain ⟨pages, ending, -, honly, hend⟩ := h sample _ query 1 hread htop (by decide)
  obtain ⟨rfl, rfl⟩ := honly _ _ hvisit
  refine ⟨sort, hstable, query, first, second, hread, htop, hvisit, honly, ?_⟩
  obtain ⟨-, hall⟩ | ⟨e, hfailed⟩ := hend
  · exact hall
  · cases hfailed

end Site

end EntityQuery
