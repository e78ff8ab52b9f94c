import EntityQuery.Proofs.Execution.Browsing

/-!
# Whether links lead on

A page with a link is full: the next page begins behind it by as many records as it has.  This is
further on unless the page has no records, which is so for `$top=0` only.  The link of such a page
asks for the same page again, and whoever follows links from there does so for ever.
-/

namespace EntityQuery

open ListProgram

variable {query next : Query}

namespace Query

/-- The plan of a query has the place where the page begins, whether it is written or not. -/
theorem SameButSkip.plan (h : SameButSkip next query) {skip place : Option Nat}
    (hskip : query.skip = .ok skip) (hplace : next.skip = .ok place)
    (hsame : place.getD 0 = skip.getD 0) : Plan.ofQuery next = Plan.ofQuery query := by
  simp only [Plan.ofQuery, h.filter, h.orderBy, h.shape, h.top, h.count, h.format, hskip, hplace,
    ok_bind, hsame]

/-- Queries with the same plan have the same answer. -/
theorem SameButSkip.execute (h : SameButSkip next query)
    (hplan : Plan.ofQuery next = Plan.ofQuery query) (recordType : TypeKey)
    (records : List Record) :
    next.execute recordType records = query.execute recordType records := by
  rw [Query.execute, Query.execute, hplan, h.model, h.type, h.set]

end Query

namespace Site

variable {site : Site} {page : Page} {pages : List Page} {ending : Ending} {text : String}
  {place : Nat}

/-- A page with a link is full, and the link leads behind it. -/
theorem full_of_nextSkip (hask : site.ask query = .ok page) (hnext : page.nextSkip = some place) :
    ∃ skip top, query.skip = .ok skip ∧ query.top = .ok (some top) ∧ page.records.length = top ∧
      place = skip.getD 0 + top ∧ place ≤ maxCount := by
  obtain ⟨found, hfound, hcut⟩ :=
    answer_eq_ok ((execute_eq_answer_insertionSorter ..).symm.trans hask)
  have htotal : found.length ≤ maxCount :=
    Nat.le_trans (matching_subperm insertionSorter_isStable hfound).length_le site.records_le
  obtain ⟨skip, top, hskip, htop, hfull, hplace, hmore⟩ := full_of_cut htotal hcut hnext
  exact ⟨skip, top, hskip, htop, hfull, hplace, Nat.le_trans (Nat.le_of_lt hmore) htotal⟩

/-- The link of a page can be followed, and leads back to the page exactly if the page is empty. -/
theorem exists_link (hread : site.read text = .ok query) (hask : site.ask query = .ok page)
    (hnext : page.nextSkip = some place) :
    ∃ linkText next, site.Links query page linkText ∧ site.read linkText = .ok next ∧
      Query.SameButSkip next query ∧ next.skip = .ok (some place) ∧
      (site.ask next = .ok page ↔ page.records.length = 0) := by
  obtain ⟨skip, top, hskip, htop, hfull, hplace, hle⟩ := full_of_nextSkip hask hnext
  obtain ⟨linkText, next, hlink, hread', hsame, hskip'⟩ :=
    Query.parse_nextLink hread site.path hle
  refine ⟨linkText, next, ⟨place, hnext, hlink⟩, hread', hsame, hskip', ?_⟩
  constructor
  · intro hback
    -- The link of a page that is met twice would lead behind itself.
    obtain ⟨skip', top', hskip'', -, hfull', hplace', -⟩ := full_of_nextSkip hback hnext
    obtain rfl := Except.ok.inj (hskip''.symm.trans hskip')
    rw [Option.getD_some] at hplace'
    omega
  · intro hempty
    have hstay : (some place).getD 0 = skip.getD 0 := by
      rw [Option.getD_some]
      omega
    exact (hsame.execute (hsame.plan hskip hskip' hstay) ..).trans hask

/-- Following the link of an empty page never comes to an end. -/
theorem not_visit (hread : site.read text = .ok query) (hask : site.ask query = .ok page)
    (hnext : page.nextSkip = some place) (hempty : page.records.length = 0) :
    ¬Visit site query pages ending := by
  intro h
  induction h generalizing text with
  | fail hask' => cases hask.symm.trans hask'
  | last hask' hnext' =>
      obtain rfl := Except.ok.inj (hask.symm.trans hask')
      cases hnext.symm.trans hnext'
  | lose hask' hlink hfail =>
      obtain rfl := Except.ok.inj (hask.symm.trans hask')
      obtain ⟨linkText, next, hlink', hread', -⟩ := exists_link hread hask hnext
      obtain rfl := hlink.unique hlink'
      cases hread'.symm.trans hfail
  | follow hask' hlink hread'' hrest ih =>
      obtain rfl := Except.ok.inj (hask.symm.trans hask')
      obtain ⟨linkText, next, hlink', hread', -, -, hback⟩ := exists_link hread hask hnext
      obtain rfl := hlink.unique hlink'
      obtain rfl := Except.ok.inj (hread'.symm.trans hread'')
      exact ih hread' (hback.2 hempty)

/-- A link leads behind the page it stands on by `$top` records.  Exactly if `$top` is positive this
is further on than the page begins, the link leads to another page, and following links comes to an
end. -/
theorem nextSkip_progress (hread : site.read text = .ok query) (hask : site.ask query = .ok page)
    (hnext : page.nextSkip = some place) :
    ∃ skip top, query.skip = .ok skip ∧ query.top = .ok (some top) ∧ page.records.length = top ∧
      place = skip.getD 0 + top ∧ (skip.getD 0 < place ↔ 0 < top) ∧
      (∃ linkText next, site.Links query page linkText ∧ site.read linkText = .ok next ∧
        next.skip = .ok (some place) ∧ (site.ask next ≠ .ok page ↔ 0 < top)) ∧
      ((∃ pages ending, Visit site query pages ending) ↔ 0 < top) := by
  obtain ⟨skip, top, hskip, htop, hfull, hplace, -⟩ := full_of_nextSkip hask hnext
  obtain ⟨linkText, next, hlink, hread', -, hskip', hback⟩ := exists_link hread hask hnext
  rw [hfull] at hback
  refine ⟨skip, top, hskip, htop, hfull, hplace, by omega,
    ⟨linkText, next, hlink, hread', hskip', by rw [Ne, hback, Nat.pos_iff_ne_zero]⟩, ?_⟩
  constructor
  · rintro ⟨pages, ending, hvisit⟩
    refine Nat.pos_of_ne_zero fun hzero => ?_
    exact not_visit hread hask hnext (hfull.trans hzero) hvisit
  · intro hpos
    obtain ⟨pages, ending, hvisit, -⟩ := exists_visit hread htop hpos
    exact ⟨pages, ending, hvisit⟩

/-- The second item of the sample is further on. -/
theorem nextSkip_progress_sample :
    ∃ query page, sample.read "$top=1&$orderby=Price" = .ok query ∧
      sample.ask query = .ok page ∧ page.nextSkip = some 1 ∧
      ∃ skip top, query.skip = .ok skip ∧ query.top = .ok (some top) ∧ page.records.length = top ∧
        1 = skip.getD 0 + top ∧ (skip.getD 0 < 1 ↔ 0 < top) ∧
        (∃ linkText next, sample.Links query page linkText ∧ sample.read linkText = .ok next ∧
          next.skip = .ok (some 1) ∧ (sample.ask next ≠ .ok page ↔ 0 < top)) ∧
        ((∃ pages ending, Visit sample query pages ending) ↔ 0 < top) := by
  have hread : sample.read "$top=1&$orderby=Price" = .ok
      ⟨Sample.model, Sample.items, ⟨[(.top, "$top=1"), (.orderBy, "$orderby=Price")]⟩⟩ := rfl
  obtain ⟨page, hask, hnext⟩ : ∃ page, sample.ask
      ⟨Sample.model, Sample.items, ⟨[(.top, "$top=1"), (.orderBy, "$orderby=Price")]⟩⟩ =
        .ok page ∧ page.nextSkip = some 1 := by
    rw [ask, execute_eq_answer_insertionSorter]
    exact ⟨_, rfl, rfl⟩
  exact ⟨_, page, hread, hask, hnext, nextSkip_progress hread hask hnext⟩

/-- The link of an empty page leads to where the page begins, and shows it again. -/
theorem nextSkip_noTop :
    ∃ query next page, sample.read "$top=0" = .ok query ∧ sample.ask query = .ok page ∧
      query.skip = .ok none ∧ page.nextSkip = some 0 ∧
      sample.Links query page "$top=0&$skip=0" ∧ sample.read "$top=0&$skip=0" = .ok next ∧
      sample.ask next = .ok page := by
  refine ⟨⟨Sample.model, Sample.items, ⟨[(.top, "$top=0")]⟩⟩,
    ⟨Sample.model, Sample.items, ⟨[(.top, "$top=0"), (.skip, "$skip=0")]⟩⟩, ⟨[], none, some 0⟩,
    rfl, ?_, rfl, rfl, ⟨0, rfl, rfl⟩, rfl, ?_⟩
  · rw [ask, execute_eq_answer_insertionSorter]
    rfl
  · rw [ask, execute_eq_answer_insertionSorter]
    rfl

end Site

end EntityQuery
