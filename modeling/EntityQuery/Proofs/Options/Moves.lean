import EntityQuery.Options.Query
import EntityQuery.Proofs.Options.Links

/-!
# Queries that begin elsewhere

The query of a link to another page says the same as the query it was made from, except for the
place where the page begins.
-/

namespace EntityQuery.Query

open RawOptions

variable {model : Model} {setName text : String} {query other : Query} {skip : Nat}

/-- Queries that say the same but for `$skip`. -/
structure SameButSkip (query other : Query) : Prop where
  model : query.model = other.model
  set : query.set = other.set
  values : ∀ option, option ≠ .skip → query.raw.value? option = other.raw.value? option

namespace SameButSkip

theorem option (h : SameButSkip query other) {option : SystemOption} (hne : option ≠ .skip)
    {α : Type} (read : String → Except QueryError α) :
    query.option option read = other.option option read := by
  rw [Query.option, Query.option, h.values option hne]

theorem type (h : SameButSkip query other) : query.type = other.type := by
  rw [Query.type, Query.type, h.set]

theorem filter (h : SameButSkip query other) : query.filter = other.filter := by
  rw [Query.filter, Query.filter, h.model, h.type, h.option (by decide)]

theorem orderBy (h : SameButSkip query other) : query.orderBy = other.orderBy := by
  rw [Query.orderBy, Query.orderBy, h.model, h.type, h.option (by decide)]

theorem shape (h : SameButSkip query other) : query.shape = other.shape := by
  rw [Query.shape, Query.shape, Shape.parse, Shape.parse, h.model, h.type,
    h.values .select (by decide), h.values .expand (by decide)]

theorem top (h : SameButSkip query other) : query.top = other.top := h.option (by decide) _

theorem count (h : SameButSkip query other) : query.count = other.count := by
  rw [Query.count, Query.count, h.option (by decide)]

theorem format (h : SameButSkip query other) : query.format = other.format :=
  h.option (by decide) _

end SameButSkip

theorem parse_eq_ok : parse model setName text = .ok query ↔
    query.model = model ∧ RawOptions.parse text = .ok query.raw ∧
      model.entitySet setName = .ok query.set := by
  unfold parse
  constructor
  · intro h
    obtain ⟨raw, hraw, h⟩ := bind_eq_ok.1 h
    obtain ⟨set, hset, h⟩ := bind_eq_ok.1 h
    obtain rfl := pure_eq_ok.1 h
    exact ⟨rfl, hraw, hset⟩
  · rintro ⟨rfl, hraw, hset⟩
    rw [hraw, ok_bind, hset]
    rfl

/-- A link made from a query can be read again. -/
theorem parse_nextLink (h : parse model setName text = .ok query) (path : String)
    (hskip : skip ≤ maxCount) :
    ∃ nextText next, query.nextLink path skip = path ++ "?" ++ nextText ∧
      parse model setName nextText = .ok next ∧ SameButSkip next query ∧
      next.skip = .ok (some skip) := by
  obtain ⟨rfl, hraw, hset⟩ := parse_eq_ok.1 h
  obtain ⟨entries, hsettled, hentries⟩ := parse_settled hraw
  refine ⟨queryText (linkEntries skip entries),
    ⟨query.model, query.set, ofEntries (linkEntries skip entries)⟩, ?_, ?_, ⟨rfl, rfl, ?_⟩, ?_⟩
  · rw [Query.nextLink, hentries]
    exact nextLink_ofEntries entries path skip
  · exact parse_eq_ok.2
      ⟨rfl, parse_queryText (hsettled.linkEntries skip) (linkEntries_ne_nil skip entries), hset⟩
  · intro option hne
    rw [hentries, value?_ofEntries, value?_ofEntries, lookup_linkEntries hne]
  · have hread : readCount .skip (String.ofList (toString skip).toList) = .ok skip := by
      rw [readCount, String.toList_ofList, Number.trimChars_toString,
        Number.readUnsignedUpTo?_toString hskip]
    simp only [Query.skip, Query.option, value?_ofEntries, lookup_linkEntries_skip, Option.map_some,
      hread]
    rfl

end EntityQuery.Query
