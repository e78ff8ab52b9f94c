import EntityQuery.Proofs.Schema.Resolution
import EntityQuery.Schema.Builder

/-!
# The types that a record extends

A record type is collected after the one it extends, so that the chain of types from a record up to
the last that it extends comes to an end and lies within what has been collected.  It is then as
long as there are types at most, which is how far the builder looks.

A record that is entered twice in one go extends the same type both times, namely the one that its
shape names.  That is what keeps the chain from running into itself.
-/

namespace EntityQuery

/-- The type that a record extends by its shape. -/
def HostGraph.base? (graph : HostGraph) (key : TypeKey) : Option TypeKey :=
  match graph.shape key with
  | .record shape => shape.base.bind graph.key?
  | .enumeration _ | .plain _ => none

/-- No type is its own ancestor. -/
def HostGraph.Acyclic (graph : HostGraph) : Prop :=
  ∀ key, ¬Relation.TransGen (fun key parent => graph.base? key = some parent) key key

namespace Resolver

variable {graph : HostGraph} {r r' : Resolver} {key k b : TypeKey} {draft : RecordDraft}
  {chain other : List (TypeKey × RecordDraft)}

/-- The record types from one up to the last that it extends. -/
inductive Ancestry (r : Resolver) : TypeKey → List (TypeKey × RecordDraft) → Prop
  | last {key : TypeKey} {draft : RecordDraft} (h : r.record? key = some draft)
      (hbase : draft.base = none) : Ancestry r key [(key, draft)]
  | step {key base : TypeKey} {draft : RecordDraft} {rest : List (TypeKey × RecordDraft)}
      (h : r.record? key = some draft) (hbase : draft.base = some base)
      (hrest : Ancestry r base rest) : Ancestry r key ((key, draft) :: rest)

/-- Every collected record has an end to the types it extends. -/
def Grounded (r : Resolver) : Prop :=
  ∀ key, (r.record? key).isSome = true → ∃ chain, Ancestry r key chain

namespace Ancestry

theorem unique (h : Ancestry r key chain) (h' : Ancestry r key other) : chain = other := by
  induction h generalizing other with
  | last hkey hbase =>
      cases h' with
      | last hkey' => rw [Option.some.inj (hkey.symm.trans hkey')]
      | step hkey' hbase' =>
          obtain rfl := Option.some.inj (hkey.symm.trans hkey')
          rw [hbase] at hbase'
          cases hbase'
  | step hkey hbase _ ih =>
      cases h' with
      | last hkey' hbase' =>
          obtain rfl := Option.some.inj (hkey.symm.trans hkey')
          rw [hbase] at hbase'
          cases hbase'
      | step hkey' hbase' hrest' =>
          obtain rfl := Option.some.inj (hkey.symm.trans hkey')
          obtain rfl := Option.some.inj (hbase.symm.trans hbase')
          rw [ih hrest']

/-- The chain of a type in a chain is an end of it. -/
theorem of_mem (h : Ancestry r key chain) (hk : k ∈ chain.map Prod.fst) :
    ∃ rest, Ancestry r k rest ∧ rest <:+ chain := by
  induction h with
  | last hkey hbase =>
      obtain rfl := List.mem_singleton.1 hk
      exact ⟨_, .last hkey hbase, List.suffix_rfl⟩
  | step hkey hbase hrest ih =>
      rcases List.mem_cons.1 hk with rfl | hk
      · exact ⟨_, .step hkey hbase hrest, List.suffix_rfl⟩
      · obtain ⟨rest, hrest, hsuffix⟩ := ih hk
        exact ⟨rest, hrest, hsuffix.trans (List.suffix_cons _ _)⟩

/-- A chain does not come back to the type it begins at. -/
theorem not_mem_rest {rest : List (TypeKey × RecordDraft)}
    (h : Ancestry r key ((key, draft) :: rest)) (hrest : Ancestry r b rest) :
    key ∉ rest.map Prod.fst := by
  intro hmem
  obtain ⟨again, hagain, hsuffix⟩ := hrest.of_mem hmem
  have hle := hsuffix.length_le
  rw [hagain.unique h, List.length_cons] at hle
  omega

theorem nodup (h : Ancestry r key chain) : (chain.map Prod.fst).Nodup := by
  induction h with
  | last => simp
  | step hkey hbase hrest ih =>
      exact List.nodup_cons.2 ⟨(Ancestry.step hkey hbase hrest).not_mem_rest hrest, ih⟩

theorem record?_of_mem (h : Ancestry r key chain) (hk : k ∈ chain.map Prod.fst) :
    (r.record? k).isSome = true := by
  obtain ⟨rest, hrest, -⟩ := h.of_mem hk
  cases hrest with
  | last hkey => rw [hkey]; rfl
  | step hkey => rw [hkey]; rfl

/-- A chain is no longer than the list of records. -/
theorem length_le (h : Ancestry r key chain) : chain.length ≤ r.records.length := by
  have hsub : chain.map Prod.fst ⊆ r.records.map Prod.fst := by
    intro k hk
    have hrecord := h.record?_of_mem hk
    by_cases hmem : k ∈ r.records.map Prod.fst
    · exact hmem
    · have hnone : r.record? k = none := by
        refine List.lookup_eq_none_iff.2 fun entry hentry => bne_iff_ne.2 ?_
        rintro rfl
        exact hmem (List.mem_map_of_mem hentry)
      rw [hnone] at hrecord
      cases hrecord
  simpa using h.nodup.length_le_of_subset hsub

/-- A chain depends on the records in it alone. -/
theorem congr (h : Ancestry r key chain)
    (hsame : ∀ k ∈ chain.map Prod.fst, r'.record? k = r.record? k) : Ancestry r' key chain := by
  induction h with
  | last hkey hbase => exact .last ((hsame _ (by simp)).trans hkey) hbase
  | step hkey hbase _ ih =>
      exact .step ((hsame _ (by simp)).trans hkey) hbase
        (ih fun k hk => hsame k (List.mem_cons_of_mem _ hk))

theorem mono (h : Ancestry r key chain) (hextends : Extends r r') : Ancestry r' key chain := by
  refine h.congr fun k hk => hextends.record?_of_known fun hnone => ?_
  have hrecord := h.record?_of_mem hk
  rw [(known?_eq_none_iff.1 hnone).1] at hrecord
  cases hrecord

end Ancestry

/-! ## Resolving keeps chains finite -/

theorem Grounded.congr (h : Grounded r) (hsame : ∀ k, r'.record? k = r.record? k) :
    Grounded r' := by
  intro key hkey
  rw [hsame] at hkey
  obtain ⟨chain, hchain⟩ := h key hkey
  exact ⟨chain, hchain.congr fun k _ => hsame k⟩

/-- Entering a record, or entering it again with the same base, keeps chains finite. -/
theorem Grounded.putRecord (h : Grounded r)
    (hknown : ∀ b, draft.base = some b → (r.record? b).isSome = true)
    (hsame : ∀ old, r.record? key = some old → old.base = draft.base) :
    Grounded (r.putRecord key draft) := by
  have hput : (r.putRecord key draft).record? key = some draft := by
    rw [record?_putRecord, if_pos rfl]
  have hother {k : TypeKey} (hne : k ≠ key) : (r.putRecord key draft).record? k = r.record? k := by
    rw [record?_putRecord, if_neg hne]
  -- The chain of the base does not lead back to the record.
  have hkey : ∃ chain, Ancestry (r.putRecord key draft) key chain := by
    cases hbase : draft.base with
    | none => exact ⟨_, .last hput hbase⟩
    | some b =>
        obtain ⟨chain, hchain⟩ := h b (hknown b hbase)
        have hnot : key ∉ chain.map Prod.fst := by
          intro hmem
          obtain ⟨old, hold⟩ := Option.isSome_iff_exists.1 (hchain.record?_of_mem hmem)
          have hwhole : Ancestry r key ((key, old) :: chain) :=
            .step hold ((hsame old hold).trans hbase) hchain
          exact hwhole.not_mem_rest hchain hmem
        refine ⟨_, .step hput hbase (hchain.congr fun k hk => hother ?_)⟩
        rintro rfl
        exact hnot hk
  intro k hk
  by_cases heq : k = key
  · rwa [heq]
  · rw [hother heq] at hk
    obtain ⟨chain, hchain⟩ := h k hk
    clear hk heq
    -- A chain runs as before until it meets the record.
    induction hchain with
    | @last k draft hrecord hbase =>
        by_cases heq : k = key
        · rwa [heq]
        · exact ⟨_, .last ((hother heq).trans hrecord) hbase⟩
    | @step k b draft rest hrecord hbase _ ih =>
        by_cases heq : k = key
        · rwa [heq]
        · obtain ⟨chain, hchain⟩ := ih
          exact ⟨_, .step ((hother heq).trans hrecord) hbase hchain⟩

/-- A record that has come to the others extends the type that its shape names. -/
def FollowsShapes (graph : HostGraph) (r r' : Resolver) : Prop :=
  ∀ key draft, r.known? key = none → r'.record? key = some draft → draft.base = graph.base? key

theorem base?_of_record {shape : RecordShape} (hshape : graph.shape key = .record shape) :
    graph.base? key = shape.base.bind graph.key? := by
  rw [HostGraph.base?, hshape]

theorem followsShapes_putRecord (h : FollowsShapes graph r r')
    (hbase : draft.base = graph.base? key) :
    FollowsShapes graph r (r'.putRecord key draft) := by
  intro k old hnew hold
  rw [record?_putRecord] at hold
  split at hold
  · rename_i heq
    rw [heq, ← Option.some.inj hold, hbase]
  · exact h k old hnew hold

theorem Steps.grounded (h : Steps graph (fun key => r.known? key = none) r r') (hr : Grounded r) :
    Grounded r' ∧ FollowsShapes graph r r' := by
  induction h with
  | refl =>
      refine ⟨hr, fun key draft hnew hdraft => ?_⟩
      rw [(known?_eq_none_iff.1 hnew).1] at hdraft
      cases hdraft
  | @tail r₁ r₂ hsteps hstep ih =>
      obtain ⟨hground, hfollows⟩ := ih
      have hrecords {named : Resolver} (hsame : named.records = r₁.records) (k : TypeKey) :
          named.record? k = r₁.record? k := by rw [record?, hsame, record?]
      cases hstep with
      | @enumeration named key shape hshape hwritable hclaim =>
          have hsame : ∀ k, (named.putEnum (shape.toEnumType key)).record? k = r₁.record? k :=
            hrecords (claim_eq_ok hclaim).1
          refine ⟨hground.congr hsame, fun k draft hnew hdraft => ?_⟩
          rw [hsame] at hdraft
          exact hfollows k draft hnew hdraft
      | @enter named key shape base hshape hwritable hbase hknown hclaim =>
          have hsame : ∀ k, named.record? k = r₁.record? k := hrecords (claim_eq_ok hclaim).1
          have hparent : base = graph.base? key := hbase.trans (base?_of_record hshape).symm
          have hnamed : FollowsShapes graph r named := fun k draft hnew hdraft =>
            hfollows k draft hnew (hsame k ▸ hdraft)
          refine ⟨(hground.congr hsame).putRecord (fun b hb => ?_) fun old hold => ?_,
            followsShapes_putRecord hnamed hparent⟩
          · rw [hsame]
            exact hknown b hb
          · exact (hnamed key old hwritable hold).trans hparent.symm
      | @complete key shape base properties hshape hwritable hbase hknown =>
          have hparent : base = graph.base? key := hbase.trans (base?_of_record hshape).symm
          exact ⟨hground.putRecord hknown fun old hold =>
              (hfollows key old hwritable hold).trans hparent.symm,
            followsShapes_putRecord hfollows hparent⟩

end Resolver

end EntityQuery
