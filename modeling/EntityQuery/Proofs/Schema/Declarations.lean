import EntityQuery.Schema.EdmType
import EntityQuery.Schema.HostType
import Mathlib.Data.Finset.Card
import Mathlib.Logic.Relation

/-!
# What declarations stand for

The shapes say which type of the model a declaration stands for (`HostGraph.edmType?`).  A record or
an enum type stands for itself.  Any other named type is what its shape declares, which may be made
of another named type, and so on.  A type that wraps itself on this way stands for nothing.

A type has a way on which it is not wrapped by itself only if the way is no longer than there are
described types.  So following it that far is enough to decide what a type stands for
(`namedType?_plain`).
-/

namespace EntityQuery

/-- The named type in a declaration, bare or wrapped. -/
def HostType.named? : HostType → Option TypeKey
  | .named key => some key
  | .optional inner => inner.named?
  | .sequence element => element.named?
  | .primitive _ | .generic _ _ _ => none

/-- The model type of a declaration, given those of named types. -/
def HostType.edmType? (named : TypeKey → Option EdmType) : HostType → Option EdmType
  | .primitive kind => some (.primitive kind)
  | .named key => named key
  | .optional inner => inner.edmType? named
  | .sequence element => (element.edmType? named).bind fun type => some (.collection type)
  | .generic _ _ _ => none

/-- The record or enum type that a type is. -/
def EdmType.key? : EdmType → Option TypeKey
  | .complex key | .enumeration key => some key
  | .primitive _ | .collection _ => none

namespace HostType

variable {named other : TypeKey → Option EdmType} {type : HostType} {k : TypeKey}

theorem edmType?_congr (h : ∀ k, type.named? = some k → named k = other k) :
    type.edmType? named = type.edmType? other := by
  induction type with
  | primitive | generic => rfl
  | named key => exact h key rfl
  | optional inner ih => exact ih h
  | sequence element ih => rw [edmType?, edmType?, ih h]

theorem edmType?_eq_none (hk : type.named? = some k) (hnone : named k = none) :
    type.edmType? named = none := by
  induction type with
  | primitive | generic => cases hk
  | named key =>
      obtain rfl := Option.some.inj hk
      exact hnone
  | optional inner ih => exact ih hk
  | sequence element ih => rw [edmType?, ih hk, Option.bind_none]

/-- A declaration that stands for a record wraps a type that stands for it. -/
theorem exists_of_edmType?_complex {parent : TypeKey}
    (h : type.edmType? named = some (.complex parent)) :
    ∃ k, type.named? = some k ∧ named k = some (.complex parent) := by
  induction type with
  | primitive | generic => cases h
  | named key => exact ⟨key, rfl, h⟩
  | optional inner ih => exact ih h
  | sequence element ih =>
      obtain ⟨type, -, htype⟩ := Option.bind_eq_some_iff.1 h
      cases htype

end HostType

namespace HostGraph

variable {graph : HostGraph} {key k : TypeKey} {plain : PlainShape}

/-- The declarations that make up a named type. -/
def declarations (graph : HostGraph) (key : TypeKey) : List HostType :=
  match graph.shape key with
  | .record shape => shape.base.toList ++ shape.fields.map FieldShape.type
  | .enumeration _ => []
  | .plain plain => [plain.type key]

/-- A named type is made up with another one: as its base, in a field, or as what it wraps. -/
def Refers (graph : HostGraph) (key k : TypeKey) : Prop :=
  ∃ type ∈ graph.declarations key, type.named? = some k

/-- A type can be reached from a declaration. -/
def Reaches (graph : HostGraph) (type : HostType) (key : TypeKey) : Prop :=
  ∃ start, type.named? = some start ∧ Relation.ReflTransGen graph.Refers start key

/-- Types of a set are made up with types of the set only. -/
def Encloses (graph : HostGraph) (within : TypeKey → Prop) : Prop :=
  ∀ key k, within key → graph.Refers key k → within k

/-- A type that is neither a record nor an enum type is made of another type. -/
def Wraps (graph : HostGraph) (key k : TypeKey) : Prop :=
  ∃ plain, graph.shape key = .plain plain ∧ (plain.type key).named? = some k

/-- The model type of a named type, if it is found on the way through at most `depth` types. -/
def namedTypeWithin (graph : HostGraph) : Nat → TypeKey → Option EdmType
  | 0, _ => none
  | depth + 1, key =>
    match graph.shape key with
    | .record _ => some (.complex key)
    | .enumeration _ => some (.enumeration key)
    | .plain plain => (plain.type key).edmType? (graph.namedTypeWithin depth)

/-- The model type of a named type, if it has one. -/
def namedType? (graph : HostGraph) (key : TypeKey) : Option EdmType :=
  graph.namedTypeWithin (graph.size + 1) key

/-- The model type of a declaration, if it has one. -/
def edmType? (graph : HostGraph) (type : HostType) : Option EdmType :=
  type.edmType? graph.namedType?

/-- The record or enum type that a declaration stands for, if it is no collection. -/
def key? (graph : HostGraph) (type : HostType) : Option TypeKey :=
  (graph.edmType? type).bind EdmType.key?

theorem refers_of_wraps (h : graph.Wraps key k) : graph.Refers key k := by
  obtain ⟨plain, hshape, hk⟩ := h
  exact ⟨plain.type key, by simp [declarations, hshape], hk⟩

theorem refers_of_base {shape : RecordShape} {base : HostType}
    (hshape : graph.shape key = .record shape) (hbase : shape.base = some base)
    (hk : base.named? = some k) : graph.Refers key k :=
  ⟨base, by simp [declarations, hshape, hbase], hk⟩

theorem refers_of_field {shape : RecordShape} {field : FieldShape}
    (hshape : graph.shape key = .record shape) (hfield : field ∈ shape.fields)
    (hk : field.type.named? = some k) : graph.Refers key k := by
  refine ⟨field.type, ?_, hk⟩
  rw [declarations, hshape]
  exact List.mem_append_right _ (List.mem_map_of_mem hfield)

/-! ## Ways through a graph -/

/-- The types that are described. -/
def keys (graph : HostGraph) : Finset TypeKey := (graph.entries.map Prod.fst).toFinset

theorem card_keys_le (graph : HostGraph) : graph.keys.card ≤ graph.size :=
  (List.toFinset_card_le _).trans (List.length_map _).le

/-- A type that is not described is a record that extends nothing and has no fields. -/
theorem mem_keys (h : graph.shape key ≠ .record ⟨"", key.path, none, []⟩) : key ∈ graph.keys := by
  by_contra hkey
  have hnone : graph.entries.lookup key = none := by
    refine List.lookup_eq_none_iff.2 fun entry hentry => bne_iff_ne.2 ?_
    rintro rfl
    exact hkey (List.mem_toFinset.2 (List.mem_map_of_mem hentry))
  exact h (by rw [HostGraph.shape, hnone]; rfl)

section Ways

variable {step : TypeKey → TypeKey → Prop}

open Classical in
/-- The described types that a type leads to. -/
noncomputable def reached (graph : HostGraph) (step : TypeKey → TypeKey → Prop) (key : TypeKey) :
    Finset TypeKey := graph.keys.filter fun k => Relation.ReflTransGen step key k

theorem mem_reached :
    k ∈ graph.reached step key ↔ k ∈ graph.keys ∧ Relation.ReflTransGen step key k := by
  simp only [reached, Finset.mem_filter]

theorem card_reached_le (graph : HostGraph) (step : TypeKey → TypeKey → Prop) (key : TypeKey) :
    (graph.reached step key).card ≤ graph.size :=
  (Finset.card_le_card fun _ hk => (mem_reached.1 hk).1).trans graph.card_keys_le

/-- A step from a type that does not lead back to itself leaves fewer types to be reached. -/
theorem card_reached_lt (hkey : key ∈ graph.keys) (hstep : step key k)
    (hcycle : ¬Relation.TransGen step key key) :
    (graph.reached step k).card < (graph.reached step key).card := by
  apply Finset.card_lt_card
  refine Finset.ssubset_iff_of_subset (fun next hnext => ?_) |>.2 ⟨key, ?_, fun hmem => ?_⟩
  · obtain ⟨hdescribed, hway⟩ := mem_reached.1 hnext
    exact mem_reached.2 ⟨hdescribed, hway.head hstep⟩
  · exact mem_reached.2 ⟨hkey, .refl⟩
  · exact hcycle (.head' hstep (mem_reached.1 hmem).2)

/-- After a step from a type that leads back to itself, one is at another such type. -/
theorem exists_step_of_cycle (h : Relation.TransGen step key key) :
    ∃ k, step key k ∧ Relation.TransGen step k k := by
  obtain ⟨k, hstep, hback⟩ := Relation.TransGen.head'_iff.1 h
  exact ⟨k, hstep, .tail' hback hstep⟩

end Ways

/-! ## The types that named types stand for -/

theorem mem_keys_of_plain (hshape : graph.shape key = .plain plain) : key ∈ graph.keys :=
  mem_keys (by simp [hshape])

theorem namedTypeWithin_eq_none (h : Relation.TransGen graph.Wraps key key) (depth : Nat) :
    graph.namedTypeWithin depth key = none := by
  induction depth generalizing key with
  | zero => rfl
  | succ depth ih =>
      obtain ⟨k, ⟨plain, hshape, hk⟩, hcycle⟩ := exists_step_of_cycle h
      rw [namedTypeWithin, hshape]
      exact HostType.edmType?_eq_none hk (ih hcycle)

/-- Depths beyond the length of the way make no difference. -/
theorem namedTypeWithin_congr {depth larger : Nat}
    (hdepth : (graph.reached graph.Wraps key).card < depth)
    (hlarger : (graph.reached graph.Wraps key).card < larger) :
    graph.namedTypeWithin depth key = graph.namedTypeWithin larger key := by
  induction depth generalizing larger key with
  | zero => exact absurd hdepth (Nat.not_lt_zero _)
  | succ depth ih =>
      by_cases hcycle : Relation.TransGen graph.Wraps key key
      · rw [namedTypeWithin_eq_none hcycle, namedTypeWithin_eq_none hcycle]
      · obtain ⟨larger, rfl⟩ := Nat.exists_eq_succ_of_ne_zero (Nat.ne_zero_of_lt hlarger)
        rw [namedTypeWithin, namedTypeWithin]
        cases hshape : graph.shape key with
        | record | enumeration => rfl
        | plain plain =>
            refine HostType.edmType?_congr fun k hk => ?_
            have hless := card_reached_lt (mem_keys_of_plain hshape) ⟨plain, hshape, hk⟩ hcycle
            exact ih (by omega) (by omega)

theorem namedType?_record {shape : RecordShape} (hshape : graph.shape key = .record shape) :
    graph.namedType? key = some (.complex key) := by
  rw [namedType?, namedTypeWithin, hshape]

theorem namedType?_enumeration {shape : EnumShape} (hshape : graph.shape key = .enumeration shape) :
    graph.namedType? key = some (.enumeration key) := by
  rw [namedType?, namedTypeWithin, hshape]

/-- A type that is neither a record nor an enum type stands for what its shape declares. -/
theorem namedType?_plain (hshape : graph.shape key = .plain plain) :
    graph.namedType? key = graph.edmType? (plain.type key) := by
  have hcard := Nat.lt_succ_of_le (graph.card_reached_le graph.Wraps key)
  rw [namedType?, namedTypeWithin_congr hcard (hcard.trans (Nat.lt_succ_self _)), namedTypeWithin,
    hshape]
  rfl

theorem key?_record {shape : RecordShape} (hshape : graph.shape key = .record shape) :
    graph.key? (.named key) = some key :=
  (congrArg (Option.bind · EdmType.key?) (namedType?_record hshape)).trans rfl

theorem key?_enumeration {shape : EnumShape} (hshape : graph.shape key = .enumeration shape) :
    graph.key? (.named key) = some key :=
  (congrArg (Option.bind · EdmType.key?) (namedType?_enumeration hshape)).trans rfl

theorem key?_plain (hshape : graph.shape key = .plain plain) :
    graph.key? (.named key) = graph.key? (plain.type key) :=
  congrArg (Option.bind · EdmType.key?) (namedType?_plain hshape)

/-- A declaration with a counterpart is made of a type that has one. -/
theorem namedType?_ne_none {type : HostType} (h : graph.edmType? type ≠ none)
    (hk : type.named? = some k) : graph.namedType? k ≠ none :=
  fun hnone => h (HostType.edmType?_eq_none hk hnone)

end HostGraph

end EntityQuery
