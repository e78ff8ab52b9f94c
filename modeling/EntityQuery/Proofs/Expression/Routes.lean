import EntityQuery.Proofs.Expression.Conforming
import EntityQuery.Proofs.Filter.Paths

/-!
# Paths lead to values of their types

A path that was resolved is a route through the model: each property belongs to the type that the
one before leads to.  Along a route a conforming record leads to null or to a value of the type of
the last property, unless there is a collection on the way.  Reading stops at it, since its elements
have the next property and the collection has not.
-/

namespace EntityQuery

open EntityQuery.Filter

variable {model : Model} {key : TypeKey} {path text : String} {p : Property} {rest : List Property}
variable {r record : Record} {scope : Scope} {steps : PropertyPath} {root : Option String}

/-- A chain of properties through the model, beginning at a type. -/
inductive Route (model : Model) : TypeKey → List Property → Prop
  | last {key : TypeKey} {type : ComplexType} {p : Property}
      (htype : model.complexType? key = some type) (hp : p ∈ type.properties) : Route model key [p]
  | step {key next : TypeKey} {type : ComplexType} {p : Property} {rest : List Property}
      (htype : model.complexType? key = some type) (hp : p ∈ type.properties)
      (hnext : p.type.complexKey? = some next) (hrest : Route model next rest) :
      Route model key (p :: rest)

/-! ## Resolved paths -/

theorem Model.Follows.route {names : List String} {properties : List Property}
    (h : model.Follows key names properties) : Route model key properties := by
  induction h with
  | last htype hp => exact .last htype (Model.mem_of_property? hp).1
  | step htype hp _ hnext _ ih => exact .step htype (Model.mem_of_property? hp).1 hnext ih

theorem route_of_resolvePath (h : model.resolvePath key path = .ok steps) :
    Route model key steps.segments :=
  (Model.resolvePath_eq_ok_iff.1 h).2.route

/-- The type of the record that a path begins at. -/
def Filter.Scope.rootType? (scope : Scope) : Option String → Option TypeKey
  | none => some scope.type
  | some name => scope.parameter? name

theorem exists_route (h : resolvePath model scope text = .ok (steps, root)) :
    ∃ key, scope.rootType? root = some key ∧ Route model key steps.segments := by
  unfold resolvePath at h
  cases hsplit : splitHead text with
  | mk head tail =>
      rw [hsplit] at h
      dsimp only at h
      split at h
      · obtain ⟨resolved, hresolved, h⟩ := bind_eq_ok.1 h
        obtain ⟨rfl, rfl⟩ := Prod.mk.inj (pure_eq_ok.1 h)
        exact ⟨scope.type, rfl, route_of_resolvePath hresolved⟩
      · cases h
      · rename_i element _ hparameter
        obtain ⟨resolved, hresolved, h⟩ := bind_eq_ok.1 h
        obtain ⟨rfl, rfl⟩ := Prod.mk.inj (pure_eq_ok.1 h)
        exact ⟨element, hparameter, route_of_resolvePath hresolved⟩

/-! ## Walking along a route -/

/-- The type of the property that a chain ends with. -/
def endType (p : Property) (rest : List Property) : EdmType := (rest.getLast?.getD p).type

/-- A conforming record leads along a route to what fits the type of the last property, or to a
collection before it. -/
theorem walk_fits_or_stops (hroute : Route model key (p :: rest)) (hrecord : Conforms model key r) :
    (∃ v, Expression.walk path (r.field p.name) rest = .ok v ∧
      Fits model (some (endType p rest)) v) ∨
    ∃ before q after items, rest = before ++ q :: after ∧
      (endType p before).isCollection = true ∧
      (∀ text, Expression.walk text (r.field p.name) before = .ok (.collection items)) ∧
      Expression.walk path (r.field p.name) rest
        = .error (.cannotRead q.name (.collection items) path) := by
  induction rest generalizing key p r with
  | nil =>
      have hfield : r.field p.name = .null ∨ HasType model p.type (r.field p.name) := by
        cases hroute with
        | last htype hp => exact hrecord _ htype p hp
        | step htype hp => exact hrecord _ htype p hp
      refine .inl ⟨r.field p.name, rfl, ?_⟩
      rcases hfield with hnull | htype
      · exact .inl hnull
      · exact htype.fits
  | cons q rest ih =>
      cases hroute with
      | step htype hp hnext hrest =>
          rename_i next type
          rcases hrecord type htype p hp with hnull | hfield
          · -- Null on the way makes the whole path null.
            rw [hnull]
            exact .inl ⟨.null, rfl, fits_null _⟩
          -- There is a way on from here, by a record or by the elements of a collection.
          rcases EdmType.complexKey?_eq_some_iff.1 hnext with hcomplex | hcollection
          · rw [hcomplex] at hfield
            obtain ⟨inner, hinner, hconforms⟩ := hfield.exists_record
            have hend (more : List Property) : endType p (q :: more) = endType q more := by
              rw [endType, endType, List.getLast?_cons, Option.getD_some]
            rw [hinner, hend]
            rcases ih hrest hconforms with hvalue | ⟨before, s, after, items, rfl, hstop⟩
            · exact .inl hvalue
            · exact .inr ⟨q :: before, s, after, items, rfl, by rw [hend]; exact hstop⟩
          · rw [hcollection] at hfield
            obtain ⟨items, hitems, -⟩ := hfield.exists_collection
            rw [hitems]
            refine .inr ⟨[], q, rest, items, rfl, ?_, fun _ => rfl, rfl⟩
            rw [endType, List.getLast?_nil, Option.getD_none, hcollection]
            rfl

/-- What reading a path comes to: null or a value of the type of the last property, or an error at a
collection that the front of the path leads to. -/
inductive Reading (model : Model) (steps : PropertyPath)
    (read : PropertyPath → Except EvalError Value) : Prop
  | value {v : Value} (hread : read steps = .ok v)
      (hfits : Fits model (some steps.terminal.type) v) : Reading model steps read
  | stopped {front : PropertyPath} {next : Property} {after : List Property} {items : List Value}
      (hsteps : steps.segments = front.segments ++ next :: after)
      (hcollection : front.terminal.type.isCollection = true)
      (hfront : read front = .ok (.collection items))
      (hread : read steps = .error (.cannotRead next.name (.collection items) steps.text)) :
      Reading model steps read

/-- Reading is not stopped where there are no collections on the way. -/
theorem Reading.fits {read : PropertyPath → Except EvalError Value} (h : Reading model steps read)
    (hsteps : ∀ q ∈ steps.segments.dropLast, q.type.isCollection = false) :
    ∃ v, read steps = .ok v ∧ Fits model (some steps.terminal.type) v := by
  cases h with
  | value hread hfits => exact ⟨_, hread, hfits⟩
  | @stopped front next after items hsegments hcollection =>
      have hmem : front.terminal ∈ steps.segments.dropLast := by
        rw [hsegments, List.dropLast_append_cons]
        exact List.mem_append_left _ front.terminal_mem_segments
      rw [hsteps _ hmem] at hcollection
      cases hcollection

theorem reading_of_route (hroute : Route model key steps.segments)
    (hrecord : Conforms model key r) :
    Reading model steps fun path => Expression.readPath path r := by
  obtain ⟨first, rest⟩ := steps
  rcases walk_fits_or_stops hroute hrecord with
    ⟨v, hread, hfits⟩ | ⟨before, q, after, items, rfl, hend, hfront, hread⟩
  · exact .value hread hfits
  · have hsegments : (PropertyPath.mk first (before ++ q :: after)).segments
        = (PropertyPath.mk first before).segments ++ q :: after := rfl
    exact .stopped hsegments hend (hfront _) hread

end EntityQuery
