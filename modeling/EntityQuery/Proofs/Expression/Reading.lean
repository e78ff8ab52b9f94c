import EntityQuery.Options.OrderBy
import EntityQuery.Proofs.Expression.Soundness

/-!
# Reading the paths of a query

A path is accepted as an operand of a filter or as a key of an order.  Every property but the last
has to be navigable, which it also is as a collection of records of an entity set.  So there are
accepted paths on which reading stops at a collection, whatever is in it.  Nothing else is in the
way of reading.
-/

namespace EntityQuery

open EntityQuery.Filter

variable {model : Model} {scope : Scope} {record : Record} {bindings : Bindings}
  {steps : PropertyPath} {root : Option String}

/-- A path that a query may hold, and the parameter it begins at. -/
inductive Accepted (model : Model) (scope : Scope) : PropertyPath → Option String → Prop
  | operand {text : String} {steps : PropertyPath} {root : Option String}
      (h : resolvePath model scope text = .ok (steps, root)) : Accepted model scope steps root
  | orderKey {value : String} {keys : List OrderKey} {key : OrderKey}
      (h : parseOrderBy model scope.type value = .ok keys) (hkey : key ∈ keys) :
      Accepted model scope key.path none

/-- A key of an order was resolved as a path. -/
theorem resolvePath_of_parseOrderBy {type : TypeKey} {value : String} {keys : List OrderKey}
    {key : OrderKey} (h : parseOrderBy model type value = .ok keys) (hkey : key ∈ keys) :
    ∃ text, model.resolvePath type text = .ok key.path := by
  obtain ⟨item, -, hitem⟩ := exists_of_mem_mapM h hkey
  unfold OrderKey.parseItem at hitem
  split at hitem
  · cases hitem
  · obtain ⟨direction, -, hitem⟩ := bind_eq_ok.1 hitem
    split at hitem
    · cases hitem
    · obtain ⟨resolved, hresolved, hitem⟩ := bind_eq_ok.1 hitem
      obtain ⟨-, hitem⟩ := guard_eq_ok.1 hitem
      obtain rfl := pure_eq_ok.1 hitem
      exact ⟨_, hresolved⟩

theorem Accepted.exists_route (h : Accepted model scope steps root) :
    ∃ key, scope.rootType? root = some key ∧ Route model key steps.segments := by
  cases h with
  | operand h => exact EntityQuery.exists_route h
  | orderKey h hkey =>
      obtain ⟨text, hresolve⟩ := resolvePath_of_parseOrderBy h hkey
      exact ⟨scope.type, rfl, route_of_resolvePath hresolve⟩

/-- An accepted path of a conforming record is read, or reading stops at a collection on the way. -/
theorem reading_of_accepted (h : Accepted model scope steps root)
    (hrecord : Conforms model scope.type record)
    (hbound : Expression.Bound model scope bindings) :
    Reading model steps fun path => Expression.evaluate record bindings (.path path root) := by
  obtain ⟨key, hroot, hroute⟩ := h.exists_route
  obtain ⟨r, hr, hconforms⟩ := Expression.exists_root hbound hrecord hroot
  have hread : (fun path => Expression.evaluate record bindings (.path path root))
      = fun path => Expression.readPath path r := by
    funext path
    rw [Expression.evaluate, hr]
    rfl
  rw [hread]
  exact reading_of_route hroute hconforms

/-- Accepted paths can be read up to the first collection, and to the end if there is none before
it. -/
theorem evaluate_accepted (h : Accepted model scope steps root)
    (hrecord : Conforms model scope.type record)
    (hbound : Expression.Bound model scope bindings) :
    Reading model steps (fun path => Expression.evaluate record bindings (.path path root)) ∧
      ((∀ q ∈ steps.segments.dropLast, q.type.isCollection = false) →
        ∃ v, Expression.evaluate record bindings (.path steps root) = .ok v ∧
          Fits model (some steps.terminal.type) v) := by
  have hreading := reading_of_accepted h hrecord hbound
  exact ⟨hreading, hreading.fits⟩

namespace Sample

/-- `Kids/Id` -/
def kidsId : PropertyPath := ⟨kidsProperty, [idProperty]⟩

theorem leaf_conforms : Conforms treeModel nodeKey leaf := by
  intro type htype p hp
  obtain rfl : nodeType = type := Option.some.inj htype
  rcases List.mem_pair.1 hp with rfl | rfl
  · exact .inr (.primitive rfl)
  · exact .inr (.collection (by simp))

def rivalProperty : Property := ⟨"Rival", animalKey, .complex dogKey, true, true⟩

def ageProperty : Property := ⟨"Age", dogKey, .primitive .int32, false, false⟩

def animalType : ComplexType := ⟨animalKey, "Sample", "Animal", none, [rivalProperty]⟩

def dogType : ComplexType :=
  ⟨dogKey, "Sample", "Dog", some animalKey, [ageProperty, rivalProperty]⟩

/-- The rival of an animal is a dog, and dogs are behind an entity set. -/
def pedigreeModel : Model :=
  ⟨[⟨"Dogs", dogKey, none, .none⟩], [animalType, dogType], [],
    [("Sample.Animal", animalKey), ("Sample.Dog", dogKey)]⟩

/-- `Rival/Age` -/
def rivalAge : PropertyPath := ⟨rivalProperty, [ageProperty]⟩

/-- A dog without a rival. -/
def dog : Record := .ofFields 0 dogKey "dog" [("Age", .int32 3), ("Rival", .null)]

/-- An animal whose rival is the dog, and one without a rival. -/
def cat : Record := .ofFields 1 animalKey "cat" [("Rival", .record dog)]

def stray : Record := .ofFields 2 animalKey "stray" [("Rival", .null)]

theorem dog_conforms : Conforms pedigreeModel dogKey dog := by
  intro type htype p hp
  obtain rfl : dogType = type := Option.some.inj htype
  rcases List.mem_pair.1 hp with rfl | rfl
  · exact .inr (.primitive rfl)
  · exact .inl rfl

theorem cat_conforms : Conforms pedigreeModel animalKey cat := by
  intro type htype p hp
  obtain rfl : animalType = type := Option.some.inj htype
  obtain rfl := List.mem_singleton.1 hp
  exact .inr (hasType_record_iff.2 dog_conforms)

theorem stray_conforms : Conforms pedigreeModel animalKey stray := by
  intro type htype p hp
  obtain rfl : animalType = type := Option.some.inj htype
  obtain rfl := List.mem_singleton.1 hp
  exact .inl rfl

end Sample

open Sample

/-- The age of the rival of an animal is read, and there is none if it has no rival. -/
theorem evaluate_accepted_sample :
    resolvePath pedigreeModel ⟨animalKey, []⟩ "Rival/Age" = .ok (rivalAge, none) ∧
      (∃ v, Expression.evaluate cat [] (.path rivalAge none) = .ok v ∧
        Fits pedigreeModel (some (.primitive .int32)) v ∧ v = .int32 3) ∧
      ∃ v, Expression.evaluate stray [] (.path rivalAge none) = .ok v ∧
        Fits pedigreeModel (some (.primitive .int32)) v ∧ v = .null := by
  have hresolve : resolvePath pedigreeModel ⟨animalKey, []⟩ "Rival/Age" = .ok (rivalAge, none) :=
    rfl
  have hbound : Expression.Bound pedigreeModel ⟨animalKey, []⟩ [] := by
    intro name key hname
    cases hname
  -- The only property on the way to the last one is a record.
  have hsteps : ∀ q ∈ rivalAge.segments.dropLast, q.type.isCollection = false := by
    intro q hq
    obtain rfl := List.mem_singleton.1 hq
    rfl
  refine ⟨hresolve, ?_, ?_⟩
  · obtain ⟨-, hfits⟩ := evaluate_accepted (.operand hresolve) cat_conforms hbound
    obtain ⟨v, hread, hv⟩ := hfits hsteps
    exact ⟨v, hread, hv, (Except.ok.inj hread).symm⟩
  · obtain ⟨-, hfits⟩ := evaluate_accepted (.operand hresolve) stray_conforms hbound
    obtain ⟨v, hread, hv⟩ := hfits hsteps
    exact ⟨v, hread, hv, (Except.ok.inj hread).symm⟩

/-- The numbers of the nodes below a node are not read, although a filter and an order may hold the
path. -/
theorem evaluate_kidsId :
    ModelBuilder.empty.register treeGraph "Nodes" (.named nodeKey) (some "Id") .none
        = (.ok (), treeBuilder) ∧
      treeBuilder.build = .ok treeModel ∧
      resolvePath treeModel ⟨nodeKey, []⟩ "Kids/Id" = .ok (kidsId, none) ∧
      parseOrderBy treeModel nodeKey "Kids/Id" = .ok [⟨kidsId, .ascending⟩] ∧
      Conforms treeModel nodeKey leaf ∧
      Expression.evaluate leaf [] (.path kidsId none)
        = .error (.cannotRead "Id" (.collection []) "Kids/Id") :=
  ⟨register_tree, build_tree, rfl, rfl, leaf_conforms, rfl⟩

end EntityQuery
