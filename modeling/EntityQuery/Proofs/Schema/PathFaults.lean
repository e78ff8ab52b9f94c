import EntityQuery.Proofs.Sample
import EntityQuery.Proofs.Schema.PathResolution
import EntityQuery.Proofs.Schema.PropertyOrder

/-!
# Where a path goes wrong

A path that cannot be resolved is reported for its first segment at fault, seen from the left.  The
segments before it are in order and have led to a type (`Model.Leads`); what is wrong with it there
is one of three things (`Model.Fault`).  In a finished model there is no fourth one, since every
navigable property leads to a type of the model.
-/

namespace EntityQuery

namespace Model

variable {model : Model} {key : TypeKey} {path name : String} {names before after : List String}
  {type : ComplexType} {e : QueryError}

/-! ## What may be wrong -/

/-- Segments that can be followed from one type to another. -/
inductive Leads (model : Model) : TypeKey → List String → ComplexType → Prop
  | here {key : TypeKey} {type : ComplexType} (htype : model.complexType? key = some type) :
      Leads model key [] type
  | step {key next : TypeKey} {type last : ComplexType} {name : String} {names : List String}
      {p : Property} (htype : model.complexType? key = some type) (hname : name ≠ "")
      (hp : type.property? name = some p) (hnavigable : p.navigable = true)
      (hnext : p.type.complexKey? = some next) (hrest : Leads model next names last) :
      Leads model key (name :: names) last

/-- What is reported of a segment, given the type that the segments before it have led to and the
segments behind it.  Only a path with a slash can have an empty segment. -/
inductive Fault (path : String) (type : ComplexType) (after : List String) :
    String → QueryError → Prop
  | empty (hslash : '/' ∈ path.toList) : Fault path type after "" (.malformed (.emptySegment path))
  | unknown {name : String} (hname : '/' ∈ path.toList → name ≠ "")
      (hp : type.property? name = none) :
      Fault path type after name (.resolution (.unknownProperty type.fullName name))
  | stuck {name : String} {p : Property} (hname : '/' ∈ path.toList → name ≠ "")
      (hp : type.property? name = some p) (hnavigable : p.navigable = false) (hafter : after ≠ []) :
      Fault path type after name (.resolution (.notNavigable name path))

/-- A path goes wrong at a segment if the segments before it are in order and it is not. -/
def GoesWrong (model : Model) (key : TypeKey) (path name : String) (e : QueryError) : Prop :=
  ∃ before after type, splitPath path = before ++ name :: after ∧ model.Leads key before type ∧
    Fault path type after name e

/-- Navigable properties lead to types of the model. -/
def Connected (model : Model) : Prop :=
  ∀ key type, model.complexType? key = some type → ∀ p ∈ type.properties, p.navigable = true →
    ∃ next other, p.type.complexKey? = some next ∧ model.complexType? next = some other

theorem Closed.connected (hclosed : model.Closed) (hordered : model.Ordered) : model.Connected := by
  intro key type htype p hp hnavigable
  obtain ⟨next, hnext⟩ := hordered.leads key type htype p hp hnavigable
  have hdescribes := hclosed.properties type (List.mem_of_find?_eq_some htype) p hp
  have hsome : (model.complexType? next).isSome = true := by
    rcases EdmType.complexKey?_eq_some_iff.1 hnext with htype | htype
    · rwa [htype] at hdescribes
    · rwa [htype] at hdescribes
  obtain ⟨other, hother⟩ := Option.isSome_iff_exists.1 hsome
  exact ⟨next, other, hnext, hother⟩

/-- The target of the error is the segment, or the path if the segment is empty. -/
theorem Fault.target_eq (h : Fault path type after name e) :
    e.report.target = some (if '/' ∈ path.toList ∧ name = "" then path else name) := by
  cases h with
  | empty hslash => rw [if_pos ⟨hslash, rfl⟩]; rfl
  | unknown hname hp => rw [if_neg fun h => hname h.1 h.2]; rfl
  | stuck hname hp hnavigable hafter => rw [if_neg fun h => hname h.1 h.2]; rfl

/-! ## One property -/

theorem property_of_eq_some {p : Property} (htype : model.complexType? key = some type)
    (hp : type.property? name = some p) : model.property key name = .ok p :=
  property_eq_ok_iff.2 ⟨type, htype, hp⟩

theorem property_of_eq_none (htype : model.complexType? key = some type)
    (hp : type.property? name = none) :
    model.property key name = .error (.resolution (.unknownProperty type.fullName name)) := by
  rw [property, complexType_eq_ok_iff.2 htype, ok_bind, hp]

theorem target_of_not_navigable {p : Property} (hnavigable : p.navigable = false) :
    target path p = .error (.resolution (.notNavigable p.name path)) := by
  unfold target
  rw [hnavigable]

/-! ## Segments -/

theorem resolveSegments_cons (hname : name ≠ "") :
    model.resolveSegments path key (name :: names) =
      (model.property key name >>= fun p => match names with
        | [] => .ok [p]
        | _ :: _ => target path p >>= fun next =>
            model.resolveSegments path next names >>= fun rest => .ok (p :: rest)) := by
  rw [resolveSegments, if_neg (by simpa [String.isEmpty_iff] using hname)]
  rfl

theorem resolveSegments_of_fault (htype : model.complexType? key = some type)
    (hslash : '/' ∈ path.toList) (h : Fault path type after name e) :
    model.resolveSegments path key (name :: after) = .error e := by
  cases h with
  | empty => rfl
  | unknown hname hp => rw [resolveSegments_cons (hname hslash), property_of_eq_none htype hp]; rfl
  | @stuck name p hname hp hnavigable hafter =>
      obtain ⟨other, after, rfl⟩ := List.exists_cons_of_ne_nil hafter
      rw [resolveSegments_cons (hname hslash), property_of_eq_some htype hp, ok_bind]
      dsimp only
      rw [target_of_not_navigable hnavigable, (mem_of_property? hp).2]
      rfl

/-- An error behind segments that lead on is the error of the path. -/
theorem Leads.resolveSegments_append (h : model.Leads key before type)
    (hslash : '/' ∈ path.toList) (hfault : Fault path type after name e) :
    model.resolveSegments path key (before ++ name :: after) = .error e := by
  induction h with
  | here htype => exact resolveSegments_of_fault htype hslash hfault
  | @step key next type last first names p htype hname hp hnavigable hnext hrest ih =>
      have hlater := ih hfault
      generalize hall : names ++ name :: after = all at hlater
      obtain ⟨other, rest, rfl⟩ : ∃ other rest, all = other :: rest :=
        List.exists_cons_of_ne_nil (by rw [← hall]; simp)
      rw [List.cons_append, hall, resolveSegments_cons hname, property_of_eq_some htype hp, ok_bind]
      dsimp only
      rw [target_eq_ok_iff.2 ⟨hnavigable, hnext⟩, ok_bind, hlater]
      rfl

/-- Segments can be followed to the end, or there is a first one that is at fault. -/
theorem follows_or_fault (hconnected : model.Connected) (hslash : '/' ∈ path.toList)
    (htype : model.complexType? key = some type) (hne : names ≠ []) :
    (∃ properties, "" ∉ names ∧ model.Follows key names properties) ∨
      ∃ before name after last e, names = before ++ name :: after ∧ model.Leads key before last ∧
        Fault path last after name e := by
  induction names generalizing key type with
  | nil => exact absurd rfl hne
  | cons name rest ih =>
      have hfault {e : QueryError} (h : Fault path type rest name e) :
          ∃ before name' after last e, name :: rest = before ++ name' :: after ∧
            model.Leads key before last ∧ Fault path last after name' e :=
        ⟨[], name, rest, type, e, rfl, .here htype, h⟩
      by_cases hname : name = ""
      · subst hname
        exact .inr (hfault (.empty hslash))
      · cases hp : type.property? name with
        | none => exact .inr (hfault (.unknown (fun _ => hname) hp))
        | some p =>
            by_cases hrest : rest = []
            · subst hrest
              exact .inl ⟨[p], by simpa using Ne.symm hname, .last htype hp⟩
            · cases hnavigable : p.navigable with
              | false => exact .inr (hfault (.stuck (fun _ => hname) hp hnavigable hrest))
              | true =>
                  obtain ⟨next, other, hnext, hother⟩ :=
                    hconnected key type htype p (mem_of_property? hp).1 hnavigable
                  rcases ih hother hrest with ⟨properties, hnames, hfollows⟩ |
                    ⟨before, name', after, last, e, hsplit, hleads, h⟩
                  · exact .inl ⟨p :: properties, by simp [Ne.symm hname, hnames],
                      .step htype hp hnavigable hnext hfollows⟩
                  · exact .inr ⟨name :: before, name', after, last, e, by rw [hsplit]; rfl,
                      .step htype hname hp hnavigable hnext hleads, h⟩

/-! ## Paths -/

theorem splitPath_eq_singleton (h : '/' ∉ path.toList) : splitPath path = [path] := by
  rw [splitPath, List.splitOn_eq_singleton h]
  simp

theorem length_splitPath_eq_one_iff : (splitPath path).length = 1 ↔ '/' ∉ path.toList := by
  constructor
  · intro h hslash
    obtain ⟨only, honly⟩ := List.length_eq_one_iff.1 h
    obtain rfl := eq_of_splitPath_eq_singleton honly
    exact not_mem_of_mem_splitPath (honly ▸ List.mem_singleton_self _) hslash
  · intro h
    rw [splitPath_eq_singleton h]
    rfl

/-- Without a slash the path is a single property. -/
theorem resolvePath_of_not_mem (h : '/' ∉ path.toList) :
    model.resolvePath key path = model.resolveProperty key path := by
  unfold resolvePath
  rw [splitPath_eq_singleton h]

theorem resolvePath_of_resolveSegments (hslash : '/' ∈ path.toList)
    (h : model.resolveSegments path key (splitPath path) = .error e) :
    model.resolvePath key path = .error e := by
  unfold resolvePath
  split
  · rename_i hsplit
    exact absurd (List.map_eq_nil_iff.1 hsplit) (List.splitOn_ne_nil _ _)
  · rename_i only hsplit
    exact absurd hslash (length_splitPath_eq_one_iff.1 (by rw [hsplit]; rfl))
  · rw [h]
    rfl

theorem GoesWrong.resolvePath_eq (h : model.GoesWrong key path name e) :
    model.resolvePath key path = .error e := by
  obtain ⟨before, after, type, hsplit, hleads, hfault⟩ := h
  by_cases hslash : '/' ∈ path.toList
  · refine resolvePath_of_resolveSegments hslash ?_
    rw [hsplit]
    exact hleads.resolveSegments_append hslash hfault
  · -- The only segment is the path, and there is nothing behind it.
    rw [splitPath_eq_singleton hslash] at hsplit
    cases before with
    | cons first before =>
        obtain ⟨-, hnil⟩ := List.cons.inj hsplit
        simp at hnil
    | nil =>
        obtain ⟨rfl, rfl⟩ := List.cons.inj hsplit
        cases hleads with
        | here htype =>
            rw [resolvePath_of_not_mem hslash, resolveProperty]
            cases hfault with
            | empty h => exact absurd h hslash
            | unknown hname hp => rw [property_of_eq_none htype hp]; rfl
            | stuck hname hp hnavigable hafter => exact absurd rfl hafter

theorem resolvePath_eq_ok_or_goesWrong (hconnected : model.Connected)
    (htype : model.complexType? key = some type) (path : String) :
    (∃ steps, model.resolvePath key path = .ok steps) ∨
      ∃ name e, model.GoesWrong key path name e := by
  by_cases hslash : '/' ∈ path.toList
  · have hne : splitPath path ≠ [] := fun h =>
      absurd (List.map_eq_nil_iff.1 h) (List.splitOn_ne_nil _ _)
    rcases follows_or_fault hconnected hslash htype hne with ⟨properties, hnames, hfollows⟩ |
      ⟨before, name, after, last, e, hsplit, hleads, hfault⟩
    · obtain ⟨first, rest, rfl⟩ := List.exists_cons_of_ne_nil hfollows.ne_nil
      exact .inl ⟨⟨first, rest⟩, resolvePath_eq_ok_iff.2 ⟨.inr hnames, hfollows⟩⟩
    · exact .inr ⟨name, e, before, after, last, hsplit, hleads, hfault⟩
  · cases hp : type.property? path with
    | some p =>
        refine .inl ⟨.single p, ?_⟩
        rw [resolvePath_of_not_mem hslash, resolveProperty, property_of_eq_some htype hp]
        rfl
    | none =>
        exact .inr ⟨path, _, [], [], type, splitPath_eq_singleton hslash, .here htype,
          .unknown (fun h => absurd h hslash) hp⟩

/-- A path is resolved exactly if its segments can be followed from property to property, those that
the types inherit included, and then it is the chain of these properties and is printed as it was
written.  Otherwise the error is that of the first segment at fault, and names this segment, or the
path if the segment is empty. -/
theorem resolvePath_exact {calls : List ModelBuilder.Call}
    (hbuild : (ModelBuilder.afterCalls calls).build = .ok model)
    (htype : model.complexType? key = some type) (path : String) :
    model.Ordered ∧ (∀ steps, model.resolvePath key path = .ok steps ↔
      ('/' ∈ path.toList → "" ∉ splitPath path) ∧
        model.Follows key (splitPath path) steps.segments) ∧
      (∀ steps, model.resolvePath key path = .ok steps →
        steps.segments.getLast? = some steps.terminal ∧ steps.text = path) ∧
      ∀ e, model.resolvePath key path = .error e ↔ ∃ name, model.GoesWrong key path name e ∧
        e.report.target = some (if '/' ∈ path.toList ∧ name = "" then path else name) := by
  have hordered := ModelBuilder.ordered_of_build hbuild
  have hconnected : model.Connected := (ModelBuilder.closed_of_build hbuild).connected hordered
  refine ⟨hordered, fun steps => ?_, fun steps h => ⟨List.getLast?_cons, text_of_resolvePath h⟩,
    fun e => ⟨fun h => ?_, fun ⟨_, hwrong, _⟩ => hwrong.resolvePath_eq⟩⟩
  · rw [resolvePath_eq_ok_iff, length_splitPath_eq_one_iff, Decidable.imp_iff_not_or]
  · rcases resolvePath_eq_ok_or_goesWrong hconnected htype path with ⟨steps, hsteps⟩ |
      ⟨name, e', hwrong⟩
    · cases hsteps.symm.trans h
    · obtain rfl := Except.error.inj (hwrong.resolvePath_eq.symm.trans h)
      obtain ⟨before, after, last, hsplit, hleads, hfault⟩ := hwrong
      exact ⟨name, ⟨before, after, last, hsplit, hleads, hfault⟩, hfault.target_eq⟩

open Sample in
/-- The number of a node is an ordinary property, so nothing can be read behind it. -/
theorem resolvePath_exact_number :
    (ModelBuilder.afterCalls [.register treeGraph "Nodes" (.named nodeKey) (some "Id") .none]).build
        = .ok treeModel ∧
      treeModel.complexType? nodeKey = some nodeType ∧
      treeModel.Follows nodeKey ["Kids", "Id"] [kidsProperty, idProperty] ∧
      treeModel.resolvePath nodeKey "Kids/Id//Kids" =
        .error (.resolution (.notNavigable "Id" "Kids/Id//Kids")) ∧
      ∃ name, treeModel.GoesWrong nodeKey "Kids/Id//Kids" name
        (.resolution (.notNavigable "Id" "Kids/Id//Kids")) ∧
        some "Id" = some (if '/' ∈ "Kids/Id//Kids".toList ∧ name = "" then "Kids/Id//Kids"
          else name) := by
  have hbuild : (ModelBuilder.afterCalls
      [.register treeGraph "Nodes" (.named nodeKey) (some "Id") .none]).build = .ok treeModel := by
    have hafter : ModelBuilder.afterCalls
        [.register treeGraph "Nodes" (.named nodeKey) (some "Id") .none] = treeBuilder :=
      congrArg Prod.snd register_tree
    rw [hafter, build_tree]
  have htype : treeModel.complexType? nodeKey = some nodeType := rfl
  have hfails : treeModel.resolvePath nodeKey "Kids/Id//Kids" =
      .error (.resolution (.notNavigable "Id" "Kids/Id//Kids")) := rfl
  have hresolves : treeModel.resolvePath nodeKey "Kids/Id" = .ok ⟨kidsProperty, [idProperty]⟩ := rfl
  have hfollows := (((resolvePath_exact hbuild htype "Kids/Id").2.1 _).1 hresolves).2
  exact ⟨hbuild, htype, hfollows, hfails,
    ((resolvePath_exact hbuild htype "Kids/Id//Kids").2.2.2 _).1 hfails⟩

end Model

end EntityQuery
