import EntityQuery.Proofs.Filter.Readable
import EntityQuery.Proofs.Schema.PathResolution

/-!
# The texts of paths

A path that was resolved is printed as the text it was resolved from: its properties carry the names
that the segments of the text ask for.
-/

namespace EntityQuery

namespace Filter

variable {model : Model} {scope : Scope} {text : String} {steps : PropertyPath}
  {root : Option String}

theorem splitHead_eq_some {head tail : String} (h : splitHead text = (head, some tail)) :
    text = head ++ "/" ++ tail := by
  unfold splitHead at h
  dsimp only at h
  obtain ⟨rfl, htail⟩ := Prod.mk.inj h
  split at htail
  · cases htail
  · rename_i hlength
    obtain rfl := Option.some.inj htail
    have hsplit := eq_takeWhile_append text.toList (by simpa using hlength)
    apply String.toList_injective
    simpa using hsplit

/-- A path and the parameter it begins at are printed as they were written. -/
theorem pathText_of_resolvePath (h : resolvePath model scope text = .ok (steps, root)) :
    Expression.pathText steps root = text := by
  unfold resolvePath at h
  cases hsplit : splitHead text with
  | mk head tail =>
      rw [hsplit] at h
      dsimp only at h
      split at h
      · obtain ⟨resolved, hresolved, h⟩ := bind_eq_ok.1 h
        obtain ⟨rfl, rfl⟩ := Prod.mk.inj (pure_eq_ok.1 h)
        exact Model.text_of_resolvePath hresolved
      · cases h
      · obtain ⟨resolved, hresolved, h⟩ := bind_eq_ok.1 h
        obtain ⟨rfl, rfl⟩ := Prod.mk.inj (pure_eq_ok.1 h)
        rw [splitHead_eq_some hsplit, ← Model.text_of_resolvePath hresolved]
        rfl

/-- A path is no reserved word if no property is named by one. -/
theorem not_reserved_of_resolvePath
    (hnames : ∀ type ∈ model.complexTypes, ∀ p ∈ type.properties, p.name ∉ reservedWords)
    (h : resolvePath model scope text = .ok (steps, root)) : text ∉ reservedWords := by
  intro hword
  have hwhole : ∀ w ∈ reservedWords, splitHead w = (w, none) ∧ Model.splitPath w = [w] := by
    decide
  obtain ⟨hhead, hsplit⟩ := hwhole text hword
  unfold resolvePath at h
  rw [hhead] at h
  dsimp only at h
  split at h
  · obtain ⟨resolved, hresolved, -⟩ := bind_eq_ok.1 h
    rw [Model.resolvePath, hsplit] at hresolved
    obtain ⟨property, hproperty, -⟩ := map_eq_ok.1 hresolved
    obtain ⟨hname, type, htype, hmem⟩ := Model.property_eq_ok hproperty
    exact hnames type (List.mem_of_find?_eq_some htype) property hmem (hname ▸ hword)
  · cases h
  · rename_i heq
    cases heq

end Filter

end EntityQuery
