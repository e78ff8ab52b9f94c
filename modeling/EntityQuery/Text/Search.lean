/-!
# Searching a text

A text is searched for another one from the left.  Places are counted in characters.
-/

namespace EntityQuery.Text

/-- The first place at which `part` occurs. -/
def indexOf? (part : List Char) : List Char → Option Nat
  | [] => if part.isEmpty then some 0 else none
  | c :: rest =>
    if part.isPrefixOf (c :: rest) then some 0 else (indexOf? part rest).map (· + 1)

/-- Does `part` occur in a text? -/
def contains (part whole : List Char) : Bool := (indexOf? part whole).isSome

/-- What stands at the found place is the text that was searched for. -/
theorem isPrefixOf_drop_of_indexOf? {part whole : List Char} {place : Nat}
    (h : indexOf? part whole = some place) : part.isPrefixOf (whole.drop place) = true := by
  induction whole generalizing place with
  | nil =>
    unfold indexOf? at h
    split at h <;> simp_all
  | cons c rest ih =>
    unfold indexOf? at h
    split at h
    · obtain rfl : 0 = place := by simpa using h
      simp_all
    · obtain ⟨before, hbefore, rfl⟩ := Option.map_eq_some_iff.1 h
      simpa using ih hbefore

end EntityQuery.Text
