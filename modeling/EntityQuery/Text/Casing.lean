import EntityQuery.Text.CaseTables

/-!
# Small and capital letters

Two notions of case are used.  Names of entity sets clash when they agree up to the case of ASCII
letters.  Everything else, the lookup of an entity set and the functions on texts, uses the full
case mapping of Unicode, in which one character may become several and the small sigma has a second
form at the end of a word.
-/

namespace EntityQuery.Text

/-! ## ASCII case -/

/-- The small form of an ASCII letter; every other character stays. -/
def asciiLower (c : Char) : Char := c.toLower

/-- Two texts agree up to the case of ASCII letters. -/
def eqIgnoringAsciiCase (s t : String) : Bool :=
  s.toList.map asciiLower == t.toList.map asciiLower

/-! ## Full case mapping -/

/-- Characters with case, as the final sigma rule understands it. -/
def isCased (c : Char) : Bool :=
  if c.val < 128 then c.isAlpha else inRanges casedRanges c

/-- Characters that stand between letters of one word without ending it. -/
def isCaseIgnorable (c : Char) : Bool :=
  if c.val < 128 then c == '\x27' || c == '.' || c == ':' || c == '^' || c == '\x60'
  else inRanges caseIgnorableRanges c

/-- Does the nearest character that counts have case? -/
def nextIsCased (cs : List Char) : Bool :=
  match cs.dropWhile isCaseIgnorable with
  | [] => false
  | c :: _ => isCased c

/-- The small form of one character on its own.  The capital I with a dot keeps its dot. -/
def lowerChar (c : Char) : List Char :=
  if c.val < 128 then [c.toLower]
  else if c.val == 0x130 then ['i', '\u0307']
  else match lowerRuns.findSome? (·.partner? c.toNat) with
    | some code => [Char.ofNat code]
    | none => [c]

/-- The capital form of one character. -/
def upperChar (c : Char) : List Char :=
  if c.val < 128 then [c.toUpper]
  else match upperExpansions.lookup c.toNat with
    | some codes => codes.map Char.ofNat
    | none => match upperRuns.findSome? (·.partner? c.toNat) with
      | some code => [Char.ofNat code]
      | none => [c]

/-- Lowers a text, of which `before` is already read, last character first.  A capital sigma after a
letter and not before one takes its final form. -/
def lowerFrom (before : List Char) : List Char → List Char
  | [] => []
  | c :: rest =>
    let small :=
      if c.val == 0x3A3 then
        if nextIsCased before && !nextIsCased rest then ['\u03C2'] else ['\u03C3']
      else lowerChar c
    small ++ lowerFrom (c :: before) rest

/-- The text in small letters. -/
def toLower (text : String) : String := String.ofList (lowerFrom [] text.toList)

end EntityQuery.Text
