/-!
# Blanks

A blank is a character that only separates: the white space of Unicode.  Trimming removes blanks at
both ends of a text, and its words are the longest stretches without one.  The layout of a filter is
coarser: there only the six white space characters of ASCII separate tokens.
-/

namespace EntityQuery.Text

/-- The white space of ASCII. -/
def isAsciiBlank (c : Char) : Bool :=
  c.val == 32 || (9 ≤ c.val && c.val ≤ 13)

/-- White space of every script. -/
def isBlank (c : Char) : Bool :=
  isAsciiBlank c || c.val == 0x85 || c.val == 0xA0 || c.val == 0x1680 ||
    (0x2000 ≤ c.val && c.val ≤ 0x200A) || c.val == 0x2028 || c.val == 0x2029 ||
    c.val == 0x202F || c.val == 0x205F || c.val == 0x3000

theorem isBlank_of_isAsciiBlank {c : Char} (h : isAsciiBlank c = true) : isBlank c = true := by
  simp [isBlank, h]

/-- Removes the blanks at the front. -/
def trimFront (cs : List Char) : List Char := cs.dropWhile isBlank

/-- Removes the blanks at the back. -/
def trimBack (cs : List Char) : List Char := (cs.reverse.dropWhile isBlank).reverse

/-- Removes the blanks at both ends. -/
def trimChars (cs : List Char) : List Char := trimBack (trimFront cs)

/-- A text without the blanks at its ends. -/
def trim (text : String) : String := String.ofList (trimChars text.toList)

/-- One step of `words`: extends the word under construction, or closes it at a blank. -/
def addToWords (c : Char) : List (List Char) → List (List Char)
  | [] => if isBlank c then [] else [[c]]
  | word :: rest =>
    if isBlank c then (if word.isEmpty then word :: rest else [] :: word :: rest)
    else (c :: word) :: rest

/-- The words of a text: its longest stretches without a blank, in order. -/
def words (text : String) : List String :=
  ((text.toList.foldr addToWords []).filter (!·.isEmpty)).map String.ofList

end EntityQuery.Text
