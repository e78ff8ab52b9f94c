import EntityQuery.Number.Digits
import EntityQuery.Text.Hex

/-!
# Globally unique identifiers

A `Guid` is a number of 128 bits, written as 32 hexadecimal digits in five groups.  It can be read
with or without its hyphens, in braces, or behind the name of its namespace.
-/

namespace EntityQuery

open Text

/-- An identifier of 128 bits. -/
structure Guid where
  value : Nat
  value_lt : value < 2 ^ (128 : Nat)
  deriving DecidableEq

namespace Guid

/-- The identifier with the given number, if it has 128 bits. -/
def ofNat? (n : Nat) : Option Guid := if h : n < 2 ^ (128 : Nat) then some ⟨n, h⟩ else none

instance : Inhabited Guid := ⟨⟨0, by decide⟩⟩

/-- Identifiers are ordered as numbers, which is the order of their text. -/
def compare (a b : Guid) : Ordering := Ord.compare a.value b.value

/-- The five groups of digits with hyphens between them. -/
def text (g : Guid) : String :=
  let ds := hexDigits 32 g.value
  String.ofList (ds.take 8 ++ '-' :: (ds.drop 8).take 4 ++ '-' :: (ds.drop 12).take 4 ++
    '-' :: (ds.drop 16).take 4 ++ '-' :: ds.drop 20)

instance : ToString Guid := ⟨text⟩

/-- The digits of a text with hyphens behind the 8th, 12th, 16th and 20th of them. -/
def dropHyphens? (cs : List Char) : Option (List Char) :=
  let hyphenAt (i : Nat) : Bool := cs[i]? == some '-'
  if hyphenAt 8 && hyphenAt 13 && hyphenAt 18 && hyphenAt 23 then
    some (cs.take 8 ++ (cs.drop 9).take 4 ++ (cs.drop 14).take 4 ++ (cs.drop 19).take 4 ++
      cs.drop 24)
  else none

/-- The namespace that may stand before an identifier. -/
def namespaceText : List Char := "urn:uuid:".toList

/-- An identifier with hyphens in one of its wrappings, without the wrapping. -/
def unwrap? (cs : List Char) : Option (List Char) :=
  if cs.length == 36 then some cs
  else if cs.length == 38 && cs.head? == some '\x7b' && cs.getLast? == some '\x7d' then
    some (cs.drop 1).dropLast
  else if cs.length == 45 && namespaceText.isPrefixOf cs then some (cs.drop namespaceText.length)
  else none

/-- Reads an identifier. -/
def ofChars? (cs : List Char) : Option Guid :=
  if cs.length == 32 then (hexRun? 0 cs).bind ofNat?
  else (unwrap? cs).bind fun inner => (dropHyphens? inner).bind fun ds => (hexRun? 0 ds).bind ofNat?

end Guid

end EntityQuery
