/-!
# UTF-8

Texts as bytes.  Encoding is total; decoding either gives the text or says where the bytes stop
being one: at a sequence that is cut off by the end, or at bytes that cannot begin or continue a
sequence.
-/

namespace EntityQuery.Text

/-- The bytes of a text. -/
def utf8Bytes (cs : List Char) : List UInt8 := cs.flatMap String.utf8EncodeChar

/-- The number of bytes of a text. -/
def utf8Length : List Char → Nat
  | [] => 0
  | c :: cs => c.utf8Size + utf8Length cs

/-- Why bytes are not a text. -/
inductive Utf8Problem
  | incomplete (index : Nat)
  | invalid (length index : Nat)
  deriving DecidableEq

/-- The wording of a problem. -/
def Utf8Problem.message : Utf8Problem → String
  | incomplete index => "incomplete utf-8 byte sequence from index " ++ toString index
  | invalid length index =>
    "invalid utf-8 sequence of " ++ toString length ++ " bytes from index " ++ toString index

/-- The bytes that may follow the first byte of a sequence of three or four. -/
def secondByteRange (first : Nat) : Nat × Nat :=
  if first == 0xE0 then (0xA0, 0xBF)
  else if first == 0xED then (0x80, 0x9F)
  else if first == 0xF0 then (0x90, 0xBF)
  else if first == 0xF4 then (0x80, 0x8F)
  else (0x80, 0xBF)

/-- The length of the sequence that a byte begins, and the bits the byte itself contributes. -/
def leadByte (first : Nat) : Nat × Nat :=
  if first < 0x80 then (1, first)
  else if 0xC2 ≤ first && first ≤ 0xDF then (2, first - 0xC0)
  else if 0xE0 ≤ first && first ≤ 0xEF then (3, first - 0xE0)
  else if 0xF0 ≤ first && first ≤ 0xF4 then (4, first - 0xF0)
  else (0, 0)

/-- The number of bytes of a sequence that were fine, and whether the sequence was cut off, or the
code point. -/
def continueSequence (code read : Nat) (range : Nat × Nat) :
    Nat → List UInt8 → Except (Nat × Bool) Nat
  | 0, _ => .ok code
  | _ + 1, [] => .error (read, true)
  | missing + 1, byte :: rest =>
    if range.1 ≤ byte.toNat && byte.toNat ≤ range.2 then
      continueSequence (code * 64 + (byte.toNat - 0x80)) (read + 1) (0x80, 0xBF) missing rest
    else .error (read, false)

/-- Decodes bytes, of which `skip` belong to the sequence before them and the first has an index. -/
def decodeFrom (index skip : Nat) : List UInt8 → Except Utf8Problem (List Char)
  | [] => .ok []
  | byte :: rest =>
    match skip with
    | skip + 1 => decodeFrom (index + 1) skip rest
    | 0 =>
      let (length, bits) := leadByte byte.toNat
      if length == 0 then .error (.invalid 1 index)
      else
        match continueSequence bits 1 (secondByteRange byte.toNat) (length - 1) rest with
        | .error (_, true) => .error (.incomplete index)
        | .error (read, false) => .error (.invalid read index)
        | .ok code => (decodeFrom (index + 1) (length - 1) rest).map (Char.ofNat code :: ·)

/-- The text that bytes encode. -/
def utf8Decode (bytes : List UInt8) : Except Utf8Problem (List Char) := decodeFrom 0 0 bytes

end EntityQuery.Text
