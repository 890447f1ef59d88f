/-!
# Bytes as symbols

Text that arrives as bytes is read as a list of symbols: the characters it encodes in UTF-8,
and a mark for every byte that belongs to no character. Well-formed bytes give characters
only.
-/

namespace ClusterQuery

inductive Symbol
  | char (c : Char)
  | stray
  deriving DecidableEq, Repr

namespace Symbol

def ofText (text : String) : List Symbol :=
  text.toList.map char

/-- The character that these bytes are the whole encoding of. -/
def encoded? (bytes : List UInt8) : Option Char :=
  match String.fromUTF8? ⟨bytes.toArray⟩ with
  | none => none
  | some text =>
    match text.toList with
    | [c] => some c
    | _ => none

/-- The character at the start of the bytes, with the number of bytes after its first one. -/
def leading? (bytes : List UInt8) : Option (Char × Nat) :=
  [0, 1, 2, 3].findSome? fun more => (encoded? (bytes.take (more + 1))).map (·, more)

/-- Reads the bytes one character at a time, passing over the given number of them first. -/
def scan : Nat → List UInt8 → List Symbol
  | _, [] => []
  | skip + 1, _ :: bytes => scan skip bytes
  | 0, byte :: bytes =>
    match leading? (byte :: bytes) with
    | some (c, more) => char c :: scan more bytes
    | none => stray :: scan 0 bytes

def ofBytes (bytes : ByteArray) : List Symbol :=
  match String.fromUTF8? bytes with
  | some text => ofText text
  | none => scan 0 bytes.toList

theorem ofBytes_toUTF8 (text : String) : ofBytes text.toUTF8 = ofText text := by
  have hread : String.fromUTF8? text.toUTF8 = some text := by
    unfold String.fromUTF8?
    rw [String.toUTF8_eq_toByteArray, dif_pos text.isValidUTF8]
    rfl
  rw [ofBytes, hread]

end Symbol

end ClusterQuery
