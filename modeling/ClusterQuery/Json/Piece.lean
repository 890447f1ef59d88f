import ClusterQuery.Text.Numeral

/-!
# Pieces of JSON strings

A string is well formed when its pieces are characters, escapes and stray bytes. It denotes a
text when moreover no byte is stray and escaped surrogates come in pairs of a high and a low
one.
-/

namespace ClusterQuery.Json

/-- A part of a string: a character, an escaped UTF-16 code unit, or a stray byte. -/
inductive Piece
  | char (c : Char)
  | unit (n : Nat)
  | stray
  deriving DecidableEq, Repr

namespace Piece

def isHighSurrogate (n : Nat) : Bool := 0xD800 ≤ n && n ≤ 0xDBFF

def isLowSurrogate (n : Nat) : Bool := 0xDC00 ≤ n && n ≤ 0xDFFF

def joinSurrogates (high low : Nat) : Char :=
  Char.ofNat (0x10000 + (high - 0xD800) * 0x400 + (low - 0xDC00))

/-- The text that the pieces of a string denote. -/
def decode? : List Piece → Option (List Char)
  | [] => some []
  | char c :: ps => (decode? ps).map (c :: ·)
  | unit high :: unit low :: ps =>
    if isHighSurrogate high then
      if isLowSurrogate low then (decode? ps).map (joinSurrogates high low :: ·) else none
    else if isLowSurrogate high then none
    else (decode? (unit low :: ps)).map (Char.ofNat high :: ·)
  | unit n :: ps =>
    if isHighSurrogate n || isLowSurrogate n then none
    else (decode? ps).map (Char.ofNat n :: ·)
  | stray :: _ => none

end Piece

/-- The character that a backslash and this letter stand for. -/
def escaped? : Char → Option Char
  | '"' => some '"'
  | '\\' => some '\\'
  | '/' => some '/'
  | 'b' => some '\x08'
  | 'f' => some '\x0c'
  | 'n' => some '\n'
  | 'r' => some '\r'
  | 't' => some '\t'
  | _ => none

end ClusterQuery.Json
