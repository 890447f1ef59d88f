/-!
# Wildcard patterns

In a pattern every `*` stands for any run of characters, the empty run included, and every
other character stands for itself. A pattern covers the whole of a text. The pieces of a
pattern are what lies between its wildcards: the first piece has to open the text, the last
one has to close it, and each piece between takes its first occurrence after the one before.

A pattern that is too large is refused, so a `Glob` is a pattern together with the fact that it
was accepted.
-/

namespace ClusterQuery

/-- The most wildcards a pattern may hold. This stands in for a limit on the size of what a pattern
is compiled to, to which its other characters add as well, though far less. Apart from which
patterns are refused, nothing depends on where the limit lies. -/
def wildcardLimit : Nat := 10000

structure Glob where
  source : String
  count_le_limit : source.toList.count '*' ≤ wildcardLimit
  deriving DecidableEq, Repr

namespace Glob

def ofPattern? (pattern : String) : Option Glob :=
  if h : pattern.toList.count '*' ≤ wildcardLimit then some ⟨pattern, h⟩ else none

/-- What follows the first occurrence of `piece`. -/
def afterFirst? (piece : List Char) : List Char → Option (List Char)
  | [] => if piece = [] then some [] else none
  | c :: cs =>
    match piece.isPrefixOf? (c :: cs) with
    | some rest => some rest
    | none => afterFirst? piece cs

/-- Finds pieces in order, with a wildcard before each; the last one closes the text. -/
def floats : List (List Char) → List Char → Bool
  | [], _ => true
  | [last], text => last.isSuffixOf text
  | piece :: next :: pieces, text =>
    match afterFirst? piece text with
    | some rest => floats (next :: pieces) rest
    | none => false

/-- Whether the wildcards between pieces can stretch so that the whole covers the text. -/
def covers : List (List Char) → List Char → Bool
  | [], text => text.isEmpty
  | [only], text => only == text
  | first :: next :: pieces, text =>
    match first.isPrefixOf? text with
    | some rest => floats (next :: pieces) rest
    | none => false

def pieces (g : Glob) : List (List Char) :=
  g.source.toList.splitOn '*'

def accepts (g : Glob) (text : String) : Bool :=
  covers g.pieces text.toList

theorem source_of_ofPattern? {pattern : String} {g : Glob} (h : ofPattern? pattern = some g) :
    g.source = pattern := by
  unfold ofPattern? at h
  split at h
  · cases h; rfl
  · contradiction

@[simp] theorem ofPattern?_source (g : Glob) : ofPattern? g.source = some g := by
  simp [ofPattern?, g.count_le_limit]

end Glob

end ClusterQuery
