/-!
# The layout of a TOML text

Spaces and tabs stand between the parts of a line, a comment runs from `#` to the end of its
line, and a line ends with a newline or with the text. A carriage return stands only before a
newline, so every line end is brought to a single newline before anything else is read.
-/

namespace ClusterQuery.Toml

/-- Reads something from the start of a text and gives what follows it. -/
abbrev Reads (α : Type) := List Char → Option (α × List Char)

/-- Line ends as single newlines; a carriage return elsewhere is refused. -/
def unifyLineEnds? : List Char → Option (List Char)
  | [] => some []
  | c :: cs =>
    if c = '\r' then if cs.head? = some '\n' then unifyLineEnds? cs else none
    else (unifyLineEnds? cs).map (c :: ·)

def isSpace (c : Char) : Bool :=
  c == ' ' || c == '\t'

def skipSpaces (cs : List Char) : List Char :=
  cs.dropWhile isSpace

/-- Of the control characters only the tab may stand in a comment or in a string. -/
def isTextChar (c : Char) : Bool :=
  c == '\t' || (0x20 ≤ c.toNat && c.toNat ≠ 0x7F)

/-- What follows a comment, if there is one. -/
def skipComment : List Char → List Char
  | '#' :: cs => cs.dropWhile isTextChar
  | cs => cs

/-- What follows the end of a line, before which only spaces and a comment may stand. -/
def lineEnd? (cs : List Char) : Option (List Char) :=
  match skipComment (skipSpaces cs) with
  | [] => some []
  | '\n' :: rest => some rest
  | _ => none

/-- What follows spaces, newlines and comments, each of which ends with its line. -/
def skipGap? (inComment : Bool) : List Char → Option (List Char)
  | [] => if inComment then none else some []
  | c :: cs =>
    if c = '\n' then skipGap? false cs
    else if inComment then if isTextChar c then skipGap? true cs else none
    else if isSpace c then skipGap? false cs
    else if c = '#' then skipGap? true cs
    else some (c :: cs)

end ClusterQuery.Toml
