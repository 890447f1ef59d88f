import ClusterQuery.Text.Numeral
import ClusterQuery.Toml.Layout

/-!
# TOML strings

A string stands between double quotes, where a backslash escapes, or between single quotes,
where nothing does. Three quotes open a string over several lines: a newline right after them
is dropped, one or two quotes may stand in it and before its end, and between double quotes a
backslash at the end of a line joins it to the next character that is not blank.
-/

namespace ClusterQuery.Toml

/-- What the reader of a string is at: its text, which it passes over up to the next character
that is not blank when a line is being joined, or a place after a backslash, which some of the
hexadecimal digits of a code point or the spaces before the end of the line may follow. -/
inductive TextMode
  | text (joining : Bool)
  | escape
  | code (more : Nat) (value : Nat)
  | lineEnd
  deriving DecidableEq, Repr

def escaped? : Char → Option Char
  | 'b' => some '\x08'
  | 't' => some '\t'
  | 'n' => some '\n'
  | 'f' => some '\x0c'
  | 'r' => some '\r'
  | '"' => some '"'
  | '\\' => some '\\'
  | _ => none

def character? (n : Nat) : Option Char :=
  if n.isValidChar then some (Char.ofNat n) else none

/-- Puts characters in front of the text that was read. -/
def prepend (cs : List Char) : Option (List Char × List Char) → Option (List Char × List Char) :=
  Option.map fun p => (cs ++ p.1, p.2)

/-- The quotes that still belong to a string, when it ends here, and what follows it; at
least three quotes must stand here, of which up to two before the last three belong to it. -/
def closing? (quote : Char) (cs : List Char) : Option (List Char × List Char) :=
  let quotes := min 5 (cs.takeWhile (· == quote)).length
  if quotes < 3 then none else some (List.replicate (quotes - 3) quote, cs.drop quotes)

/-- Reads the rest of a string between double quotes. -/
def readBasic (multiline : Bool) : TextMode → Reads (List Char)
  | _, [] => none
  | .text joining, c :: cs =>
    if joining && (c == '\n' || isSpace c) then readBasic multiline (.text true) cs
    else if c = '"' then
      if multiline then
        match closing? '"' (c :: cs) with
        | some last => some last
        | none => prepend [c] (readBasic multiline (.text false) cs)
      else some ([], cs)
    else if c = '\\' then readBasic multiline .escape cs
    else if isTextChar c || (multiline && c == '\n') then
      prepend [c] (readBasic multiline (.text false) cs)
    else none
  | .escape, c :: cs =>
    if c = 'u' then readBasic multiline (.code 3 0) cs
    else if c = 'U' then readBasic multiline (.code 7 0) cs
    else if multiline && c == '\n' then readBasic multiline (.text true) cs
    else if multiline && isSpace c then readBasic multiline .lineEnd cs
    else
      match escaped? c with
      | some e => prepend [e] (readBasic multiline (.text false) cs)
      | none => none
  | .code more value, c :: cs =>
    match hexValue? c, more with
    | none, _ => none
    | some digit, more + 1 => readBasic multiline (.code more (value * 16 + digit)) cs
    | some digit, 0 =>
      match character? (value * 16 + digit) with
      | some e => prepend [e] (readBasic multiline (.text false) cs)
      | none => none
  | .lineEnd, c :: cs =>
    if c = '\n' then readBasic multiline (.text true) cs
    else if isSpace c then readBasic multiline .lineEnd cs
    else none

/-- Reads the rest of a string between single quotes. -/
def readLiteral (multiline : Bool) : Reads (List Char)
  | [] => none
  | c :: cs =>
    if c = '\'' then
      if multiline then
        match closing? '\'' (c :: cs) with
        | some last => some last
        | none => prepend [c] (readLiteral multiline cs)
      else some ([], cs)
    else if isTextChar c || (multiline && c == '\n') then prepend [c] (readLiteral multiline cs)
    else none

/-- Drops a newline at the start. -/
def dropNewline : List Char → List Char
  | '\n' :: cs => cs
  | cs => cs

/-- Reads a string that stands on one line. -/
def shortText? : Reads (List Char)
  | '"' :: cs => readBasic false (.text false) cs
  | '\'' :: cs => readLiteral false cs
  | _ => none

def text? : Reads (List Char)
  | '"' :: '"' :: '"' :: cs => readBasic true (.text false) (dropNewline cs)
  | '\'' :: '\'' :: '\'' :: cs => readLiteral true (dropNewline cs)
  | cs => shortText? cs

end ClusterQuery.Toml
