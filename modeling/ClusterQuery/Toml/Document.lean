import ClusterQuery.Toml.Expression

/-!
# TOML documents

A document is a table written line by line. A line is blank, a comment, the header of a table
or of the next table of an array, or a pair, which belongs to the table of the last header.
The document may start with a byte order mark.
-/

namespace ClusterQuery.Toml

/-- The tables read so far, and the path of the one that pairs go to. -/
structure Outline where
  root : Table := ⟨.header, []⟩
  site : List String := []

namespace Outline

def openTable? (o : Outline) (p : Path) : Option Outline := do
  let root ← o.root.update? false p.parents (Table.open? p.key)
  return ⟨root, p.keys⟩

def pushTable? (o : Outline) (p : Path) : Option Outline := do
  let root ← o.root.update? false p.parents (Table.push? p.key)
  return ⟨root, p.keys⟩

def define? (o : Outline) (p : Path) (v : Value) : Option Outline := do
  let root ← o.root.update? false o.site (Table.define? p v)
  return { o with root := root }

/-- Reads one line that is not blank. -/
def line? (o : Outline) (cs : List Char) : Option (Outline × List Char) :=
  match cs with
  | '[' :: '[' :: cs => do
    let (path, rest) ← path? cs
    match rest with
    | ']' :: ']' :: rest => return (← o.pushTable? path, ← lineEnd? rest)
    | _ => none
  | '[' :: cs => do
    let (path, rest) ← path? cs
    match rest with
    | ']' :: rest => return (← o.openTable? path, ← lineEnd? rest)
    | _ => none
  | cs => do
    let ((path, value), rest) ← pair? value? cs
    return (← o.define? path value, ← lineEnd? rest)

/-- Reads lines up to the end of the text, which at most the given number may be. -/
def linesUpTo? (o : Outline) : Nat → List Char → Option Outline
  | 0, _ => none
  | more + 1, cs =>
    match skipComment (skipSpaces cs) with
    | [] => some o
    | '\n' :: rest => o.linesUpTo? more rest
    | _ => do
      let (o, rest) ← o.line? (skipSpaces cs)
      o.linesUpTo? more rest

end Outline

def dropByteOrderMark : List Char → List Char
  | '\uFEFF' :: cs => cs
  | cs => cs

/-- The table that a document describes. -/
def document? (text : String) : Option Table := do
  let cs ← unifyLineEnds? (dropByteOrderMark text.toList)
  let outline ← Outline.linesUpTo? {} (cs.length + 1) cs
  return outline.root

end ClusterQuery.Toml
