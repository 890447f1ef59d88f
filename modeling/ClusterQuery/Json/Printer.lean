/-!
# Printing lists of objects

Lists of flat objects are printed over several lines, indented by two spaces a level, with
the members in the order given. In a string the quote, the backslash and the characters below
U+0020 are escaped, and all others stand for themselves.
-/

namespace ClusterQuery.Json

/-- A value without parts. -/
inductive Scalar
  | text (s : String)
  | number (n : Nat)
  | bool (b : Bool)
  deriving DecidableEq, Repr

def escapeChar (c : Char) : List Char :=
  if c = '"' then ['\\', '"']
  else if c = '\\' then ['\\', '\\']
  else if c = '\x08' then ['\\', 'b']
  else if c = '\x0c' then ['\\', 'f']
  else if c = '\n' then ['\\', 'n']
  else if c = '\r' then ['\\', 'r']
  else if c = '\t' then ['\\', 't']
  else if c.toNat < 0x20 then
    ['\\', 'u', '0', '0', Nat.digitChar (c.toNat / 16), Nat.digitChar (c.toNat % 16)]
  else [c]

def printString (s : String) : List Char :=
  '"' :: (s.toList.flatMap escapeChar ++ ['"'])

def printScalar : Scalar → List Char
  | .text s => printString s
  | .number n => Nat.toDigits 10 n
  | .bool true => ['t', 'r', 'u', 'e']
  | .bool false => ['f', 'a', 'l', 's', 'e']

def newline (indent : Nat) : List Char :=
  '\n' :: List.replicate indent ' '

/-- The parts, each on a line of its own, separated by commas and set between two brackets. -/
def printBlock (indent : Nat) (opening closing : Char) (parts : List (List Char)) : List Char :=
  if parts = [] then [opening, closing]
  else
    opening :: ([','].intercalate (parts.map (newline (indent + 2) ++ ·)) ++
      newline indent ++ [closing])

def printMember (m : String × Scalar) : List Char :=
  printString m.1 ++ [':', ' '] ++ printScalar m.2

def printObject (indent : Nat) (members : List (String × Scalar)) : List Char :=
  printBlock indent '{' '}' (members.map printMember)

def printObjects (objects : List (List (String × Scalar))) : List Char :=
  printBlock 0 '[' ']' (objects.map (printObject 2))

end ClusterQuery.Json
