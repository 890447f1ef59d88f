import ClusterQuery.Text.Blank
import ClusterQuery.Selector.Condition
import ClusterQuery.Selector.Error

/-!
# The grammar of a condition

A condition opens with a field name of ASCII letters, digits and underscores. Either blank
characters, the keyword `in` in any case, blank characters and a parenthesized list follow,
or one of the operators `!=`, `=~` and `=` follows at once and the rest is its value. Values
and list items are trimmed; an empty item is kept. Nothing else is trimmed, so a blank
character before an operator makes the text no condition.
-/

namespace ClusterQuery

def isFieldChar (c : Char) : Bool :=
  c.isAlphanum || c == '_'

/-- What follows a run of blank characters, which must not be empty. -/
def afterBlanks? : List Char → Option (List Char)
  | [] => none
  | c :: cs => if isBlank c then some (trimStart cs) else none

/-- What follows the keyword `in`. -/
def afterKeyword? : List Char → Option (List Char)
  | i :: n :: rest =>
    if (i = 'i' ∨ i = 'I') ∧ (n = 'n' ∨ n = 'N') then some rest else none
  | _ => none

/-- What lies between an opening parenthesis and a closing one at the end of the text. -/
def insideParens? : List Char → Option (List Char)
  | '(' :: rest => if rest.getLast? = some ')' then some rest.dropLast else none
  | _ => none

def trimmed (cs : List Char) : String :=
  String.ofList (trim cs)

def listItems (cs : List Char) : List String :=
  (cs.splitOn ',').map trimmed

/-- Reads the keyword and the list of a membership test. -/
def membership? (rest : List Char) : Option Operand := do
  let rest ← afterBlanks? rest
  let rest ← afterKeyword? rest
  let rest ← afterBlanks? rest
  let list ← insideParens? rest
  return .oneOf (listItems list)

/-- Reads an operator and its value. -/
def comparison? : List Char → Option Operand
  | '!' :: '=' :: value => some (.notEqual (trimmed value))
  | '=' :: '~' :: value => some (.like (trimmed value))
  | '=' :: value => some (.equal (trimmed value))
  | _ => none

namespace Draft

/-- Reads one condition from the whole of a text. -/
def ofChars? (cs : List Char) : Option Draft :=
  let field := cs.takeWhile isFieldChar
  let rest := cs.dropWhile isFieldChar
  if field = [] then none
  else (membership? rest <|> comparison? rest).map (⟨String.ofList field, ·⟩)

/-- Compiles the pattern of a wildcard match and takes every other operand as it is. -/
def toCondition (d : Draft) : Except SelectorError Condition :=
  match d.operand with
  | .equal v => .ok ⟨d.field, .equal v⟩
  | .notEqual v => .ok ⟨d.field, .notEqual v⟩
  | .oneOf vs => .ok ⟨d.field, .oneOf vs⟩
  | .like pattern =>
    match Glob.ofPattern? pattern with
    | some g => .ok ⟨d.field, .like g⟩
    | none => .error (.tooManyWildcards pattern)

end Draft

/-- Reads one condition; the text is not trimmed first. -/
def Condition.ofChars (cs : List Char) : Except SelectorError Condition :=
  match Draft.ofChars? cs with
  | some draft => draft.toCondition
  | none => .error (.malformed (String.ofList cs))

def Condition.ofText (text : String) : Except SelectorError Condition :=
  Condition.ofChars text.toList

end ClusterQuery
