import ClusterQuery.Toml.Moment
import ClusterQuery.Toml.Number
import ClusterQuery.Toml.Value

/-!
# TOML keys and values

A key is bare or a string, and keys joined by dots are a path. What a value is shows in its
first character; a number is tried as a moment first. Arrays may run over several lines and
end in a comma, while a table between braces may do neither. Paths and nested values have a
greatest length and depth.
-/

namespace ClusterQuery.Toml

/-- The most keys in a path, and the most arrays and tables that may be open at once. -/
def nestingLimit : Nat := 79

def isKeyChar (c : Char) : Bool :=
  c.isAlphanum || c == '-' || c == '_'

def key? : Reads String := fun cs =>
  match cs with
  | '"' :: _ | '\'' :: _ => (shortText? cs).map fun p => (String.ofList p.1, p.2)
  | _ =>
    let key := cs.takeWhile isKeyChar
    if key = [] then none else some (String.ofList key, cs.dropWhile isKeyChar)

/-- Reads a path of at most the given number of keys, with the spaces around each. -/
def pathUpTo? : Nat → Reads Path
  | 0, _ => none
  | more + 1, cs => do
    let (key, rest) ← key? (skipSpaces cs)
    match skipSpaces rest with
    | '.' :: rest => do
      let (path, rest) ← pathUpTo? more rest
      return ({ path with parents := key :: path.parents }, rest)
    | rest => return (⟨[], key⟩, rest)

def path? : Reads Path :=
  pathUpTo? nestingLimit

/-- Reads a path, the equals sign and a value. -/
def pair? (value? : Reads Value) : Reads (Path × Value) := fun cs => do
  let (path, rest) ← path? cs
  match rest with
  | '=' :: rest => do
    let (value, rest) ← value? (skipSpaces rest)
    return ((path, value), rest)
  | _ => none

/-- Reads up to the given number of items of an array, and its closing bracket. -/
def itemsUpTo? (value? : Reads Value) : Nat → Reads (List Value)
  | 0, _ => none
  | more + 1, cs => do
    match ← skipGap? false cs with
    | ']' :: rest => return ([], rest)
    | cs => do
      let (value, rest) ← value? cs
      match ← skipGap? false rest with
      | ']' :: rest => return ([value], rest)
      | ',' :: rest => do
        let (values, rest) ← itemsUpTo? value? more rest
        return (value :: values, rest)
      | _ => none

/-- Reads up to the given number of pairs between braces, and the closing brace. -/
def pairsUpTo? (value? : Reads Value) : Nat → Reads (List (Path × Value))
  | 0, _ => none
  | more + 1, cs => do
    let (pair, rest) ← pair? value? cs
    match skipSpaces rest with
    | '}' :: rest => return ([pair], rest)
    | ',' :: rest => do
      let (pairs, rest) ← pairsUpTo? value? more rest
      return (pair :: pairs, rest)
    | _ => none

/-- Reads the rest of an array after its opening bracket. -/
def array? (value? : Reads Value) : Reads Value := fun cs => do
  let (items, rest) ← itemsUpTo? value? (cs.length + 1) cs
  return (.array items, rest)

/-- Reads the rest of a table after its opening brace. -/
def inlineTable? (value? : Reads Value) : Reads Value := fun cs =>
  match skipSpaces cs with
  | '}' :: rest => some (.table .inline [], rest)
  | _ => do
    let (pairs, rest) ← pairsUpTo? value? (cs.length + 1) cs
    let table ← Table.ofPairs? pairs
    return (.table table.origin table.entries, rest)

/-- Reads a value that is no array and no table. -/
def plain? : Reads Value := fun cs =>
  match cs with
  | '"' :: _ | '\'' :: _ => (text? cs).map fun p => (.string (String.ofList p.1), p.2)
  | 't' :: 'r' :: 'u' :: 'e' :: rest => some (.boolean true, rest)
  | 'f' :: 'a' :: 'l' :: 's' :: 'e' :: rest => some (.boolean false, rest)
  | _ =>
    match moment? cs with
    | some rest => some (.moment, rest)
    | none =>
      match number? cs with
      | some (.integer n, rest) => some (.integer n, rest)
      | some (.float, rest) => some (.float, rest)
      | none => none

/-- Reads a value in which at most the given number of arrays and tables are open at once. -/
def valueUpTo? : Nat → Reads Value
  | 0, cs => plain? cs
  | more + 1, cs =>
    match cs with
    | '[' :: rest => array? (valueUpTo? more) rest
    | '{' :: rest => inlineTable? (valueUpTo? more) rest
    | _ => plain? cs

def value? : Reads Value :=
  valueUpTo? nestingLimit

end ClusterQuery.Toml
