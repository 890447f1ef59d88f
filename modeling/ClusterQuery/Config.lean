import ClusterQuery.Record.Kind
import ClusterQuery.Selector.Basic
import ClusterQuery.Toml.Document

/-!
# Configuration

A configuration names the output format to use when none is asked for, and for every kind of
record the selectors that always apply. In a document the selectors stand in a table by the
word of their kind, or in an array in the order of the kinds; keys that are not known are
passed over.
-/

namespace ClusterQuery

structure Config where
  output : String := "table"
  selectors : Kind → List String := fun _ => []

namespace Config

open Toml (Value Table)

/-- The strings of an array of strings. -/
def strings? : Value → Option (List String)
  | .array items => items.mapM fun
    | .string s => some s
    | _ => none
  | _ => none

/-- The selectors of all kinds, where a kind without a value has none. -/
def selectorsOf? (find : Kind → Option Value) : Option (Kind → List String) :=
  let read (k : Kind) : Option (List String) := (find k).elim (some []) strings?
  if Kind.all.all fun k => (read k).isSome then some fun k => (read k).getD [] else none

/-- A moment stands for selectors that are not given. -/
def selectors? : Option Value → Option (Kind → List String)
  | none => some fun _ => []
  | some (.table _ entries) => selectorsOf? fun k => entries.lookup k.word
  | some (.array items) => selectorsOf? fun k => items[Kind.all.idxOf k]?
  | some .moment => some fun _ => []
  | some _ => none

def output? : Option Value → Option String
  | none => some "table"
  | some (.string s) => some s
  | some _ => none

def ofTable? (t : Table) : Option Config := do
  let output ← output? (t.get? "output")
  let selectors ← selectors? (t.get? "selectors")
  return ⟨output, selectors⟩

def ofText? (text : String) : Option Config := do
  let table ← Toml.document? text
  ofTable? table

/-- The selectors that always apply to a kind. -/
def standingSelector (c : Config) (k : Kind) : Except SelectorError Selector :=
  Selector.ofTexts (c.selectors k)

end Config

end ClusterQuery
