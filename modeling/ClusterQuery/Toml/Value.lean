/-!
# TOML values and tables

A table remembers how it came about, since that settles what may still be added to it. A key
names at most one value of a table.
-/

namespace ClusterQuery.Toml

/-- How a table came about: by a header, as a part of the path of a header, by a dotted key,
or between braces. -/
inductive Origin
  | header
  | implied
  | dotted
  | inline
  deriving DecidableEq, Repr

/-- A value; an array of tables has at least one, of which the latest stands first. -/
inductive Value
  | string (s : String)
  | integer (n : Int)
  | float
  | boolean (b : Bool)
  | moment
  | array (items : List Value)
  | table (origin : Origin) (entries : List (String × Value))
  | tables (latest : List (String × Value)) (earlier : List (List (String × Value)))

structure Table where
  origin : Origin
  entries : List (String × Value) := []

/-- The keys that lead to a value: those of the tables around it, and its own. -/
structure Path where
  parents : List String
  key : String
  deriving DecidableEq, Repr

namespace Path

def keys (p : Path) : List String :=
  p.parents ++ [p.key]

end Path

namespace Table

def get? (t : Table) (key : String) : Option Value :=
  t.entries.lookup key

/-- Sets the value of a key, in place of the one that it has. -/
def put (t : Table) (key : String) (v : Value) : Table :=
  { t with entries := (key, v) :: t.entries.filter (·.1 != key) }

/-- Changes the table that some keys lead to. Tables that are missing on the way come about by
the way, which is that of a dotted key or of a header. A dotted key may not pass through a
table that has a header of its own, and nothing may pass through a table between braces. -/
def update? (dotted : Bool) : List String → (Table → Option Table) → Table → Option Table
  | [], change, t => change t
  | key :: keys, change, t =>
    match t.get? key with
    | none => do
      let child ← update? dotted keys change ⟨if dotted then .dotted else .implied, []⟩
      return t.put key (.table child.origin child.entries)
    | some (.table origin entries) =>
      if origin = .inline ∨ (dotted ∧ origin = .header) then none
      else do
        let child ← update? dotted keys change ⟨origin, entries⟩
        return t.put key (.table child.origin child.entries)
    | some (.tables latest earlier) => do
      let child ← update? dotted keys change ⟨.header, latest⟩
      return t.put key (.tables child.entries earlier)
    | some _ => none

/-- Adds a value under a key that is still free. A table that came about by a dotted key takes
values from dotted keys only, and no other table takes any from them. -/
def insert? (byDotted : Bool) (key : String) (v : Value) (t : Table) : Option Table :=
  if (t.origin = .dotted) ≠ byDotted then none
  else if (t.get? key).isSome then none
  else some (t.put key v)

/-- Adds the value of a key that may be dotted. -/
def define? (p : Path) (v : Value) (t : Table) : Option Table :=
  t.update? true p.parents (insert? (!p.parents.isEmpty) p.key v)

/-- Opens the table of a header, which may have come about only as a part of a path before. -/
def open? (key : String) (t : Table) : Option Table :=
  match t.get? key with
  | none => some (t.put key (.table .header []))
  | some (.table .implied entries) => some (t.put key (.table .header entries))
  | some _ => none

/-- Adds an empty table to an array of tables, which comes about with its first table. -/
def push? (key : String) (t : Table) : Option Table :=
  match t.get? key with
  | none => some (t.put key (.tables [] []))
  | some (.tables latest earlier) => some (t.put key (.tables [] (latest :: earlier)))
  | some _ => none

/-- The table between braces that holds these values. -/
def ofPairs? (pairs : List (Path × Value)) : Option Table :=
  pairs.foldlM (fun t p => t.define? p.1 p.2) ⟨.inline, []⟩

end Table

end ClusterQuery.Toml
