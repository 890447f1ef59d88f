import ClusterQuery.Record.Column
import ClusterQuery.Record.Json

/-!
# Rendering records

Records are printed as a table, as JSON, or as their labels, one on a line.
-/

namespace ClusterQuery

inductive Format
  | table
  | json
  | names
  deriving DecidableEq, Repr

namespace Format

def ofName? (name : String) : Option Format :=
  if name = "table" then some table
  else if name = "json" then some json
  else if name = "names" ∨ name = "name" then some names
  else none

/-- The complaint about a name that is no format. -/
def unknownMessage (name : String) : String :=
  "Unknown output format \"" ++ name ++ "\" (expected table, json or names)"

end Format

def render (k : Kind) (format : Format) (rs : List k.Record) : String :=
  match format with
  | .table => unlines (tableLines k.columns (rs.map k.cells))
  | .json => k.encode rs
  | .names => unlines (rs.map k.label)

end ClusterQuery
