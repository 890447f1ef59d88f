import ClusterQuery.Record.Member

/-!
# Records in JSON

A text of records is a list. An object gives the members of a record by their keys, in any
order; keys that the kind does not know are passed over, and a known key may stand only once.
A list gives the values of the leading members. One record that cannot be read makes the
whole text unreadable.
-/

namespace ClusterQuery

open Json (Scalar)

/-- The value of the first member with that key. -/
def memberValue? (members : List (Option String × Json)) (key : String) : Option Json :=
  (members.find? (·.1 == some key)).map Prod.snd

namespace Kind

variable (k : Kind)

/-- Every key denotes a text, and none that the kind knows stands twice. -/
def keysAreSound (members : List (Option String × Json)) : Bool :=
  members.all (·.1.isSome) &&
    k.memberKeys.all fun key => members.countP (·.1 == some key) ≤ 1

def ofMembers? (members : List (Option String × Json)) : Option k.Record :=
  if k.keysAreSound members then
    k.members.foldlM (fun r m => m.read (memberValue? members) r) k.blank
  else none

/-- The list of values as an object with the leading members of the kind. -/
def leadingMembers (items : List Json) : List (Option String × Json) :=
  (k.memberKeys.map some).zip items

def record? : Json → Option k.Record
  | .object members => k.ofMembers? members
  | .list items =>
    if items.length ≤ k.memberKeys.length then k.ofMembers? (k.leadingMembers items) else none
  | _ => none

def records? : Json → Option (List k.Record)
  | .list items => items.mapM k.record?
  | _ => none

/-- Reads the records of a text given as symbols. -/
def decode? (symbols : List Symbol) : Option (List k.Record) :=
  (Json.ofSymbols? symbols).bind k.records?

def decodeText? (text : String) : Option (List k.Record) :=
  k.decode? (Symbol.ofText text)

/-- The members of a record that are written. -/
def toMembers (r : k.Record) : List (String × Scalar) :=
  k.members.filterMap (·.write r)

/-- The text of a list of records, which ends with a newline. -/
def encode (rs : List k.Record) : String :=
  String.ofList (Json.printObjects (rs.map k.toMembers) ++ ['\n'])

end Kind

end ClusterQuery
