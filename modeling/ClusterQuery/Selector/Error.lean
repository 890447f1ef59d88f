import ClusterQuery.Record.Field

/-!
# What can be wrong with a selector

A fragment may not be a condition, a wildcard pattern may be too large, and a condition may
test a field that the kind of record does not have. The first two arise while a selector is
read, the last one when it is bound to a kind.
-/

namespace ClusterQuery

inductive SelectorError
  | malformed (fragment : String)
  | tooManyWildcards (pattern : String)
  | unknownField (field : String) (kind : Kind)
  deriving DecidableEq, Repr

namespace SelectorError

def arisesInReading : SelectorError → Bool
  | malformed _ => true
  | tooManyWildcards _ => true
  | unknownField _ _ => false

def message : SelectorError → String
  | malformed fragment =>
    "invalid selector \"" ++ fragment ++ "\": expected <field>=<value>, <field>!=<value>, " ++
      "<field>=~<pattern> or <field> in (<values>)"
  | tooManyWildcards pattern =>
    "invalid wildcard pattern \"" ++ pattern ++
      "\": Compiled regex exceeds size limit of 10485760 bytes."
  | unknownField field kind =>
    "unsupported field \"" ++ field ++ "\" for " ++ kind.name ++ "; supported fields: " ++
      ", ".intercalate kind.fieldNames

end SelectorError

end ClusterQuery
