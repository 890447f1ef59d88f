import ClusterQuery.Selector.Glob

/-!
# Conditions

A condition tests one field with one of four operators. A draft is a condition as it is
written, with the pattern of a wildcard match not looked at yet. The text of a condition is
its canonical written form.
-/

namespace ClusterQuery

inductive Operator
  | equal
  | notEqual
  | like
  | oneOf
  deriving DecidableEq, Repr

def Operator.text : Operator → String
  | equal => "="
  | notEqual => "!="
  | like => "=~"
  | oneOf => "in"

/-- An operator together with its operand. -/
inductive Predicate
  | equal (value : String)
  | notEqual (value : String)
  | like (pattern : Glob)
  | oneOf (values : List String)
  deriving DecidableEq, Repr

namespace Predicate

def operator : Predicate → Operator
  | equal _ => .equal
  | notEqual _ => .notEqual
  | like _ => .like
  | oneOf _ => .oneOf

def value? : Predicate → Option String
  | equal v => some v
  | notEqual v => some v
  | like g => some g.source
  | oneOf _ => none

def values? : Predicate → Option (List String)
  | oneOf vs => some vs
  | _ => none

end Predicate

structure Condition where
  field : String
  predicate : Predicate
  deriving DecidableEq, Repr

namespace Condition

/-- An equality with a value that starts with `~` is written with a space, since it would
otherwise read as a wildcard match. -/
def text (c : Condition) : String :=
  match c.predicate with
  | .equal v => if v.toList.head? = some '~' then c.field ++ "= " ++ v else c.field ++ "=" ++ v
  | .notEqual v => c.field ++ "!=" ++ v
  | .like g => c.field ++ "=~" ++ g.source
  | .oneOf vs => c.field ++ " in (" ++ ",".intercalate vs ++ ")"

end Condition

/-- What a condition asks for, before its pattern is compiled. -/
inductive Operand
  | equal (value : String)
  | notEqual (value : String)
  | like (pattern : String)
  | oneOf (values : List String)
  deriving DecidableEq, Repr

structure Draft where
  field : String
  operand : Operand
  deriving DecidableEq, Repr

end ClusterQuery
