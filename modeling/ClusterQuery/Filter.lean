import ClusterQuery.Record.Field
import ClusterQuery.Selector.Basic
import ClusterQuery.Text.Tags

/-!
# Filtering records

The value of a field has parts: the value itself, or the empty text when it is absent, when
it is read as a whole, and its tags when it is read as tags. A predicate holds when some part
fits it, and an inequality holds when no part equals its value.

The fields of a selector are checked against the table of a kind before any record is looked
at, so a field that the kind lacks is reported even when there are no records. Filtering
keeps the records for which every condition holds, in their order.
-/

namespace ClusterQuery

def Reading.parts : Reading → Option String → List String
  | whole, value => [value.getD ""]
  | tags, value => tagsOf (value.getD "")

def Predicate.holds : Predicate → List String → Bool
  | equal v, parts => parts.any (· == v)
  | notEqual v, parts => !parts.any (· == v)
  | like g, parts => parts.any g.accepts
  | oneOf vs, parts => parts.any fun part => vs.any (· == part)

/-- Whether a predicate holds of a value under a reading. -/
def Reading.test (r : Reading) (value : Option String) (p : Predicate) : Bool :=
  p.holds (r.parts value)

/-- Whether the condition alone holds for the record. -/
def Condition.test (k : Kind) (c : Condition) (r : k.Record) : Except SelectorError Bool :=
  match k.valueOf? r c.field with
  | some value => .ok ((k.reading c.field).test value c.predicate)
  | none => .error (.unknownField c.field k)

/-- Whether all the conditions hold, tested in order up to the first one that does not. -/
def testAll (k : Kind) : List Condition → k.Record → Except SelectorError Bool
  | [], _ => .ok true
  | c :: cs, r => do
    if ← c.test k r then testAll k cs r else return false

/-- The members of a list that pass a test which may fail. -/
def keepM {α ε : Type} (test : α → Except ε Bool) : List α → Except ε (List α)
  | [] => .ok []
  | a :: as => do
    let keep ← test a
    let rest ← keepM test as
    return if keep then a :: rest else rest

namespace Selector

variable (s : Selector) (k : Kind)

/-- Every field must be one of the kind's; the first that is not is the error. -/
def checkFields : Except SelectorError Unit :=
  match s.conditions.find? fun c => !k.supports c.field with
  | some c => .error (.unknownField c.field k)
  | none => .ok ()

def accepts (r : k.Record) : Except SelectorError Bool := do
  s.checkFields k
  testAll k s.conditions r

/-- The records that are accepted, in their order. -/
def filter (rs : List k.Record) : Except SelectorError (List k.Record) := do
  s.checkFields k
  keepM (testAll k s.conditions) rs

/-- The places, counted from zero, of the records that are accepted. -/
def positions (rs : List k.Record) : Except SelectorError (List Nat) := do
  s.checkFields k
  let kept ← keepM (fun p => testAll k s.conditions p.1) rs.zipIdx
  return kept.map Prod.snd

end Selector

/-- A test that does not fail keeps what a plain filter keeps. -/
theorem keepM_eq_filter {α ε : Type} (test : α → Except ε Bool) (p : α → Bool) (as : List α)
    (h : ∀ a ∈ as, test a = .ok (p a)) : keepM test as = .ok (as.filter p) := by
  induction as with
  | nil => rfl
  | cons a as ih =>
      have ha : test a = .ok (p a) := h a (by simp)
      have has : keepM test as = .ok (as.filter p) := ih fun b hb => h b (by simp [hb])
      cases hp : p a <;> simp [keepM, ha, has, hp] <;> rfl

end ClusterQuery
