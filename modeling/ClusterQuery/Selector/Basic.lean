import ClusterQuery.Selector.Fragment
import ClusterQuery.Selector.Grammar

/-!
# Selectors

A selector is a list of conditions that must all hold; the empty selector matches every
record. A selector text is a list of conditions separated by commas, and a blank text is the
empty selector. Several texts are read into one selector, one after another, and the first
fragment that is no condition is the error of the whole.
-/

namespace ClusterQuery

structure Selector where
  conditions : List Condition := []
  deriving DecidableEq, Repr

namespace Selector

def empty : Selector := ⟨[]⟩

def isEmpty (s : Selector) : Bool :=
  s.conditions.isEmpty

def size (s : Selector) : Nat :=
  s.conditions.length

/-- The conditions of one selector text. -/
def readConditions (text : String) : Except SelectorError (List Condition) :=
  if trim text.toList = [] then .ok []
  else (fragments text.toList).mapM fun fragment => Condition.ofChars (trim fragment)

/-- Reads several texts into one selector. -/
def ofTexts (texts : List String) : Except SelectorError Selector := do
  let parts ← texts.mapM readConditions
  return ⟨parts.flatten⟩

def ofText (text : String) : Except SelectorError Selector :=
  ofTexts [text]

/-- Compiles drafts into a selector; the first pattern that is refused is the error. -/
def ofDrafts (drafts : List Draft) : Except SelectorError Selector := do
  let conditions ← drafts.mapM Draft.toCondition
  return ⟨conditions⟩

/-- Both selectors must hold. -/
def append (s t : Selector) : Selector :=
  ⟨s.conditions ++ t.conditions⟩

instance : Append Selector := ⟨append⟩

def text (s : Selector) : String :=
  ",".intercalate (s.conditions.map Condition.text)

theorem ofTexts_append (texts more : List String) : ofTexts (texts ++ more) = do
    let s ← ofTexts texts
    let t ← ofTexts more
    return s ++ t := by
  simp only [ofTexts, List.mapM_append, bind_assoc, pure_bind, List.flatten_append]
  rfl

@[simp] theorem conditions_append (s t : Selector) :
    (s ++ t).conditions = s.conditions ++ t.conditions := rfl

@[simp] theorem conditions_empty : empty.conditions = [] := rfl

end Selector

end ClusterQuery
