import ClusterQuery.Filter
import ClusterQuery.Render

/-!
# Sessions

A session holds a pool of records of one kind and selectors under names. A name that was
never bound is the empty selector. A step changes the session and gives an answer, or it
fails and leaves the session as it was.
-/

namespace ClusterQuery

structure Session (k : Kind) where
  pool : List k.Record
  named : List (String × Selector) := []

inductive Step
  | parse (name : String) (texts : List String)
  | build (name : String) (drafts : List Draft)
  | conjoin (name left right : String)
  | view (selector : String)
  | compare (left right : String)
  | checkFields (selector : String)
  | select (selector : String)
  | test (selector : String) (index : Nat)
  | narrow (selector : String)
  | load (records : String)
  | render (format : String)
  deriving DecidableEq, Repr

inductive Answer
  | bound (s : Selector)
  | selector (s : Selector)
  | equal (b : Bool)
  | valid (s : Selector)
  | selected (positions : List Nat)
  | accepted (b : Bool)
  | pool (labels : List String)
  | output (text : String)
  deriving DecidableEq, Repr

inductive StepError
  | selector (e : SelectorError)
  | unreadableRecords
  | noRecord
  | unknownFormat (name : String)
  deriving DecidableEq, Repr

namespace Session

variable {k : Kind}

def lookup (s : Session k) (name : String) : Selector :=
  (s.named.lookup name).getD .empty

def bind (s : Session k) (name : String) (selector : Selector) : Session k :=
  { s with named := (name, selector) :: s.named }

def labels (s : Session k) : List String :=
  s.pool.map k.label

/-- The session after a step, and the answer to it. -/
def step (s : Session k) : Step → Except StepError (Session k × Answer)
  | .parse name texts => do
    let selector ← (Selector.ofTexts texts).mapError .selector
    return (s.bind name selector, .bound selector)
  | .build name drafts => do
    let selector ← (Selector.ofDrafts drafts).mapError .selector
    return (s.bind name selector, .bound selector)
  | .conjoin name left right =>
    let selector := s.lookup left ++ s.lookup right
    .ok (s.bind name selector, .bound selector)
  | .view name => .ok (s, .selector (s.lookup name))
  | .compare left right => .ok (s, .equal (s.lookup left == s.lookup right))
  | .checkFields name => do
    ((s.lookup name).checkFields k).mapError .selector
    return (s, .valid (s.lookup name))
  | .select name => do
    let positions ← ((s.lookup name).positions k s.pool).mapError .selector
    return (s, .selected positions)
  | .test name index =>
    match s.pool[index]? with
    | none => .error .noRecord
    | some r => do
      let b ← ((s.lookup name).accepts k r).mapError .selector
      return (s, .accepted b)
  | .narrow name => do
    let pool ← ((s.lookup name).filter k s.pool).mapError .selector
    let narrowed := { s with pool := pool }
    return (narrowed, .pool narrowed.labels)
  | .load text =>
    match k.decodeText? text with
    | none => .error .unreadableRecords
    | some pool =>
      let loaded := { s with pool := pool }
      .ok (loaded, .pool loaded.labels)
  | .render name =>
    match Format.ofName? name with
    | none => .error (.unknownFormat name)
    | some format => .ok (s, .output (ClusterQuery.render k format s.pool))

/-- The session after a step that may fail, and the answer or the error. -/
def perform (s : Session k) (step : Step) : Session k × Except StepError Answer :=
  match s.step step with
  | .ok (next, answer) => (next, .ok answer)
  | .error e => (s, .error e)

/-- The session after some steps, and the outcome of each. -/
def run (s : Session k) : List Step → Session k × List (Except StepError Answer)
  | [] => (s, [])
  | step :: steps =>
    let (next, outcome) := s.perform step
    let (last, outcomes) := next.run steps
    (last, outcome :: outcomes)

end Session

end ClusterQuery
