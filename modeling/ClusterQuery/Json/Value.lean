import ClusterQuery.Json.Lexer

/-!
# JSON values

A text is one JSON value. The reader takes the tokens one by one and keeps the lists and
objects that are still open on a stack, so values may be nested to any depth. The members of
an object stay in the order of the text, repetitions included, and a key may denote no text.
-/

namespace ClusterQuery

/-- A value, with strings and keys that denote no text left empty. -/
inductive Json
  | null
  | bool (b : Bool)
  | number (n : Json.Number)
  | string (text : Option String)
  | list (items : List Json)
  | object (members : List (Option String × Json))

namespace Json

/-- A list or an object that is still open, with what it holds so far, newest first. In an
object the value of the given key comes next. -/
inductive Frame
  | list (done : List Json)
  | object (done : List (Option String × Json)) (key : Option String)

/-- What the reader has just seen, and so what may come next. -/
inductive Expect
  | value
  | firstItem
  | firstKey
  | key (done : List (Option String × Json))
  | colon (done : List (Option String × Json)) (key : Option String)
  | done (value : Json)

structure Reader where
  stack : List Frame := []
  expect : Expect := .value

namespace Reader

/-- The value that a token is by itself. -/
def scalar? : Token → Option Json
  | .null => some .null
  | .bool b => some (.bool b)
  | .number n => some (.number n)
  | .string text => some (.string text)
  | _ => none

/-- Reads the first token of a value. -/
def startValue (stack : List Frame) (t : Token) : Option Reader :=
  match t with
  | .openList => some ⟨stack, .firstItem⟩
  | .openObject => some ⟨stack, .firstKey⟩
  | _ => (scalar? t).map fun v => ⟨stack, .done v⟩

/-- Reads the token after a value that is complete. -/
def afterValue (v : Json) : List Frame → Token → Option Reader
  | .list done :: stack, .comma => some ⟨.list (v :: done) :: stack, .value⟩
  | .list done :: stack, .closeList => some ⟨stack, .done (.list (v :: done).reverse)⟩
  | .object done key :: stack, .comma => some ⟨stack, .key ((key, v) :: done)⟩
  | .object done key :: stack, .closeObject =>
    some ⟨stack, .done (.object ((key, v) :: done).reverse)⟩
  | _, _ => none

def step (r : Reader) (t : Token) : Option Reader :=
  match r.expect with
  | .value => startValue r.stack t
  | .firstItem =>
    if t = .closeList then some ⟨r.stack, .done (.list [])⟩
    else startValue (.list [] :: r.stack) t
  | .firstKey =>
    match t with
    | .closeObject => some ⟨r.stack, .done (.object [])⟩
    | .string key => some ⟨r.stack, .colon [] key⟩
    | _ => none
  | .key done =>
    match t with
    | .string key => some ⟨r.stack, .colon done key⟩
    | _ => none
  | .colon done key =>
    if t = .colon then some ⟨.object done key :: r.stack, .value⟩ else none
  | .done v => afterValue v r.stack t

/-- The value read, when it is complete and nothing is open. -/
def result? (r : Reader) : Option Json :=
  match r.stack, r.expect with
  | [], .done v => some v
  | _, _ => none

end Reader

def ofTokens? (tokens : List Token) : Option Json := do
  let reader ← tokens.foldlM Reader.step {}
  reader.result?

def ofSymbols? (symbols : List Symbol) : Option Json := do
  let tokens ← tokens? symbols
  ofTokens? tokens

end Json

end ClusterQuery
