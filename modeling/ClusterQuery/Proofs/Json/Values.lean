import Mathlib.Data.List.Basic
import ClusterQuery.Json.Value
import ClusterQuery.Proofs.Json.Tokens

/-!
# The value of printed objects

Reading the tokens of a scalar, a member or an object comes to the value that was printed,
whatever is still open around it. So a printed list of objects is read back as the list of these
objects, with their members in the order in which they were printed.
-/

namespace ClusterQuery.Json

def Scalar.toJson : Scalar → Json
  | .text s => .string (some s)
  | .number n => .number (.integer n)
  | .bool b => .bool b

def memberJson (m : String × Scalar) : Option String × Json :=
  (some m.1, m.2.toJson)

def objectJson (members : List (String × Scalar)) : Json :=
  .object (members.map memberJson)

namespace Reader

/-- The reader once it has read some more tokens. -/
def after (r : Reader) (ts : List Token) : Option Reader :=
  ts.foldlM step r

theorem exists_intercalate_cons {α : Type} (sep part : List α) (parts : List (List α)) :
    ∃ rest, sep.intercalate (part :: parts) = part ++ rest := by
  cases parts with
  | nil => exact ⟨[], by simp⟩
  | cons next parts => exact ⟨sep ++ sep.intercalate (next :: parts), by simp⟩

section Sequence

variable {α β : Type} (tokens : α → List Token) (value : α → β) (closing : Token)
  (awaiting closed : List β → Reader)

/-- Parts between commas are collected, newest first, until the sequence is closed. -/
theorem after_sequence
    (hcomma : ∀ done x rest, after (awaiting done) (tokens x ++ .comma :: rest) =
      after (awaiting (value x :: done)) rest)
    (hclosing : ∀ done x rest, after (awaiting done) (tokens x ++ closing :: rest) =
      after (closed (value x :: done)) rest)
    (done : List β) (x : α) (xs : List α) (rest : List Token) :
    after (awaiting done) ([.comma].intercalate ((x :: xs).map tokens) ++ closing :: rest) =
      after (closed (((x :: xs).map value).reverse ++ done)) rest := by
  induction xs generalizing x done with
  | nil => simpa using hclosing done x rest
  | cons y ys ih =>
      simp only [List.map_cons, List.intercalate_cons_cons, List.append_assoc,
        List.cons_append, List.nil_append] at ih ⊢
      rw [hcomma, ih]
      simp

end Sequence

theorem after_token (stack : List Frame) (v : Scalar) (ts : List Token) :
    after ⟨stack, .value⟩ (v.token :: ts) = after ⟨stack, .done v.toJson⟩ ts := by
  cases v <;> rfl

theorem after_memberTokens (stack : List Frame) (done : List (Option String × Json))
    (m : String × Scalar) (ts : List Token) :
    after ⟨stack, .key done⟩ (memberTokens m ++ ts) =
      after ⟨.object done (some m.1) :: stack, .done m.2.toJson⟩ ts :=
  after_token (.object done (some m.1) :: stack) m.2 ts

theorem after_objectTokens (stack : List Frame) (members : List (String × Scalar))
    (ts : List Token) : after ⟨stack, .value⟩ (objectTokens members ++ ts) =
      after ⟨stack, .done (objectJson members)⟩ ts := by
  cases members with
  | nil => rfl
  | cons m ms =>
      have hcomma (done : List (Option String × Json)) (x : String × Scalar) (rest : List Token) :
          after ⟨stack, .key done⟩ (memberTokens x ++ .comma :: rest) =
            after ⟨stack, .key (memberJson x :: done)⟩ rest :=
        after_memberTokens stack done x _
      have hclosing (done : List (Option String × Json)) (x : String × Scalar)
          (rest : List Token) : after ⟨stack, .key done⟩ (memberTokens x ++ .closeObject :: rest) =
            after ⟨stack, .done (.object (memberJson x :: done).reverse)⟩ rest :=
        after_memberTokens stack done x _
      have hmembers := after_sequence memberTokens memberJson .closeObject
        (fun done => ⟨stack, .key done⟩) (fun done => ⟨stack, .done (.object done.reverse)⟩)
        hcomma hclosing [] m ms ts
      -- A key may stand where the object is opened just as after a comma.
      obtain ⟨rest, hrest⟩ :=
        exists_intercalate_cons [.comma] (memberTokens m) (ms.map memberTokens)
      have hopening : after ⟨stack, .value⟩ (objectTokens (m :: ms) ++ ts) =
          after ⟨stack, .key []⟩
            ([.comma].intercalate ((m :: ms).map memberTokens) ++ .closeObject :: ts) := by
        rw [objectTokens, List.cons_append, List.append_assoc, List.map_cons, hrest]
        rfl
      rw [hopening, hmembers, objectJson]
      simp

theorem after_objectsTokens (objects : List (List (String × Scalar))) (ts : List Token) :
    after {} (objectsTokens objects ++ ts) =
      after ⟨[], .done (.list (objects.map objectJson))⟩ ts := by
  cases objects with
  | nil => rfl
  | cons members objects =>
      have hcomma (done : List Json) (x : List (String × Scalar)) (rest : List Token) :
          after ⟨[.list done], .value⟩ (objectTokens x ++ .comma :: rest) =
            after ⟨[.list (objectJson x :: done)], .value⟩ rest :=
        after_objectTokens _ x _
      have hclosing (done : List Json) (x : List (String × Scalar)) (rest : List Token) :
          after ⟨[.list done], .value⟩ (objectTokens x ++ .closeList :: rest) =
            after ⟨[], .done (.list (objectJson x :: done).reverse)⟩ rest :=
        after_objectTokens _ x _
      have hobjects := after_sequence objectTokens objectJson .closeList
        (fun done => ⟨[.list done], .value⟩) (fun done => ⟨[], .done (.list done.reverse)⟩)
        hcomma hclosing [] members objects ts
      obtain ⟨rest, hrest⟩ :=
        exists_intercalate_cons [.comma] (objectTokens members) (objects.map objectTokens)
      have hopening : after {} (objectsTokens (members :: objects) ++ ts) =
          after ⟨[.list []], .value⟩
            ([.comma].intercalate ((members :: objects).map objectTokens) ++ .closeList :: ts) := by
        rw [objectsTokens, List.cons_append, List.append_assoc, List.map_cons, hrest]
        rfl
      rw [hopening, hobjects]
      simp

end Reader

theorem ofTokens?_objectsTokens (objects : List (List (String × Scalar))) :
    ofTokens? (objectsTokens objects) = some (.list (objects.map objectJson)) := by
  have hread := Reader.after_objectsTokens objects []
  rw [List.append_nil, Reader.after] at hread
  rw [ofTokens?, hread]
  rfl

/-- A printed list of objects, with a newline after it, is read back as it was printed. -/
theorem ofSymbols?_printObjects (objects : List (List (String × Scalar))) :
    ofSymbols? ((printObjects objects ++ ['\n']).map Symbol.char) =
      some (.list (objects.map objectJson)) := by
  rw [ofSymbols?, tokens?_printObjects]
  exact ofTokens?_objectsTokens objects

end ClusterQuery.Json
