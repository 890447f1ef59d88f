/-!
# Fragments

A selector text is cut into fragments at its commas, except those inside parentheses. The
depth of a place is the number of opening parentheses before it minus the number of closing
ones; it may become negative, and a comma cuts exactly where the depth is zero.
-/

namespace ClusterQuery

/-- The depth after a character that stands at the given depth. -/
def depthAfter (depth : Int) (c : Char) : Int :=
  if c = '(' then depth + 1 else if c = ')' then depth - 1 else depth

/-- The fragments of a text that starts at the given depth; there is at least one. -/
def fragmentsFrom : Int → List Char → List (List Char)
  | _, [] => [[]]
  | depth, c :: cs =>
    if c = ',' ∧ depth = 0 then [] :: fragmentsFrom depth cs
    else (fragmentsFrom (depthAfter depth c) cs).modifyHead (c :: ·)

/-- The empty text has no fragments. -/
def fragments (cs : List Char) : List (List Char) :=
  if cs = [] then [] else fragmentsFrom 0 cs

def fragmentsOf (text : String) : List String :=
  (fragments text.toList).map String.ofList

@[simp] theorem fragments_nil : fragments [] = [] := rfl

theorem fragments_of_ne_nil {cs : List Char} (h : cs ≠ []) :
    fragments cs = fragmentsFrom 0 cs := by
  simp [fragments, h]

theorem fragmentsFrom_ne_nil (depth : Int) (cs : List Char) : fragmentsFrom depth cs ≠ [] := by
  induction cs generalizing depth with
  | nil => simp [fragmentsFrom]
  | cons c cs ih =>
      unfold fragmentsFrom
      split
      · simp
      · intro h
        cases hf : fragmentsFrom (depthAfter depth c) cs with
        | nil => exact ih _ hf
        | cons f fs => simp [hf] at h

end ClusterQuery
