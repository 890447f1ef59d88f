import ClusterQuery.Text.Blank

/-!
# Tag lists

Tags are kept in one text, separated by semicolons. A blank text has no tags; otherwise every
piece is a tag once it is trimmed, empty pieces and repetitions included.
-/

namespace ClusterQuery

def tagPieces (cs : List Char) : List (List Char) :=
  if trim cs = [] then [] else (cs.splitOn ';').map trim

def tagsOf (text : String) : List String :=
  (tagPieces text.toList).map String.ofList

theorem tagPieces_of_blank {cs : List Char} (h : trim cs = []) : tagPieces cs = [] := by
  simp [tagPieces, h]

theorem tagPieces_of_not_blank {cs : List Char} (h : trim cs ≠ []) :
    tagPieces cs = (cs.splitOn ';').map trim := by
  simp [tagPieces, h]

end ClusterQuery
