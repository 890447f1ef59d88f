import ClusterQuery.Proofs.Filter.Dependence
import ClusterQuery.Proofs.Text.Trimming

/-!
# Tags as they are written

Tags are written one after another with semicolons between them, and blank characters may stand
around each one. Such a text gives back its tags, trimmed, in their order and with repetitions and
empty ones kept. A blank text has no tags, though it is also how one blank tag is written. A
predicate looks only at which tags a text has, so the order, the repetitions and the padding of
tags are all the same to it.
-/

namespace ClusterQuery

/-- A tag, which holds no semicolon, with the blank characters that stand around it. -/
structure WrittenTag where
  before : String
  tag : String
  after : String
  blank_before : ∀ c ∈ before.toList, isBlank c
  no_semicolon : ';' ∉ tag.toList
  blank_after : ∀ c ∈ after.toList, isBlank c

namespace WrittenTag

def text (w : WrittenTag) : String :=
  w.before ++ w.tag ++ w.after

def joined (ws : List WrittenTag) : String :=
  ";".intercalate (ws.map text)

theorem padded_text (w : WrittenTag) : Padded w.tag.toList w.text.toList :=
  ⟨w.before.toList, w.after.toList, by simp [text], w.blank_before, w.blank_after⟩

theorem semicolon_not_mem_text (w : WrittenTag) : ';' ∉ w.text.toList := by
  have hblank : ∀ c, isBlank c → c ≠ ';' := by
    rintro c hc rfl
    revert hc
    decide
  intro h
  rw [text, String.toList_append, String.toList_append, List.mem_append, List.mem_append] at h
  rcases h with (h | h) | h
  · exact hblank _ (w.blank_before _ h) rfl
  · exact w.no_semicolon h
  · exact hblank _ (w.blank_after _ h) rfl

theorem splitOn_joined {ws : List WrittenTag} (hne : ws ≠ []) :
    (joined ws).toList.splitOn ';' = ws.map fun w => w.text.toList := by
  have htext : (joined ws).toList = [';'].intercalate (ws.map fun w => w.text.toList) := by
    simp [joined, Function.comp_def]
  rw [htext]
  apply List.splitOn_intercalate ';' _ (by simpa using hne)
  intro piece hpiece
  obtain ⟨w, -, rfl⟩ := List.mem_map.mp hpiece
  exact w.semicolon_not_mem_text

theorem trim_joined_eq_nil_iff {ws : List WrittenTag} :
    trim (joined ws).toList = [] ↔ ws = [] ∨ ∃ w, ws = [w] ∧ trim w.tag.toList = [] := by
  match ws with
  | [] => simp [joined]
  | [w] =>
      rw [joined, List.map_singleton, String.intercalate_singleton, trim_of_padded w.padded_text]
      simp
  | w :: next :: ws =>
      -- The semicolon between two tags is not blank.
      have hmem : ';' ∈ (joined (w :: next :: ws)).toList := by simp [joined]
      constructor
      · intro h
        have hsemicolon : isBlank ';' = true := trim_eq_nil_iff.mp h ';' hmem
        contradiction
      · simp

theorem tagsOf_joined {ws : List WrittenTag} (h : trim (joined ws).toList ≠ []) :
    tagsOf (joined ws) = ws.map fun w => trimmed w.tag.toList := by
  have hne : ws ≠ [] := by
    rintro rfl
    exact h rfl
  rw [tagsOf, tagPieces_of_not_blank h, splitOn_joined hne, List.map_map, List.map_map]
  apply List.map_congr_left
  intro w _
  simp [trim_of_padded w.padded_text, trimmed]

end WrittenTag

/-- A text of tags with semicolons between them and any padding around them has these tags, trimmed,
unless it is blank, which it is only when there are no tags or one blank tag. Texts that have the
same tags are tested alike by every predicate. -/
theorem tagsOf_written :
    (∀ ws : List WrittenTag,
      (trim (WrittenTag.joined ws).toList ≠ [] →
        tagsOf (WrittenTag.joined ws) = ws.map fun w => trimmed w.tag.toList) ∧
      (trim (WrittenTag.joined ws).toList = [] → tagsOf (WrittenTag.joined ws) = []) ∧
      (trim (WrittenTag.joined ws).toList = [] ↔
        ws = [] ∨ ∃ w, ws = [w] ∧ trim w.tag.toList = [])) ∧
    ∀ text text' : String, (∀ tag, tag ∈ tagsOf text ↔ tag ∈ tagsOf text') →
      ∀ p : Predicate, Reading.tags.test (some text) p = Reading.tags.test (some text') p := by
  refine ⟨fun ws => ⟨WrittenTag.tagsOf_joined, ?_, WrittenTag.trim_joined_eq_nil_iff⟩, ?_⟩
  · intro h
    rw [tagsOf, tagPieces_of_blank h, List.map_nil]
  · intro text text' h p
    exact holds_congr h p

/-- A text with blanks around its one semicolon has two empty tags, and one tag that comes first,
again and padded does not count more than once. -/
theorem tagsOf_written_two_empty :
    tagsOf (WrittenTag.joined
      [⟨" ", "", "\t", List.all_eq_true.mp rfl, by simp, List.all_eq_true.mp rfl⟩,
        ⟨"", " ", "", by simp, by simp, by simp⟩]) = ["", ""] ∧
    Reading.tags.test (some "b; a ;\u00a0b") (.oneOf ["c", "b"]) =
      Reading.tags.test (some "a;b") (.oneOf ["c", "b"]) := by
  refine ⟨(tagsOf_written.1 _).1 (by decide), tagsOf_written.2 _ _ ?_ _⟩
  have hfirst : tagsOf "b; a ;\u00a0b" = ["b", "a", "b"] := by decide
  have hsecond : tagsOf "a;b" = ["a", "b"] := by decide
  rw [hfirst, hsecond]
  simp [or_comm]

end ClusterQuery
