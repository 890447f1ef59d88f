import Mathlib.Data.List.Basic
import ClusterQuery.Selector.Glob

/-!
# What a wildcard pattern covers

A pattern covers a text when texts can be put in the place of its wildcards so that the whole is
that text. The search takes the first occurrence of each piece and never comes back to it. No way
of filling the wildcards is lost by this: what follows any occurrence of a piece is at the end of
what follows the first one, and the next wildcard takes up the difference.
-/

namespace ClusterQuery.Glob

/-- Each piece with a gap before it: `w₁ s₁ w₂ s₂ …`. -/
def spread (gaps pieces : List (List Char)) : List Char :=
  (List.zipWith (· ++ ·) gaps pieces).flatten

/-- The pieces of a pattern with the gaps between them filled: `s₀ w₁ s₁ … wₖ sₖ`. -/
def fill : List (List Char) → List (List Char) → List Char
  | [], _ => []
  | first :: pieces, gaps => first ++ spread gaps pieces

@[simp] theorem spread_nil (gaps : List (List Char)) : spread gaps [] = [] := by
  simp [spread]

@[simp] theorem spread_cons_cons (gap piece : List Char) (gaps pieces : List (List Char)) :
    spread (gap :: gaps) (piece :: pieces) = gap ++ piece ++ spread gaps pieces := by
  simp [spread]

theorem exists_gap_of_afterFirst? {piece text rest : List Char}
    (h : afterFirst? piece text = some rest) : ∃ gap, text = gap ++ piece ++ rest := by
  induction text with
  | nil =>
      by_cases hp : piece = []
      · simp only [afterFirst?, if_pos hp, Option.some_inj] at h
        exact ⟨[], by simp [hp, ← h]⟩
      · simp [afterFirst?, hp] at h
  | cons c cs ih =>
      cases hp : piece.isPrefixOf? (c :: cs) with
      | some found =>
          simp only [afterFirst?, hp, Option.some_inj] at h
          subst h
          exact ⟨[], (List.isPrefixOf?_eq_some_iff_append_eq.mp hp).symm⟩
      | none =>
          simp only [afterFirst?, hp] at h
          obtain ⟨gap, rfl⟩ := ih h
          exact ⟨c :: gap, rfl⟩

theorem afterFirst?_append (piece rest : List Char) :
    afterFirst? piece (piece ++ rest) = some rest := by
  cases ht : piece ++ rest with
  | nil =>
      obtain ⟨rfl, rfl⟩ := List.append_eq_nil_iff.mp ht
      rfl
  | cons c cs =>
      have hp : piece.isPrefixOf? (c :: cs) = some rest :=
        List.isPrefixOf?_eq_some_iff_append_eq.mpr ht
      simp only [afterFirst?, hp]

/-- What follows any occurrence of a piece ends what follows the first one. -/
theorem afterFirst?_of_occurrence (gap piece rest : List Char) :
    ∃ skipped, afterFirst? piece (gap ++ piece ++ rest) = some (skipped ++ rest) := by
  induction gap with
  | nil => exact ⟨[], afterFirst?_append piece rest⟩
  | cons c gap ih =>
      cases hp : piece.isPrefixOf? (c :: (gap ++ piece ++ rest)) with
      | none =>
          obtain ⟨skipped, hs⟩ := ih
          exact ⟨skipped, by simpa only [List.cons_append, afterFirst?, hp] using hs⟩
      | some found =>
          have heq : piece ++ found = c :: (gap ++ piece ++ rest) :=
            List.isPrefixOf?_eq_some_iff_append_eq.mp hp
          have hlen : rest.length ≤ found.length := by
            have h := congrArg List.length heq
            simp only [List.length_append, List.length_cons] at h
            omega
          -- Both end the same text, so the shorter one ends the longer.
          have hfound : found <:+ c :: (gap ++ piece ++ rest) := ⟨piece, heq⟩
          have hrest : rest <:+ c :: (gap ++ piece ++ rest) := ⟨c :: (gap ++ piece), rfl⟩
          obtain ⟨skipped, rfl⟩ := List.suffix_of_suffix_length_le hrest hfound hlen
          exact ⟨skipped, by simp only [List.cons_append, afterFirst?, hp]⟩

theorem floats_cons_cons_iff {piece next : List Char} {pieces : List (List Char)}
    {text : List Char} : floats (piece :: next :: pieces) text ↔
      ∃ rest, afterFirst? piece text = some rest ∧ floats (next :: pieces) rest := by
  cases h : afterFirst? piece text <;> simp [floats, h]

theorem floats_iff {pieces : List (List Char)} (hne : pieces ≠ []) {text : List Char} :
    floats pieces text ↔ ∃ gaps, gaps.length = pieces.length ∧ spread gaps pieces = text := by
  induction pieces generalizing text with
  | nil => contradiction
  | cons piece pieces ih =>
      cases pieces with
      | nil =>
          simp only [floats, List.isSuffixOf_iff_suffix]
          constructor
          · rintro ⟨gap, rfl⟩
            exact ⟨[gap], rfl, by simp⟩
          · rintro ⟨gaps, hlen, rfl⟩
            obtain ⟨gap, rfl⟩ := List.length_eq_one_iff.mp hlen
            exact ⟨gap, by simp⟩
      | cons next pieces =>
          rw [floats_cons_cons_iff]
          constructor
          · rintro ⟨rest, hfirst, hrest⟩
            obtain ⟨gap, rfl⟩ := exists_gap_of_afterFirst? hfirst
            obtain ⟨gaps, hlen, rfl⟩ := (ih (by simp)).mp hrest
            exact ⟨gap :: gaps, by simp [hlen], by simp⟩
          · rintro ⟨gaps, hlen, rfl⟩
            obtain ⟨gap, gaps, rfl⟩ := List.exists_cons_of_length_eq_add_one hlen
            obtain ⟨second, gaps, rfl⟩ := List.exists_cons_of_length_eq_add_one
              (Nat.succ.inj hlen)
            obtain ⟨skipped, hs⟩ := afterFirst?_of_occurrence gap piece
              (spread (second :: gaps) (next :: pieces))
            refine ⟨_, by rw [spread_cons_cons]; exact hs, (ih (by simp)).mpr ?_⟩
            exact ⟨(skipped ++ second) :: gaps, Nat.succ.inj hlen, by simp⟩

theorem covers_iff {pieces : List (List Char)} (hne : pieces ≠ []) {text : List Char} :
    covers pieces text ↔ ∃ gaps, gaps.length + 1 = pieces.length ∧ fill pieces gaps = text := by
  obtain ⟨first, pieces, rfl⟩ := List.exists_cons_of_ne_nil hne
  cases pieces with
  | nil => simp [covers, fill]
  | cons next pieces =>
      cases hp : first.isPrefixOf? text with
      | none =>
          have hno : ∀ rest, first ++ rest ≠ text := by
            intro rest h
            rw [List.isPrefixOf?_eq_some_iff_append_eq.mpr h] at hp
            contradiction
          simp [covers, hp, fill, hno]
      | some rest =>
          obtain rfl : first ++ rest = text := List.isPrefixOf?_eq_some_iff_append_eq.mp hp
          simp [covers, hp, fill, floats_iff]

/-- A pattern that is not refused accepts the texts that come from putting a text in the place of
each of its wildcards, and no others. -/
theorem accepts_iff_exists_gaps {pattern : String} {g : Glob} (h : ofPattern? pattern = some g)
    (text : String) :
    g.accepts text ↔ ∃ gaps, gaps.length + 1 = (pattern.toList.splitOn '*').length ∧
      fill (pattern.toList.splitOn '*') gaps = text.toList := by
  obtain rfl := source_of_ofPattern? h
  exact covers_iff (List.splitOn_ne_nil '*' _)

/-- The first piece and the last one may not share a part of the text. -/
theorem not_filled_by_overlap :
    ofPattern? "ab*ba" = some ⟨"ab*ba", by decide⟩ ∧
      ¬∃ gaps, gaps.length + 1 = ("ab*ba".toList.splitOn '*').length ∧
        fill ("ab*ba".toList.splitOn '*') gaps = "aba".toList := by
  have hread : ofPattern? "ab*ba" = some ⟨"ab*ba", by decide⟩ := by decide
  refine ⟨hread, fun hfilled => ?_⟩
  have haccepts := (accepts_iff_exists_gaps hread "aba").mpr hfilled
  revert haccepts
  decide

example : accepts ⟨"a.*b**+b", by decide⟩ "a.c\nb+b+b" = true := by decide

/-- A pattern without wildcards accepts itself only. -/
theorem accepts_of_no_wildcard {g : Glob} (h : '*' ∉ g.source.toList) (text : String) :
    g.accepts text = (g.source == text) := by
  rw [accepts, pieces, List.splitOn_eq_singleton h, covers, Bool.eq_iff_iff, beq_iff_eq, beq_iff_eq,
    String.toList_inj]

end ClusterQuery.Glob
