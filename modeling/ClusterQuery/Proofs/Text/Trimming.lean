import Mathlib.Data.List.DropRight
import ClusterQuery.Text.Blank

/-!
# What trimming leaves

A text is unpadded when it neither opens nor closes with a blank character. Trimming makes every
text unpadded and leaves those that are as they were. What it takes away at either end is blank,
so a count that passes over blank characters does not change, and blank characters put around a
text make no difference to what trimming leaves of it.

A text is solid once all its blank characters are gone, those inside included.
-/

namespace ClusterQuery

/-- No blank character stands at either end. -/
def Unpadded (cs : List Char) : Prop :=
  (∀ c ∈ cs.head?, isBlank c = false) ∧ ∀ c ∈ cs.getLast?, isBlank c = false

theorem trimEnd_eq_rdropWhile (cs : List Char) : trimEnd cs = cs.rdropWhile isBlank := rfl

theorem trimStart_eq_self {cs : List Char} (h : ∀ c ∈ cs.head?, isBlank c = false) :
    trimStart cs = cs := by
  cases cs with
  | nil => rfl
  | cons c cs => simp [trimStart, h c (by simp)]

theorem trimEnd_eq_self {cs : List Char} (h : ∀ c ∈ cs.getLast?, isBlank c = false) :
    trimEnd cs = cs := by
  rw [trimEnd_eq_rdropWhile, List.rdropWhile_eq_self_iff]
  intro hne
  simp [h (cs.getLast hne) (by simp [List.getLast?_eq_some_getLast hne])]

theorem trim_eq_self {cs : List Char} (h : Unpadded cs) : trim cs = cs := by
  rw [trim, trimStart_eq_self h.1, trimEnd_eq_self h.2]

theorem head?_trimStart (cs : List Char) : ∀ c ∈ (trimStart cs).head?, isBlank c = false := by
  intro c hc
  have h := List.head?_dropWhile_not isBlank cs
  rw [trimStart, Option.mem_def] at hc
  rwa [hc] at h

theorem unpadded_trim (cs : List Char) : Unpadded (trim cs) := by
  have hp : trim cs <+: trimStart cs := List.rdropWhile_prefix isBlank _
  constructor
  · intro c hc
    obtain ⟨rest, hrest⟩ := hp
    apply head?_trimStart cs
    rw [← hrest, Option.mem_def, List.head?_append_of_ne_nil]
    · exact hc
    · rintro hnil
      simp [hnil] at hc
  · intro c hc
    have hne : trim cs ≠ [] := by
      rintro hnil
      simp [hnil] at hc
    have hlast := List.rdropWhile_last_not isBlank (trimStart cs) hne
    rw [Option.mem_def, List.getLast?_eq_some_getLast hne, Option.some_inj] at hc
    rw [← hc]
    exact Bool.eq_false_iff.mpr hlast

/-- Trimming takes blank characters only, from the two ends only. -/
theorem exists_padding (cs : List Char) : ∃ before after, cs = before ++ trim cs ++ after ∧
    (∀ c ∈ before, isBlank c) ∧ ∀ c ∈ after, isBlank c := by
  refine ⟨cs.takeWhile isBlank, (trimStart cs).rtakeWhile isBlank, ?_, ?_, ?_⟩
  · rw [List.append_assoc, trim, trimEnd_eq_rdropWhile, List.rdropWhile_append_rtakeWhile,
      trimStart_append_dropped]
  · intro c hc
    exact List.mem_takeWhile_imp hc
  · intro c hc
    exact List.mem_rtakeWhile_imp hc

theorem filter_trim {p : Char → Bool} (hp : ∀ c, isBlank c → p c = false) (cs : List Char) :
    (trim cs).filter p = cs.filter p := by
  obtain ⟨before, after, hcs, hb, ha⟩ := exists_padding cs
  have hbefore : before.filter p = [] := by simpa using fun c hc => hp c (hb c hc)
  have hafter : after.filter p = [] := by simpa using fun c hc => hp c (ha c hc)
  conv_rhs => rw [hcs]
  simp [hbefore, hafter]

theorem trim_eq_nil_iff {cs : List Char} : trim cs = [] ↔ ∀ c ∈ cs, isBlank c := by
  constructor
  · intro h
    obtain ⟨before, after, hcs, hb, ha⟩ := exists_padding cs
    rw [hcs, h, List.append_nil]
    intro c hc
    rcases List.mem_append.mp hc with hc | hc
    · exact hb c hc
    · exact ha c hc
  · intro h
    have hs : trimStart cs = [] := List.dropWhile_eq_nil_iff.mpr h
    simp [trim, hs]

/-- The second text is the first one with blank characters put around it. -/
def Padded (cs ds : List Char) : Prop :=
  ∃ before after, ds = before ++ cs ++ after ∧ (∀ c ∈ before, isBlank c) ∧ ∀ c ∈ after, isBlank c

theorem trimEnd_append_blank {after : List Char} (h : ∀ c ∈ after, isBlank c) (cs : List Char) :
    trimEnd (cs ++ after) = trimEnd cs := by
  have hreverse : ∀ c ∈ after.reverse, isBlank c := by simpa using h
  rw [trimEnd, trimEnd, List.reverse_append, List.dropWhile_append_of_pos hreverse]

theorem trim_of_padded {cs ds : List Char} (h : Padded cs ds) : trim ds = trim cs := by
  obtain ⟨before, after, rfl, hbefore, hafter⟩ := h
  have hstart : trimStart (before ++ cs ++ after) = trimStart (cs ++ after) := by
    rw [trimStart, trimStart, List.append_assoc, List.dropWhile_append_of_pos hbefore]
  rw [trim, trim, hstart]
  by_cases hcs : trimStart cs = []
  · have hblank : ∀ c ∈ cs, isBlank c := List.dropWhile_eq_nil_iff.mp hcs
    have hall : trimStart (cs ++ after) = [] :=
      List.dropWhile_eq_nil_iff.mpr (List.forall_mem_append.mpr ⟨hblank, hafter⟩)
    rw [hall, hcs]
  · have hsplit : trimStart (cs ++ after) = trimStart cs ++ after := by
      rw [trimStart, List.dropWhile_append, if_neg (by simpa [trimStart] using hcs)]
      rfl
    rw [hsplit, trimEnd_append_blank hafter]

theorem padded_trimEnd (cs : List Char) : Padded (trimEnd cs) cs := by
  refine ⟨[], cs.rtakeWhile isBlank, ?_, by simp, fun c hc => List.mem_rtakeWhile_imp hc⟩
  rw [List.nil_append, trimEnd_eq_rdropWhile, List.rdropWhile_append_rtakeWhile]

theorem trimEnd_append_of_ne_nil (cs : List Char) {ds : List Char} (h : trimEnd ds ≠ []) :
    trimEnd (cs ++ ds) = cs ++ trimEnd ds := by
  have hne : ds.reverse.dropWhile isBlank ≠ [] := by simpa [trimEnd] using h
  rw [trimEnd, trimEnd, List.reverse_append, List.dropWhile_append, if_neg (by simpa using hne)]
  simp

/-- Trimming takes nothing of an unpadded beginning. -/
theorem trim_append_of_unpadded {cs : List Char} (hne : cs ≠ []) (h : Unpadded cs)
    (ds : List Char) : trim (cs ++ ds) = cs ++ trimEnd ds := by
  have hstart : trimStart (cs ++ ds) = cs ++ ds := by
    apply trimStart_eq_self
    rw [List.head?_append_of_ne_nil _ hne]
    exact h.1
  rw [trim, hstart]
  by_cases hds : trimEnd ds = []
  · have hblank : ∀ c ∈ ds, isBlank c := by simpa [trimEnd] using hds
    rw [trimEnd_append_blank hblank, hds, List.append_nil, trimEnd_eq_self h.2]
  · exact trimEnd_append_of_ne_nil cs hds

/-- The text without its blank characters. -/
def solid (cs : List Char) : List Char :=
  cs.filter fun c => !isBlank c

theorem solid_append (cs ds : List Char) : solid (cs ++ ds) = solid cs ++ solid ds :=
  List.filter_append ..

theorem mem_solid_iff {c : Char} {cs : List Char} : c ∈ solid cs ↔ c ∈ cs ∧ isBlank c = false := by
  simp [solid]

theorem solid_eq_nil_iff {cs : List Char} : solid cs = [] ↔ ∀ c ∈ cs, isBlank c := by
  simp [solid]

theorem solid_trim (cs : List Char) : solid (trim cs) = solid cs :=
  filter_trim (fun c hc => by simp [hc]) cs

theorem solid_of_padded {cs ds : List Char} (h : Padded cs ds) : solid ds = solid cs := by
  rw [← solid_trim, trim_of_padded h, solid_trim]

end ClusterQuery
