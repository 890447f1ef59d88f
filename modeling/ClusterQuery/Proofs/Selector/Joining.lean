import ClusterQuery.Proofs.Selector.RoundTrip
import ClusterQuery.Proofs.Selector.Shape

/-!
# Several texts and one

Several texts are read as the fragments of those that are not blank, one after another, and the
first fragment that is no condition decides the error. Where each text but the last is balanced,
the texts joined by commas have these same fragments, so they are read as the one text is.
-/

namespace ClusterQuery

theorem fragments_append_comma {cs rest : List Char} (hcs : cs ≠ []) (hrest : rest ≠ [])
    (h : balance cs = 0) : fragments (cs ++ ',' :: rest) = fragments cs ++ fragments rest := by
  have hjoined : cs ++ ',' :: rest ≠ [] := by simp
  rw [fragments_of_ne_nil hjoined, fragments_of_ne_nil hcs, fragments_of_ne_nil hrest]
  exact fragmentsFrom_append_comma (by rw [h]; rfl) rest

theorem fragments_intercalate {parts : List (List Char)} (hne : ∀ p ∈ parts, p ≠ [])
    (h : ∀ p ∈ parts.dropLast, balance p = 0) :
    fragments ([','].intercalate parts) = parts.flatMap fragments := by
  induction parts with
  | nil => rfl
  | cons part parts ih =>
      cases parts with
      | nil => simp
      | cons next parts =>
          obtain ⟨hpart, hparts⟩ := List.forall_mem_cons.mp hne
          rw [List.dropLast_cons_cons] at h
          obtain ⟨hzero, hzeros⟩ := List.forall_mem_cons.mp h
          have hrest : [','].intercalate (next :: parts) ≠ [] := by
            cases parts with
            | nil => simpa using hparts
            | cons _ _ => simp [List.intercalate_cons_cons]
          rw [List.intercalate_cons_cons, List.append_assoc, List.singleton_append,
            fragments_append_comma hpart hrest hzero, ih hparts hzeros]
          rfl

namespace Selector

/-- Reads fragments, one after another. -/
def readFragments (parts : List (List Char)) : Except SelectorError (List Condition) :=
  parts.mapM fun part => Condition.ofChars (trim part)

theorem readFragments_append (parts more : List (List Char)) :
    readFragments (parts ++ more) = do
      let cs ← readFragments parts
      let ds ← readFragments more
      return cs ++ ds :=
  List.mapM_append

theorem ofTexts_cons (t : String) (texts : List String) : ofTexts (t :: texts) = do
    let cs ← readConditions t
    let s ← ofTexts texts
    return ⟨cs ++ s.conditions⟩ := by
  simp only [ofTexts, List.mapM_cons, bind_assoc, pure_bind, List.flatten_cons]

theorem readConditions_of_not_blank {t : String} (h : trim t.toList ≠ []) :
    readConditions t = readFragments (fragments t.toList) := by
  rw [readConditions, if_neg h]
  rfl

theorem ofTexts_eq_readFragments (texts : List String) : ofTexts texts = do
    let cs ← readFragments ((nonblank texts).flatMap fun t => fragments t.toList)
    return ⟨cs⟩ := by
  induction texts with
  | nil => rfl
  | cons t texts ih =>
      by_cases hb : trim t.toList = []
      · have hs : nonblank (t :: texts) = nonblank texts := by simp [nonblank, hb]
        rw [ofTexts_cons, readConditions_of_blank hb, hs, ← ih]
        cases ofTexts texts <;> rfl
      · have hs : nonblank (t :: texts) = t :: nonblank texts := by simp [nonblank, hb]
        rw [ofTexts_cons, readConditions_of_not_blank hb, hs, List.flatMap_cons,
          readFragments_append, ih]
        simp only [bind_assoc, pure_bind]

/-- Reading fails with the error of the first fragment, in the order of the texts, that is no
condition. -/
theorem ofTexts_eq_error_iff {texts : List String} {e : SelectorError} :
    ofTexts texts = .error e ↔ ∃ before fragment after,
      ((nonblank texts).flatMap fun t => fragments t.toList) = before ++ fragment :: after ∧
      (∀ b ∈ before, ∃ c, Condition.ofChars (trim b) = .ok c) ∧ Refused (trim fragment) e := by
  have herror : ofTexts texts = .error e ↔
      readFragments ((nonblank texts).flatMap fun t => fragments t.toList) = .error e := by
    rw [ofTexts_eq_readFragments]
    cases readFragments ((nonblank texts).flatMap fun t => fragments t.toList) <;>
      simp [bind, Except.bind, pure, Except.pure]
  rw [herror, readFragments, mapM_eq_error_iff]
  simp only [ofChars_eq_error_iff]

theorem nonblank_eq_self {texts : List String} (h : ∀ t ∈ texts, trim t.toList ≠ []) :
    nonblank texts = texts := by
  simpa [nonblank] using h

theorem trim_intercalate_ne_nil {texts : List String} (hne : texts ≠ [])
    (h : ∀ t ∈ texts, trim t.toList ≠ []) : trim (",".intercalate texts).toList ≠ [] := by
  obtain ⟨t, texts, rfl⟩ := List.exists_cons_of_ne_nil hne
  intro hblank
  rw [trim_eq_nil_iff] at hblank
  apply h t (by simp)
  rw [trim_eq_nil_iff]
  intro c hc
  apply hblank
  cases texts with
  | nil => simpa using hc
  | cons next texts => simp [hc]

theorem fragments_toList_intercalate {texts : List String}
    (hblank : ∀ t ∈ texts, trim t.toList ≠ [])
    (hbalanced : ∀ t ∈ texts.dropLast, t.toList.count '(' = t.toList.count ')') :
    fragments (",".intercalate texts).toList = texts.flatMap fun t => fragments t.toList := by
  have hne : ∀ p ∈ texts.map String.toList, p ≠ [] := by
    intro p hp
    obtain ⟨t, ht, rfl⟩ := List.mem_map.mp hp
    intro hnil
    apply hblank t ht
    rw [hnil, trim_nil]
  have hzero : ∀ p ∈ (texts.map String.toList).dropLast, balance p = 0 := by
    intro p hp
    rw [← List.map_dropLast] at hp
    obtain ⟨t, ht, rfl⟩ := List.mem_map.mp hp
    exact balance_eq_zero_iff.mpr (hbalanced t ht)
  have hjoined : (",".intercalate texts).toList = [','].intercalate (texts.map String.toList) := by
    simp
  rw [hjoined, fragments_intercalate hne hzero, List.flatMap_map]

/-- Texts of which each but the last is balanced are read as their text joined by commas is: as
the same conditions, or with the error of the first fragment of that text that is no condition. -/
theorem ofText_intercalate {texts : List String} (hblank : ∀ t ∈ texts, trim t.toList ≠ [])
    (hbalanced : ∀ t ∈ texts.dropLast, t.toList.count '(' = t.toList.count ')') :
    ofText (",".intercalate texts) = ofTexts texts ∧
      ∀ e, ofTexts texts = .error e ↔ ∃ before fragment after,
        fragments (",".intercalate texts).toList = before ++ fragment :: after ∧
        (∀ b ∈ before, ∃ c, Condition.ofChars (trim b) = .ok c) ∧ Refused (trim fragment) e := by
  have hfragments := fragments_toList_intercalate hblank hbalanced
  constructor
  · by_cases hne : texts = []
    · subst hne
      decide
    · have hone : nonblank [",".intercalate texts] = [",".intercalate texts] :=
        nonblank_eq_self (by simpa using trim_intercalate_ne_nil hne hblank)
      rw [ofText, ofTexts_eq_readFragments, ofTexts_eq_readFragments, hone,
        nonblank_eq_self hblank, List.flatMap_singleton, hfragments]
  · intro e
    rw [ofTexts_eq_error_iff, nonblank_eq_self hblank, hfragments]

/-- The first text falls below depth zero at its comma and comes back, so it stays one fragment;
the last one, whose parenthesis stays open, is refused. -/
theorem ofText_intercalate_below_zero :
    ofText (",".intercalate ["a=x),b=(", " c in (1"]) = ofTexts ["a=x),b=(", " c in (1"] ∧
      ofTexts ["a=x),b=(", " c in (1"] = .error (.malformed "c in (1") :=
  ⟨(ofText_intercalate (by decide) (by decide)).1, by decide⟩

end Selector

end ClusterQuery
