import Mathlib.Tactic.TFAE
import ClusterQuery.Selector.Basic
import ClusterQuery.Proofs.Failure
import ClusterQuery.Proofs.Selector.Printing

/-!
# Selectors read back from their texts

A selector is printable when its conditions are readable, no comma of a condition's text stands
at depth zero, and every text but the last ends there. These are exactly the selectors that some
text gives, and exactly those that are read back from their own text. A selector that is read
from several texts is printable exactly when every text that is not blank, the last such one
excepted, is balanced.
-/

namespace ClusterQuery

namespace Selector

/-- The selectors whose texts are cut again into the texts of their conditions. -/
structure Printable (s : Selector) : Prop where
  readable : ∀ c ∈ s.conditions, c.Readable
  commas : ∀ c ∈ s.conditions, CommasInside 0 c.text.toList
  balanced : ∀ c ∈ s.conditions.dropLast, balance c.text.toList = 0

def parts (s : Selector) : List (List Char) :=
  s.conditions.map fun c => c.text.toList

theorem toList_text (s : Selector) : s.text.toList = [','].intercalate s.parts := by
  simp [text, parts, Function.comp_def]

theorem isCut_parts_iff {s : Selector} (hne : s.conditions ≠ []) : IsCut 0 s.parts ↔
    (∀ c ∈ s.conditions, CommasInside 0 c.text.toList) ∧
      ∀ c ∈ s.conditions.dropLast, balance c.text.toList = 0 := by
  rw [isCut_zero_iff]
  simp [parts, hne, ← List.map_dropLast]

theorem readConditions_of_blank {t : String} (h : trim t.toList = []) :
    readConditions t = .ok [] := by
  simp [readConditions, h]

theorem readConditions_eq_ok_iff {t : String} (h : trim t.toList ≠ []) {cs : List Condition} :
    readConditions t = .ok cs ↔ List.Forall₂ (fun part c => Condition.ofChars (trim part) = .ok c)
      (fragmentsFrom 0 t.toList) cs := by
  have hne : t.toList ≠ [] := by
    intro hnil
    simp [hnil] at h
  rw [readConditions, if_neg h, fragments_of_ne_nil hne, mapM_eq_ok_iff]

theorem ofTexts_eq_ok_iff {texts : List String} {s : Selector} : ofTexts texts = .ok s ↔
    ∃ groups, List.Forall₂ (fun t g => readConditions t = .ok g) texts groups ∧
      s.conditions = groups.flatten := by
  simp only [ofTexts, bind_eq_ok_iff, mapM_eq_ok_iff]
  constructor
  · rintro ⟨groups, hg, hs⟩
    cases hs
    exact ⟨groups, hg, rfl⟩
  · rintro ⟨groups, hg, hs⟩
    exact ⟨groups, hg, by rw [← hs]; rfl⟩

theorem ofText_eq_ok_iff {t : String} {s : Selector} :
    ofText t = .ok s ↔ readConditions t = .ok s.conditions := by
  simp [ofText, ofTexts_eq_ok_iff, List.forall₂_cons_left_iff]

/-- What a text that is not blank is read as: readable conditions, one for each fragment, whose
texts have the marks of the fragments. -/
theorem readable_of_readConditions {t : String} {cs : List Condition} (h : trim t.toList ≠ [])
    (hr : readConditions t = .ok cs) : (∀ c ∈ cs, c.Readable) ∧
      cs.map (fun c => marks c.text.toList) = (fragmentsFrom 0 t.toList).map marks := by
  rw [readConditions_eq_ok_iff h] at hr
  generalize fragmentsFrom 0 t.toList = parts at hr
  induction hr with
  | nil => simp
  | @cons part c parts cs hc _ ih =>
      obtain ⟨hread, hmarks⟩ := readable_of_ofChars hc
      rw [List.map_cons, List.map_cons, ih.2, hmarks, marks_trim]
      exact ⟨List.forall_mem_cons.mpr ⟨hread, ih.1⟩, rfl⟩

theorem isCut_parts_of_ofText {t : String} {s : Selector} (h : trim t.toList ≠ [])
    (hr : ofText t = .ok s) : IsCut 0 s.parts := by
  have hmarks := (readable_of_readConditions h (ofText_eq_ok_iff.mp hr)).2
  rw [← isCut_map_marks, parts, List.map_map]
  change IsCut 0 (s.conditions.map fun c => marks c.text.toList)
  rw [hmarks, isCut_map_marks]
  exact isCut_fragmentsFrom 0 t.toList

theorem marks_text_of_ofText {t : String} {s : Selector} (h : trim t.toList ≠ [])
    (hr : ofText t = .ok s) : marks s.text.toList = marks t.toList := by
  have hmarks := (readable_of_readConditions h (ofText_eq_ok_iff.mp hr)).2
  have hparts : s.parts.map marks = (fragmentsFrom 0 t.toList).map marks := by
    rw [← hmarks, parts, List.map_map]
    rfl
  rw [toList_text, marks_intercalate, hparts, ← marks_intercalate, intercalate_fragmentsFrom]

theorem conditions_ne_nil_of_ofText {t : String} {s : Selector} (h : trim t.toList ≠ [])
    (hr : ofText t = .ok s) : s.conditions ≠ [] := by
  intro hnil
  have hcut := isCut_parts_of_ofText h hr
  simp [parts, hnil, IsCut] at hcut

theorem printable_of_ofText {t : String} {s : Selector} (hr : ofText t = .ok s) :
    s.Printable := by
  by_cases h : trim t.toList = []
  · rw [ofText_eq_ok_iff, readConditions_of_blank h] at hr
    cases hs : s.conditions with
    | nil => constructor <;> simp [hs]
    | cons c cs => simp [hs] at hr
  · obtain ⟨hcommas, hbalanced⟩ :=
      (isCut_parts_iff (conditions_ne_nil_of_ofText h hr)).mp (isCut_parts_of_ofText h hr)
    exact ⟨(readable_of_readConditions h (ofText_eq_ok_iff.mp hr)).1, hcommas, hbalanced⟩

theorem trim_text_ne_nil {s : Selector} (hne : s.conditions ≠ [])
    (h : ∀ c ∈ s.conditions, c.Readable) : trim s.text.toList ≠ [] := by
  obtain ⟨c, cs, hs⟩ := List.exists_cons_of_ne_nil hne
  have hfield := (h c (by simp [hs])).field
  -- The text opens with the field name of the first condition.
  obtain ⟨a, name, ha⟩ := List.exists_cons_of_ne_nil hfield.1
  have hmem : a ∈ s.text.toList := by
    rw [toList_text, parts, hs]
    cases cs with
    | nil => simp [Condition.toList_text, ha]
    | cons d ds => simp [Condition.toList_text, ha]
  intro hblank
  have hb := trim_eq_nil_iff.mp hblank a hmem
  rw [isBlank_of_isFieldChar (hfield.2 a (by simp [ha]))] at hb
  contradiction

theorem ofText_text {s : Selector} (h : s.Printable) : ofText s.text = .ok s := by
  rw [ofText_eq_ok_iff]
  by_cases hnil : s.conditions = []
  · have ht : trim s.text.toList = [] := by simp [text, hnil]
    rw [readConditions_of_blank ht, hnil]
  · have hcut : IsCut 0 s.parts := (isCut_parts_iff hnil).mpr ⟨h.commas, h.balanced⟩
    have ht := trim_text_ne_nil hnil h.readable
    rw [readConditions_eq_ok_iff ht, toList_text, fragmentsFrom_intercalate hcut, parts,
      List.forall₂_map_left_iff, List.forall₂_same]
    intro c hc
    have hread := h.readable c hc
    rw [trim_eq_self (unpadded_text hread)]
    exact ofChars_text hread

/-- The selectors that some text gives are those that their own text gives back, and these are
the printable ones. -/
theorem printable_tfae (s : Selector) :
    [∃ t, ofText t = .ok s, ofText s.text = .ok s, s.Printable].TFAE := by
  tfae_have 1 → 3 := by
    rintro ⟨t, ht⟩
    exact printable_of_ofText ht
  tfae_have 3 → 2 := ofText_text
  tfae_have 2 → 1 := fun h => ⟨s.text, h⟩
  tfae_finish

theorem balance_getLast_of_ofText {t : String} {s : Selector} (h : trim t.toList ≠ [])
    (hr : ofText t = .ok s) (hne : s.conditions ≠ []) :
    balance (s.conditions.getLast hne).text.toList = balance t.toList := by
  have hlast := balance_getLast (isCut_parts_of_ofText h hr) (by simpa [parts] using hne)
  have hwhole : balance s.text.toList = balance t.toList := by
    rw [← balance_marks, marks_text_of_ofText h hr, balance_marks]
  rw [← toList_text, hwhole] at hlast
  simpa [parts, List.getLast_map] using hlast

theorem all_balanced_iff {t : String} {s : Selector} (h : trim t.toList ≠ [])
    (hr : ofText t = .ok s) :
    (∀ c ∈ s.conditions, balance c.text.toList = 0) ↔ balance t.toList = 0 := by
  have hne := conditions_ne_nil_of_ofText h hr
  have hlast := balance_getLast_of_ofText h hr hne
  constructor
  · intro hall
    rw [← hlast]
    exact hall _ (List.getLast_mem hne)
  · intro ht c hc
    rw [← List.dropLast_append_getLast hne, List.mem_append, List.mem_singleton] at hc
    rcases hc with hc | rfl
    · exact (printable_of_ofText hr).balanced c hc
    · rw [hlast, ht]

/-- The texts that are not blank; only these give conditions. -/
def nonblank (texts : List String) : List String :=
  texts.filter fun t => trim t.toList ≠ []

section Groups

variable {texts : List String} {groups : List (List Condition)}

theorem flatten_groups_eq_nil_iff
    (h : List.Forall₂ (fun t g => readConditions t = .ok g) texts groups) :
    groups.flatten = [] ↔ nonblank texts = [] := by
  induction h with
  | nil => simp [nonblank]
  | @cons t g texts groups hg _ ih =>
      by_cases hb : trim t.toList = []
      · rw [readConditions_of_blank hb] at hg
        cases hg
        simpa [nonblank, hb] using ih
      · have hne := conditions_ne_nil_of_ofText (s := ⟨g⟩) hb (ofText_eq_ok_iff.mpr hg)
        have hs : nonblank (t :: texts) = t :: nonblank texts := by simp [nonblank, hb]
        rw [hs, List.flatten_cons, List.append_eq_nil_iff]
        constructor
        · intro hnil
          exact absurd hnil.1 hne
        · intro hnil
          contradiction

theorem dropLast_balanced_iff
    (h : List.Forall₂ (fun t g => readConditions t = .ok g) texts groups) :
    (∀ c ∈ groups.flatten.dropLast, balance c.text.toList = 0) ↔
      ∀ t ∈ (nonblank texts).dropLast, balance t.toList = 0 := by
  induction h with
  | nil => simp [nonblank]
  | @cons t g texts groups hg hrest ih =>
      by_cases hb : trim t.toList = []
      · rw [readConditions_of_blank hb] at hg
        cases hg
        simpa [nonblank, hb] using ih
      · have hr : ofText t = .ok ⟨g⟩ := ofText_eq_ok_iff.mpr hg
        have hs : nonblank (t :: texts) = t :: nonblank texts := by simp [nonblank, hb]
        rw [hs, List.flatten_cons]
        -- The last condition of this text is dropped only where no later text gives any.
        by_cases hnil : groups.flatten = []
        · have hlast := (printable_of_ofText hr).balanced
          simpa [hnil, (flatten_groups_eq_nil_iff hrest).mp hnil] using hlast
        · have hs' : nonblank texts ≠ [] := by
            rwa [ne_eq, ← flatten_groups_eq_nil_iff hrest]
          rw [List.dropLast_append_of_ne_nil hnil, List.dropLast_cons_of_ne_nil hs',
            List.forall_mem_append, List.forall_mem_cons, ih]
          exact and_congr_left fun _ => all_balanced_iff hb hr

theorem printable_of_readConditions
    (h : List.Forall₂ (fun t g => readConditions t = .ok g) texts groups) :
    ∀ g ∈ groups, Printable ⟨g⟩ := by
  induction h with
  | nil => simp
  | cons hg _ ih =>
      exact List.forall_mem_cons.mpr ⟨printable_of_ofText (ofText_eq_ok_iff.mpr hg), ih⟩

end Groups

/-- A selector read from several texts is read back from its own text exactly when each text
that is not blank, the last such one excepted, has as many opening as closing parentheses. -/
theorem ofText_text_iff_balanced {texts : List String} {s : Selector}
    (h : ofTexts texts = .ok s) : ofText s.text = .ok s ↔
      ∀ t ∈ (nonblank texts).dropLast, t.toList.count '(' = t.toList.count ')' := by
  obtain ⟨groups, hgroups, hs⟩ := ofTexts_eq_ok_iff.mp h
  have hparts (c : Condition) (hc : c ∈ s.conditions) :
      c.Readable ∧ CommasInside 0 c.text.toList := by
    rw [hs] at hc
    obtain ⟨g, hg, hcg⟩ := List.mem_flatten.mp hc
    have hp := printable_of_readConditions hgroups g hg
    exact ⟨hp.readable c hcg, hp.commas c hcg⟩
  have hprintable : s.Printable ↔ ∀ c ∈ s.conditions.dropLast, balance c.text.toList = 0 := by
    constructor
    · exact fun hp => hp.balanced
    · intro hb
      exact ⟨fun c hc => (hparts c hc).1, fun c hc => (hparts c hc).2, hb⟩
  simp only [← balance_eq_zero_iff]
  rw [← dropLast_balanced_iff hgroups, ← hs, ← hprintable]
  exact ⟨printable_of_ofText, ofText_text⟩

/-- The parenthesis that the first text leaves open takes in the comma before the second one. -/
theorem not_read_back_of_open_parenthesis :
    ofTexts ["a=(", " ", "b=1"] = .ok ⟨[⟨"a", .equal "("⟩, ⟨"b", .equal "1"⟩]⟩ ∧
      ofText (text ⟨[⟨"a", .equal "("⟩, ⟨"b", .equal "1"⟩]⟩) ≠
        .ok ⟨[⟨"a", .equal "("⟩, ⟨"b", .equal "1"⟩]⟩ := by
  have hread : ofTexts ["a=(", " ", "b=1"] = .ok ⟨[⟨"a", .equal "("⟩, ⟨"b", .equal "1"⟩]⟩ := by
    decide
  refine ⟨hread, ?_⟩
  rw [ne_eq, ofText_text_iff_balanced hread]
  decide

end Selector

end ClusterQuery
