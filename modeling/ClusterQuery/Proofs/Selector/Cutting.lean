import ClusterQuery.Proofs.Selector.Depth

/-!
# Where a text is cut

The fragments of a text, joined by commas, are the text. A comma lies between two of them exactly
when what stands before it is balanced, so every fragment starts at depth zero, every one but the
last ends there, and the commas inside a fragment stand at other depths, which may be negative.
-/

namespace ClusterQuery

/-- What stands before a part when these parts come before it. -/
def lead (parts : List (List Char)) : List Char :=
  parts.flatMap (· ++ [','])

@[simp] theorem lead_nil : lead [] = [] := rfl

@[simp] theorem lead_cons (part : List Char) (parts : List (List Char)) :
    lead (part :: parts) = part ++ ',' :: lead parts := by
  simp [lead]

theorem lead_eq_intercalate {parts : List (List Char)} (h : parts ≠ []) :
    lead parts = [','].intercalate parts ++ [','] := by
  induction parts with
  | nil => contradiction
  | cons part parts ih =>
      cases parts with
      | nil => simp
      | cons next parts => simp [List.intercalate_cons_cons, ih]

theorem intercalate_append {parts more : List (List Char)} (h : more ≠ []) :
    [','].intercalate (parts ++ more) = lead parts ++ [','].intercalate more := by
  induction parts with
  | nil => rfl
  | cons part parts ih =>
      rw [List.cons_append, List.intercalate_cons_of_ne_nil (by simp [h]), ih, lead_cons]
      simp

theorem balance_lead {parts : List (List Char)} (h : ∀ p ∈ parts, balance p = 0) :
    balance (lead parts) = 0 := by
  induction parts with
  | nil => rfl
  | cons part parts ih =>
      obtain ⟨hpart, hparts⟩ := List.forall_mem_cons.mp h
      rw [lead_cons, balance_append, balance_cons, balance_comma, hpart, ih hparts]
      rfl

theorem balance_intercalate {parts : List (List Char)} (hne : parts ≠ [])
    (h : ∀ p ∈ parts, balance p = 0) : balance ([','].intercalate parts) = 0 := by
  have hlead := balance_lead h
  rw [lead_eq_intercalate hne, balance_append, balance_comma] at hlead
  omega

/-- The depth at the start of each part of a cut, at its end, and at its commas. -/
theorem IsCut.depths {before after : List (List Char)} {part : List Char}
    (h : IsCut 0 (before ++ part :: after)) :
    balance (lead before) = 0 ∧ (after ≠ [] → balance (lead before ++ part) = 0) ∧
      ∀ a b, part = a ++ ',' :: b → balance (lead before ++ a) ≠ 0 := by
  obtain ⟨-, hinside, hbalanced⟩ := isCut_zero_iff.mp h
  rw [List.dropLast_append_of_ne_nil (by simp)] at hbalanced
  have hlead : balance (lead before) = 0 :=
    balance_lead fun p hp => hbalanced p (List.mem_append_left _ hp)
  refine ⟨hlead, ?_, ?_⟩
  · intro hafter
    obtain ⟨next, rest, rfl⟩ := List.exists_cons_of_ne_nil hafter
    rw [balance_append, hlead, hbalanced part (by simp)]
    rfl
  · intro a b hpart
    rw [balance_append, hlead]
    exact hinside part (by simp) a b hpart

theorem cut_between_iff (before after : List Char) :
    (∃ left right, left ≠ [] ∧ right ≠ [] ∧
      fragments (before ++ ',' :: after) = left ++ right ∧
      [','].intercalate left = before ∧ [','].intercalate right = after) ↔ balance before = 0 := by
  rw [fragments_of_ne_nil (by simp)]
  constructor
  · rintro ⟨left, right, hleft, hright, hparts, rfl, -⟩
    have hcut := isCut_fragmentsFrom 0 ([','].intercalate left ++ ',' :: after)
    rw [hparts] at hcut
    apply balance_intercalate hleft
    intro p hp
    apply (isCut_zero_iff.mp hcut).2.2
    rw [List.dropLast_append_of_ne_nil hright]
    exact List.mem_append_left _ hp
  · intro hbalance
    exact ⟨fragmentsFrom 0 before, fragmentsFrom 0 after, fragmentsFrom_ne_nil 0 before,
      fragmentsFrom_ne_nil 0 after, fragmentsFrom_append_comma (by rw [hbalance]; rfl) after,
      intercalate_fragmentsFrom 0 before, intercalate_fragmentsFrom 0 after⟩

/-- The comma between these two parts of a text joins two of its fragments. -/
def JoiningComma (before after : String) : Prop :=
  ∃ left right, left ≠ [] ∧ right ≠ [] ∧ fragmentsOf (before ++ "," ++ after) = left ++ right ∧
    ",".intercalate left = before ∧ ",".intercalate right = after

/-- What stands before a fragment when these fragments come before it. -/
def leadText (fragments : List String) : String :=
  String.join (fragments.map (· ++ ","))

theorem toList_leadText (parts : List String) :
    (leadText parts).toList = lead (parts.map String.toList) := by
  simp [leadText, lead, List.flatMap_map]

theorem map_toList_fragmentsOf (text : String) :
    (fragmentsOf text).map String.toList = fragments text.toList := by
  simp [fragmentsOf]

theorem toList_intercalate_comma (parts : List String) :
    (",".intercalate parts).toList = [','].intercalate (parts.map String.toList) := by
  simp

theorem intercalate_fragmentsOf (text : String) : ",".intercalate (fragmentsOf text) = text := by
  rw [← String.toList_inj, toList_intercalate_comma, map_toList_fragmentsOf]
  by_cases h : text.toList = []
  · rw [h]
    rfl
  · rw [fragments_of_ne_nil h, intercalate_fragmentsFrom]

theorem isCut_fragmentsOf {text : String} (h : fragmentsOf text ≠ []) :
    IsCut 0 ((fragmentsOf text).map String.toList) := by
  rw [map_toList_fragmentsOf]
  by_cases hnil : text.toList = []
  · simp [fragmentsOf, hnil] at h
  · rw [fragments_of_ne_nil hnil]
    exact isCut_fragmentsFrom 0 text.toList

theorem joiningComma_iff (before after : String) :
    JoiningComma before after ↔ balance before.toList = 0 := by
  have htext : (before ++ "," ++ after).toList = before.toList ++ ',' :: after.toList := by simp
  rw [← cut_between_iff before.toList after.toList]
  constructor
  · rintro ⟨left, right, hleft, hright, hparts, rfl, rfl⟩
    refine ⟨left.map String.toList, right.map String.toList, by simpa, by simpa, ?_,
      (toList_intercalate_comma left).symm, (toList_intercalate_comma right).symm⟩
    rw [← htext, ← map_toList_fragmentsOf, hparts, List.map_append]
  · rintro ⟨left, right, hleft, hright, hparts, hbefore, hafter⟩
    refine ⟨left.map String.ofList, right.map String.ofList, by simpa, by simpa, ?_, ?_, ?_⟩
    · rw [fragmentsOf, htext, hparts, List.map_append]
    · rw [← String.toList_inj, toList_intercalate_comma, ← hbefore]
      simp
    · rw [← String.toList_inj, toList_intercalate_comma, ← hafter]
      simp

section

variable {text part : String} {before after : List String}

theorem eq_leadText_append (h : fragmentsOf text = before ++ part :: after) :
    text = leadText before ++ ",".intercalate (part :: after) := by
  rw [← String.toList_inj, ← intercalate_fragmentsOf text, h, toList_intercalate_comma,
    List.map_append, List.map_cons, intercalate_append (by simp), String.toList_append,
    toList_leadText, toList_intercalate_comma, List.map_cons]

theorem depths_of_fragment (h : fragmentsOf text = before ++ part :: after) :
    balance (leadText before).toList = 0 ∧
    (after ≠ [] → balance (leadText before ++ part).toList = 0) ∧
    ∀ a b, part = a ++ "," ++ b → balance (leadText before ++ a).toList ≠ 0 := by
  have hne : fragmentsOf text ≠ [] := by simp [h]
  have hcut := isCut_fragmentsOf hne
  rw [h, List.map_append, List.map_cons] at hcut
  obtain ⟨hstart, hend, hcommas⟩ := hcut.depths
  simp only [String.toList_append, toList_leadText]
  refine ⟨hstart, fun hafter => hend (by simpa), ?_⟩
  rintro a b rfl
  exact hcommas a.toList b.toList (by simp)

end

/-- A text is cut at its commas of depth zero and nowhere else, and nothing of it is lost. Only
the empty text has no fragments. -/
theorem fragmentsOf_cut_at_depth_zero (text : String) :
    (fragmentsOf text = [] ↔ text = "") ∧ ",".intercalate (fragmentsOf text) = text ∧
    (∀ before after, text = before ++ "," ++ after →
      (JoiningComma before after ↔ before.toList.count '(' = before.toList.count ')')) ∧
    ∀ before part after, fragmentsOf text = before ++ part :: after →
      text = leadText before ++ ",".intercalate (part :: after) ∧
      balance (leadText before).toList = 0 ∧
      (after ≠ [] → balance (leadText before ++ part).toList = 0) ∧
      ∀ a b, part = a ++ "," ++ b → balance (leadText before ++ a).toList ≠ 0 := by
  refine ⟨⟨?_, ?_⟩, intercalate_fragmentsOf text, ?_, ?_⟩
  · intro h
    rw [← intercalate_fragmentsOf text, h]
    rfl
  · rintro rfl
    rfl
  · rintro before after -
    rw [joiningComma_iff, balance_eq_zero_iff]
  · intro before part after h
    exact ⟨eq_leadText_append h, depths_of_fragment h⟩

example : fragmentsOf "a=),b,c=(x,y),d" = ["a=),b,c=(x", "y),d"] := by decide

end ClusterQuery
