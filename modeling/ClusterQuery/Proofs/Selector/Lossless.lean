import ClusterQuery.Proofs.Selector.Spacing

/-!
# What reading keeps of a text

The text of a selector holds what is solid in the texts it was read from, in the same order. The
commas between the fragments are there again, those at which a text was cut as well as those that
join the texts. Only the keyword of a membership test is not kept as it was: it is written in lower
case.
-/

namespace ClusterQuery

/-- The fragment with the keyword of its membership test in lower case. A fragment that is no
membership test is left as it is. -/
inductive KeywordLowered : List Char → List Char → Prop
  | membership {before field gap keyword gap' list after : List Char}
      (hbefore : ∀ c ∈ before, isBlank c) (hfield : IsField field) (hgap : IsGap gap)
      (hkeyword : IsKeyword keyword) (hgap' : IsGap gap') (hafter : ∀ c ∈ after, isBlank c) :
      KeywordLowered (before ++ membershipText field gap keyword gap' list ++ after)
        (before ++ membershipText field gap ['i', 'n'] gap' list ++ after)
  | other {part : List Char} (h : ∀ field list, ¬(Shape.membership field list).Fits (trim part)) :
      KeywordLowered part part

theorem exists_keywordLowered (part : List Char) : ∃ lowered, KeywordLowered part lowered := by
  by_cases h : ∃ field list, (Shape.membership field list).Fits (trim part)
  · obtain ⟨field, list, gap, keyword, gap', htrim, hfield, hgap, hkeyword, hgap'⟩ := h
    obtain ⟨before, after, hpart, hbefore, hafter⟩ := exists_padding part
    rw [hpart, htrim]
    exact ⟨_, .membership hbefore hfield hgap hkeyword hgap' hafter⟩
  · exact ⟨part, .other fun field list hfits => h ⟨field, list, hfits⟩⟩

theorem solid_listItems (cs : List Char) :
    solid ([','].intercalate ((listItems cs).map String.toList)) = solid cs :=
  filter_listItems (fun c hc => by simp [hc]) (by decide) cs

theorem solid_trimmed (cs : List Char) : solid (trimmed cs).toList = solid cs := by
  rw [trimmed, String.toList_ofList, solid_trim]

theorem solid_text_membership (field list : List Char) :
    solid (Condition.text ⟨String.ofList field, .oneOf (listItems list)⟩).toList =
      solid field ++ ('i' :: 'n' :: '(' :: (solid list ++ [')'])) := by
  have hspace : IsGap [' '] := ⟨by simp, List.all_eq_true.mp rfl⟩
  have hform : field ++ (Predicate.oneOf (listItems list)).form =
      membershipText field [' '] ['i', 'n'] [' ']
        ([','].intercalate ((listItems list).map String.toList)) := rfl
  rw [Condition.toList_text, String.toList_ofList, hform, solid_membershipText hspace hspace,
    solid_listItems]
  rfl

theorem solid_form_comparison {p : Predicate} {op : Comparator} {value : List Char}
    (h : op.operand (trimmed value) = p.operand) : solid p.form = solid (op.token ++ value) := by
  cases p with
  | equal v =>
      cases op with
      | equal =>
          cases h
          -- The space that keeps the operator apart from a tilde is blank.
          have hform : solid (Predicate.equal (trimmed value)).form =
              '=' :: solid (trimmed value).toList := by
            simp only [Predicate.form]
            split <;> rfl
          rw [hform, solid_trimmed]
          rfl
      | notEqual | like => cases h
  | notEqual v =>
      cases op with
      | notEqual =>
          cases h
          exact congrArg ('!' :: '=' :: ·) (solid_trimmed value)
      | equal | like => cases h
  | like g =>
      cases op with
      | like =>
          obtain ⟨source, hcount⟩ := g
          cases h
          exact congrArg ('=' :: '~' :: ·) (solid_trimmed value)
      | equal | notEqual => cases h
  | oneOf vs => cases op <;> cases h

/-- A fragment that was read has the solid characters of the text of its condition, once its
keyword is in lower case. -/
theorem solid_text_of_keywordLowered {part lowered : List Char} {c : Condition}
    (hread : Condition.ofChars (trim part) = .ok c) (h : KeywordLowered part lowered) :
    solid c.text.toList = solid lowered := by
  cases h with
  | @membership before field gap keyword gap' list after hbefore hfield hgap hkeyword hgap' hend =>
      have hpadded : Padded (membershipText field gap keyword gap' list)
          (before ++ membershipText field gap keyword gap' list ++ after) :=
        ⟨before, after, rfl, hbefore, hend⟩
      rw [trim_of_padded hpadded, ofChars_trim_membership hfield hgap hkeyword hgap'] at hread
      obtain rfl := Except.ok.inj hread
      rw [solid_of_padded ⟨before, after, rfl, hbefore, hend⟩, solid_membershipText hgap hgap']
      exact solid_text_membership field list
  | other h =>
      obtain ⟨s, hfits, hdraft⟩ := ofChars_eq_ok_iff_exists_fits.mp hread
      cases s with
      | membership field list => exact absurd hfits (h field list)
      | comparison field op value =>
          have hfield : field = c.field.toList := by
            have hname : String.ofList field = c.field := congrArg Draft.field hdraft
            rw [← hname, String.toList_ofList]
          have hform := solid_form_comparison (congrArg Draft.operand hdraft)
          rw [Condition.toList_text, solid_append, hform, ← hfield, ← solid_append, ← hfits.1,
            solid_trim]

theorem map_solid_of_lowered {parts lowered : List (List Char)} {cs : List Condition}
    (hread : List.Forall₂ (fun part c => Condition.ofChars (trim part) = .ok c) parts cs)
    (h : List.Forall₂ KeywordLowered parts lowered) :
    cs.map (fun c => solid c.text.toList) = lowered.map solid := by
  induction hread generalizing lowered with
  | nil =>
      cases h
      rfl
  | cons hpart _ ih =>
      cases h with
      | cons hlower hrest =>
          rw [List.map_cons, List.map_cons, solid_text_of_keywordLowered hpart hlower, ih hrest]

/-- The fragments of several texts, those of one text after those of another. -/
def joinedParts (texts : List String) : List (List Char) :=
  (Selector.nonblank texts).flatMap fun t => fragments t.toList

theorem intercalate_flatMap_fragments {parts : List (List Char)} (h : ∀ p ∈ parts, p ≠ []) :
    [','].intercalate (parts.flatMap fragments) = [','].intercalate parts := by
  induction parts with
  | nil => rfl
  | cons part parts ih =>
      obtain ⟨hpart, hparts⟩ := List.forall_mem_cons.mp h
      have hne := fragmentsFrom_ne_nil 0 part
      rw [List.flatMap_cons, fragments_of_ne_nil hpart]
      cases parts with
      | nil => simp [intercalate_fragmentsFrom]
      | cons next parts =>
          have hrest : (next :: parts).flatMap fragments ≠ [] := by
            simp [List.flatMap_cons, fragments_of_ne_nil (hparts next (by simp)),
              fragmentsFrom_ne_nil]
          rw [intercalate_append hrest, ih hparts, lead_eq_intercalate hne,
            intercalate_fragmentsFrom, List.intercalate_cons_cons]

theorem intercalate_joinedParts (texts : List String) :
    [','].intercalate (joinedParts texts) = (",".intercalate (Selector.nonblank texts)).toList := by
  have hne : ∀ p ∈ (Selector.nonblank texts).map String.toList, p ≠ [] := by
    intro p hp
    obtain ⟨t, ht, rfl⟩ := List.mem_map.mp hp
    intro hnil
    simp [Selector.nonblank, hnil] at ht
  rw [toList_intercalate_comma, ← intercalate_flatMap_fragments hne, List.flatMap_map]
  rfl

namespace Selector

/-- The text of a selector has the solid characters of the texts it was read from, those that are
blank left out and the others joined by commas, once the keyword of every membership test among
their fragments is in lower case. -/
theorem solid_text_of_ofTexts {texts : List String} {s : Selector} (h : ofTexts texts = .ok s) :
    [','].intercalate (joinedParts texts) = (",".intercalate (nonblank texts)).toList ∧
    (∃ lowered, List.Forall₂ KeywordLowered (joinedParts texts) lowered) ∧
    ∀ lowered, List.Forall₂ KeywordLowered (joinedParts texts) lowered →
      solid s.text.toList = solid ([','].intercalate lowered) := by
  refine ⟨intercalate_joinedParts texts, ?_, ?_⟩
  · choose lower hlower using exists_keywordLowered
    refine ⟨(joinedParts texts).map lower, ?_⟩
    rw [List.forall₂_map_right_iff, List.forall₂_same]
    exact fun part _ => hlower part
  · intro lowered hlowered
    rw [ofTexts_eq_readFragments, bind_eq_ok_iff] at h
    obtain ⟨cs, hcs, hs⟩ := h
    have hread : List.Forall₂ (fun part c => Condition.ofChars (trim part) = .ok c)
        (joinedParts texts) cs := mapM_eq_ok_iff.mp hcs
    obtain rfl := Except.ok.inj hs
    have hparts : parts ⟨cs⟩ = cs.map fun c => c.text.toList := rfl
    have hsolid := map_solid_of_lowered hread hlowered
    rw [toList_text, hparts, solid_intercalate, solid_intercalate, List.map_map, ← hsolid]
    rfl

/-- The first text is a comparison and leaves a parenthesis open, and the second one is blank. In
the third one the keyword changes, and the empty item of the list stays. -/
theorem solid_text_of_ofTexts_empty_item :
    ofTexts ["a= ((,b=)", " ", " d IN ( p ,,q)"] =
        .ok ⟨[⟨"a", .equal "((,b=)"⟩, ⟨"d", .oneOf ["p", "", "q"]⟩]⟩ ∧
      KeywordLowered " d IN ( p ,,q)".toList " d in ( p ,,q)".toList ∧
      solid (text ⟨[⟨"a", .equal "((,b=)"⟩, ⟨"d", .oneOf ["p", "", "q"]⟩]⟩).toList =
        solid "a= ((,b=), d in ( p ,,q)".toList := by
  have hread : ofTexts ["a= ((,b=)", " ", " d IN ( p ,,q)"] =
      .ok ⟨[⟨"a", .equal "((,b=)"⟩, ⟨"d", .oneOf ["p", "", "q"]⟩]⟩ := by decide
  have hparts : joinedParts ["a= ((,b=)", " ", " d IN ( p ,,q)"] =
      ["a= ((,b=)".toList, " d IN ( p ,,q)".toList] := by decide
  have hfirst : KeywordLowered "a= ((,b=)".toList "a= ((,b=)".toList := by
    have hfits : (Shape.comparison ['a'] .equal " ((,b=)".toList).Fits (trim "a= ((,b=)".toList) :=
      Shape.comparison_fits ⟨by simp, List.all_eq_true.mp rfl⟩ (by simp)
    refine .other fun field list hfits' => ?_
    cases Shape.eq_of_fits hfits hfits'
  have hsecond : KeywordLowered " d IN ( p ,,q)".toList " d in ( p ,,q)".toList := by
    have hblank : ∀ c ∈ [' '], isBlank c := List.all_eq_true.mp rfl
    have hnone : ∀ c ∈ ([] : List Char), isBlank c := by simp
    have hfield : IsField ['d'] := ⟨by simp, List.all_eq_true.mp rfl⟩
    have hkeyword : IsKeyword ['I', 'N'] := ⟨'I', 'N', rfl, .inr rfl, .inr rfl⟩
    have hspace : IsGap [' '] := ⟨by simp, hblank⟩
    have hlower : KeywordLowered
        ([' '] ++ membershipText ['d'] [' '] ['I', 'N'] [' '] " p ,,q".toList ++ [])
        ([' '] ++ membershipText ['d'] [' '] ['i', 'n'] [' '] " p ,,q".toList ++ []) :=
      .membership hblank hfield hspace hkeyword hspace hnone
    exact hlower
  refine ⟨hread, hsecond, ?_⟩
  obtain ⟨-, -, hsolid⟩ := solid_text_of_ofTexts hread
  rw [hparts] at hsolid
  exact hsolid _ (.cons hfirst (.cons hsecond .nil))

end Selector

end ClusterQuery
