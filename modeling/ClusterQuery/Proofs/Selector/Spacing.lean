import ClusterQuery.Proofs.Selector.Cutting
import ClusterQuery.Proofs.Selector.Joining

/-!
# Blank characters that do not count

Blank characters may be put around any fragment of a selector text, behind the operator of a
comparison and around the items of a list, and the gaps on both sides of the keyword `in` may be
any others. The text is then cut at the same commas, since blank characters are neither commas nor
parentheses, and every fragment is read as before, so the conditions are the same, and so is the
error.

A blank character in any other place counts: before an operator, or between the two characters of
one.
-/

namespace ClusterQuery

/-- A membership test as it is written. -/
def membershipText (field gap keyword gap' list : List Char) : List Char :=
  field ++ (gap ++ (keyword ++ (gap' ++ '(' :: (list ++ [')']))))

/-- The fragments differ only in blank characters that do not count. -/
inductive RespacedFragment : List Char → List Char → Prop
  /-- Around the fragment. -/
  | around {cs ds : List Char} (h : Padded cs ds) : RespacedFragment cs ds
  /-- Behind the operator of a comparison. -/
  | value {field value gap : List Char} {op : Comparator}
      (h : (Shape.comparison field op value).Fits (field ++ (op.token ++ value)))
      (hgap : ∀ c ∈ gap, isBlank c) :
      RespacedFragment (field ++ (op.token ++ value)) (field ++ (op.token ++ (gap ++ value)))
  /-- Around the keyword of a membership test and around the items of its list. -/
  | membership {field gap₁ gap₂ keyword gap₁' gap₂' list : List Char} {items : List (List Char)}
      (hfield : IsField field) (hkeyword : IsKeyword keyword) (hgap₁ : IsGap gap₁)
      (hgap₂ : IsGap gap₂) (hgap₁' : IsGap gap₁') (hgap₂' : IsGap gap₂')
      (hitems : List.Forall₂ Padded (list.splitOn ',') items) :
      RespacedFragment (membershipText field gap₁ keyword gap₂ list)
        (membershipText field gap₁' keyword gap₂' ([','].intercalate items))
  | symm {cs ds : List Char} (h : RespacedFragment cs ds) : RespacedFragment ds cs
  | trans {cs ds es : List Char} (h : RespacedFragment cs ds) (h' : RespacedFragment ds es) :
      RespacedFragment cs es

/-- The texts differ only in blank characters that do not count: the second one is made of the
fragments of the first, respaced. The empty text counts as one empty fragment. -/
def Respaced (text text' : String) : Prop :=
  ∃ parts, List.Forall₂ RespacedFragment (fragmentsFrom 0 text.toList) parts ∧
    text'.toList = [','].intercalate parts

theorem solid_intercalate (parts : List (List Char)) :
    solid ([','].intercalate parts) = [','].intercalate (parts.map solid) :=
  filter_intercalate (by decide) parts

theorem solid_membershipText {field gap keyword gap' : List Char} (hgap : IsGap gap)
    (hgap' : IsGap gap') (list : List Char) :
    solid (membershipText field gap keyword gap' list) =
      solid field ++ (solid keyword ++ '(' :: (solid list ++ [')'])) := by
  have hopen : solid ('(' :: (list ++ [')'])) = '(' :: (solid list ++ [')']) := by
    rw [← List.singleton_append, solid_append, solid_append]
    rfl
  have hnil : solid gap = [] := solid_eq_nil_iff.mpr hgap.2
  have hnil' : solid gap' = [] := solid_eq_nil_iff.mpr hgap'.2
  simp only [membershipText, solid_append, hnil, hnil', hopen, List.nil_append]

theorem map_eq_map_of_forall₂ {α β γ : Type} {f : α → γ} {g : β → γ} {as : List α} {bs : List β}
    (h : List.Forall₂ (fun a b => f a = g b) as bs) : as.map f = bs.map g := by
  induction h with
  | nil => rfl
  | cons ha _ ih => rw [List.map_cons, List.map_cons, ha, ih]

/-- Respacing leaves the text that is not blank as it is. -/
theorem solid_of_respacedFragment {cs ds : List Char} (h : RespacedFragment cs ds) :
    solid ds = solid cs := by
  induction h with
  | around h => exact solid_of_padded h
  | value _ hgap => simp only [solid_append, solid_eq_nil_iff.mpr hgap, List.nil_append]
  | @membership _ _ _ _ _ _ list items _ _ hgap₁ hgap₂ hgap₁' hgap₂' hitems =>
      have hlist : solid list = [','].intercalate ((list.splitOn ',').map solid) := by
        rw [← solid_intercalate, List.intercalate_splitOn]
      have hmap : (list.splitOn ',').map solid = items.map solid :=
        map_eq_map_of_forall₂ (hitems.imp fun _ _ hitem => (solid_of_padded hitem).symm)
      rw [solid_membershipText hgap₁ hgap₂, solid_membershipText hgap₁' hgap₂', solid_intercalate,
        hlist, hmap]
  | symm _ ih => exact ih.symm
  | trans _ _ ih ih' => exact ih'.trans ih

theorem marks_solid (cs : List Char) : marks (solid cs) = marks cs := by
  rw [marks, solid, List.filter_filter]
  apply List.filter_congr
  intro c _
  by_cases hblank : isBlank c
  · rw [not_mark_of_isBlank c hblank]
    rfl
  · simp [hblank]

theorem ofChars_of_fits {s : Shape} {cs : List Char} (h : s.Fits cs) :
    Condition.ofChars cs = s.draft.toCondition := by
  rw [Condition.ofChars, ofChars?_eq_some_iff.mpr (Shape.writtenAs_draft h)]

/-- A comparison is read as its shape says when its end is still padded. -/
theorem ofChars_trim_comparison {field value : List Char} {op : Comparator}
    (h : (Shape.comparison field op value).Fits (field ++ (op.token ++ value))) :
    Condition.ofChars (trim (field ++ (op.token ++ value))) =
      (Shape.comparison field op value).draft.toCondition := by
  obtain ⟨-, hfield, hop⟩ := h
  have hopening : Unpadded (field ++ op.token) := by
    apply unpadded_field_append hfield
    · cases op <;> simp [Comparator.token]
    · cases op <;> simp [Comparator.token] <;> decide
  have htrim : trim (field ++ (op.token ++ value)) = field ++ (op.token ++ trimEnd value) := by
    rw [← List.append_assoc, trim_append_of_unpadded (by simp [hfield.1]) hopening,
      List.append_assoc]
  have hhead : op = .equal → (trimEnd value).head? ≠ some '~' := by
    intro heq htilde
    obtain ⟨rest, hrest⟩ := List.head?_eq_some_iff.mp htilde
    have hprefix : trimEnd value <+: value := List.rdropWhile_prefix isBlank value
    obtain ⟨more, hmore⟩ := hprefix
    apply Comparator.leading?_token_append.mp hop heq
    rw [← hmore, hrest]
    rfl
  have hdraft : (Shape.comparison field op (trimEnd value)).draft =
      (Shape.comparison field op value).draft := by
    rw [Shape.draft, Shape.draft, trimmed, trimmed, ← trim_of_padded (padded_trimEnd value)]
  rw [htrim, ofChars_of_fits (Shape.comparison_fits hfield hhead), hdraft]

theorem ofChars_trim_membership {field gap keyword gap' list : List Char} (hfield : IsField field)
    (hgap : IsGap gap) (hkeyword : IsKeyword keyword) (hgap' : IsGap gap') :
    Condition.ofChars (trim (membershipText field gap keyword gap' list)) =
      (Shape.membership field list).draft.toCondition := by
  have hunpadded : Unpadded (membershipText field gap keyword gap' list) := by
    apply unpadded_field_append hfield
    · simp
    · have hlast : (gap ++ (keyword ++ (gap' ++ '(' :: (list ++ [')'])))).getLast? = some ')' := by
        simp only [← List.cons_append, ← List.append_assoc, List.getLast?_concat]
      rw [hlast]
      simp
      decide
  have hfits : (Shape.membership field list).Fits (membershipText field gap keyword gap' list) :=
    ⟨gap, keyword, gap', rfl, hfield, hgap, hkeyword, hgap'⟩
  rw [trim_eq_self hunpadded, ofChars_of_fits hfits]

theorem comma_not_mem_of_padded {items items' : List (List Char)}
    (h : List.Forall₂ Padded items items') (hcomma : ∀ item ∈ items, ',' ∉ item) :
    ∀ item ∈ items', ',' ∉ item := by
  induction h with
  | nil => simp
  | @cons item item' _ _ hitem _ ih =>
      obtain ⟨hfirst, hrest⟩ := List.forall_mem_cons.mp hcomma
      refine List.forall_mem_cons.mpr ⟨?_, ih hrest⟩
      intro hmem
      have hsolid : ',' ∈ solid item' := mem_solid_iff.mpr ⟨hmem, by decide⟩
      rw [solid_of_padded hitem] at hsolid
      exact hfirst (mem_solid_iff.mp hsolid).1

/-- Padded items are the same once they are trimmed. -/
theorem draft_membership_of_padded {list : List Char} {items : List (List Char)}
    (h : List.Forall₂ Padded (list.splitOn ',') items) (field : List Char) :
    (Shape.membership field ([','].intercalate items)).draft =
      (Shape.membership field list).draft := by
  have hsplit : ([','].intercalate items).splitOn ',' = items := by
    apply List.splitOn_intercalate
    · exact comma_not_mem_of_padded h fun _ => not_mem_of_mem_splitOn
    · rintro rfl
      simp at h
  have htrimmed : (list.splitOn ',').map trimmed = items.map trimmed :=
    map_eq_map_of_forall₂
      (h.imp fun _ _ hitem => congrArg String.ofList (trim_of_padded hitem).symm)
  rw [Shape.draft, Shape.draft, hsplit, htrimmed]

/-- A respaced fragment is read as before. -/
theorem ofChars_of_respacedFragment {cs ds : List Char} (h : RespacedFragment cs ds) :
    Condition.ofChars (trim ds) = Condition.ofChars (trim cs) := by
  induction h with
  | around h => rw [trim_of_padded h]
  | @value field value gap op hfits hgap =>
      obtain ⟨-, hfield, hop⟩ := id hfits
      -- No tilde comes to stand behind the equality sign, which would make another operator of it.
      have hhead : op = .equal → (gap ++ value).head? ≠ some '~' := by
        intro heq
        cases gap with
        | nil => exact Comparator.leading?_token_append.mp hop heq
        | cons c gap =>
            have hc : c ≠ '~' := by
              rintro rfl
              have hblank : isBlank '~' := hgap '~' (by simp)
              contradiction
            simpa using hc
      have htrimmed : trimmed (gap ++ value) = trimmed value :=
        congrArg String.ofList (trim_of_padded ⟨gap, [], by simp, hgap, by simp⟩)
      have hfits' := Shape.comparison_fits hfield hhead
      rw [ofChars_trim_comparison hfits, ofChars_trim_comparison hfits', Shape.draft, Shape.draft,
        htrimmed]
  | membership hfield hkeyword hgap₁ hgap₂ hgap₁' hgap₂' hitems =>
      rw [ofChars_trim_membership hfield hgap₁ hkeyword hgap₂,
        ofChars_trim_membership hfield hgap₁' hkeyword hgap₂', draft_membership_of_padded hitems]
  | symm _ ih => exact ih.symm
  | trans _ _ ih ih' => exact ih'.trans ih

/-- A respaced text is cut into the respaced fragments. -/
theorem fragmentsFrom_of_respaced {cs : List Char} {parts : List (List Char)}
    (h : List.Forall₂ RespacedFragment (fragmentsFrom 0 cs) parts) :
    fragmentsFrom 0 ([','].intercalate parts) = parts := by
  apply fragmentsFrom_intercalate
  -- Where a text is cut depends on its marks, none of which is blank.
  have hmarks : (fragmentsFrom 0 cs).map marks = parts.map marks :=
    map_eq_map_of_forall₂ (h.imp fun part part' hpart => by
      rw [← marks_solid part, ← solid_of_respacedFragment hpart, marks_solid])
  rw [← isCut_map_marks, ← hmarks, isCut_map_marks]
  exact isCut_fragmentsFrom 0 cs

theorem solid_of_respaced {text text' : String} (h : Respaced text text') :
    solid text'.toList = solid text.toList := by
  obtain ⟨parts, hparts, htext'⟩ := h
  have hsolid : (fragmentsFrom 0 text.toList).map solid = parts.map solid :=
    map_eq_map_of_forall₂ (hparts.imp fun _ _ hpart => (solid_of_respacedFragment hpart).symm)
  rw [htext', solid_intercalate, ← hsolid, ← solid_intercalate, intercalate_fragmentsFrom]

theorem trim_eq_nil_iff_solid {cs : List Char} : trim cs = [] ↔ solid cs = [] := by
  rw [trim_eq_nil_iff, solid_eq_nil_iff]

/-- Blank characters at both ends of a text stand around its first and its last part. -/
theorem exists_padded_parts {parts : List (List Char)} (hne : parts ≠ [])
    {before after : List Char} (hbefore : ∀ c ∈ before, isBlank c)
    (hafter : ∀ c ∈ after, isBlank c) :
    ∃ parts', List.Forall₂ Padded parts parts' ∧
      before ++ [','].intercalate parts ++ after = [','].intercalate parts' := by
  induction parts generalizing before with
  | nil => contradiction
  | cons part parts ih =>
      cases parts with
      | nil =>
          have hpart : Padded part (before ++ part ++ after) :=
            ⟨before, after, rfl, hbefore, hafter⟩
          exact ⟨[before ++ part ++ after], .cons hpart .nil, by simp⟩
      | cons next parts =>
          have hnone : ∀ c ∈ ([] : List Char), isBlank c := by simp
          obtain ⟨parts', hparts, hrest⟩ := ih (by simp) hnone
          have hpart : Padded part (before ++ part) := ⟨before, [], by simp, hbefore, by simp⟩
          have hne' : parts' ≠ [] := by
            rintro rfl
            cases hparts
          refine ⟨(before ++ part) :: parts', .cons hpart hparts, ?_⟩
          rw [List.intercalate_cons_cons, List.intercalate_cons_of_ne_nil hne', ← hrest]
          simp

theorem respaced_padded {before text after : String} (hbefore : ∀ c ∈ before.toList, isBlank c)
    (hafter : ∀ c ∈ after.toList, isBlank c) : Respaced text (before ++ text ++ after) := by
  obtain ⟨parts, hparts, htext⟩ :=
    exists_padded_parts (fragmentsFrom_ne_nil 0 text.toList) hbefore hafter
  rw [intercalate_fragmentsFrom] at htext
  refine ⟨parts, hparts.imp fun _ _ => .around, ?_⟩
  rw [String.toList_append, String.toList_append, htext]

/-- Texts on both sides of a comma that cuts may be respaced one by one. -/
theorem respaced_join {left left' right right' : String} (hcomma : JoiningComma left right)
    (hleft : Respaced left left') (hright : Respaced right right') :
    Respaced (left ++ "," ++ right) (left' ++ "," ++ right') := by
  obtain ⟨parts, hparts, hleft'⟩ := hleft
  obtain ⟨parts', hparts', hright'⟩ := hright
  have hbalance : balance left.toList = 0 := (joiningComma_iff left right).mp hcomma
  have hne : parts ≠ [] := by
    rintro rfl
    exact fragmentsFrom_ne_nil 0 left.toList (List.forall₂_nil_right_iff.mp hparts)
  have hne' : parts' ≠ [] := by
    rintro rfl
    exact fragmentsFrom_ne_nil 0 right.toList (List.forall₂_nil_right_iff.mp hparts')
  have hcut : fragmentsFrom 0 (left ++ "," ++ right).toList =
      fragmentsFrom 0 left.toList ++ fragmentsFrom 0 right.toList := by
    have htext : (left ++ "," ++ right).toList = left.toList ++ ',' :: right.toList := by simp
    rw [htext, fragmentsFrom_append_comma (by rw [hbalance]; rfl)]
  refine ⟨parts ++ parts', ?_, ?_⟩
  · rw [hcut]
    exact List.rel_append hparts hparts'
  · rw [intercalate_append hne', lead_eq_intercalate hne, ← hleft', ← hright']
    simp

theorem respaced_beside_comma {left gap gap' right : String} (hcomma : JoiningComma left right)
    (hgap : ∀ c ∈ gap.toList, isBlank c) (hgap' : ∀ c ∈ gap'.toList, isBlank c) :
    Respaced (left ++ "," ++ right) (left ++ gap ++ "," ++ gap' ++ right) := by
  have hnone : ∀ c ∈ "".toList, isBlank c := by simp
  have hleft : Respaced left ("" ++ left ++ gap) := respaced_padded hnone hgap
  have hright : Respaced right (gap' ++ right ++ "") := respaced_padded hgap' hnone
  rw [String.empty_append] at hleft
  rw [String.append_empty] at hright
  simpa only [String.append_assoc] using respaced_join hcomma hleft hright

namespace Selector

theorem readConditions_of_respaced {text text' : String} (h : Respaced text text') :
    readConditions text' = readConditions text := by
  have hblank : trim text'.toList = [] ↔ trim text.toList = [] := by
    rw [trim_eq_nil_iff_solid, trim_eq_nil_iff_solid, solid_of_respaced h]
  obtain ⟨parts, hparts, htext'⟩ := h
  by_cases hb : trim text.toList = []
  · rw [readConditions_of_blank hb, readConditions_of_blank (hblank.mpr hb)]
  · have hne : text.toList ≠ [] := fun hnil => hb (by rw [hnil, trim_nil])
    have hb' := mt hblank.mp hb
    have hne' : text'.toList ≠ [] := fun hnil => hb' (by rw [hnil, trim_nil])
    rw [readConditions_of_not_blank hb, readConditions_of_not_blank hb', fragments_of_ne_nil hne,
      fragments_of_ne_nil hne', htext', fragmentsFrom_of_respaced hparts]
    exact (mapM_congr (hparts.imp fun _ _ hpart => (ofChars_of_respacedFragment hpart).symm)).symm

theorem ofText_eq_of_respaced {text text' : String} (h : Respaced text text') :
    ofText text' = ofText text := by
  rw [ofText, ofText, ofTexts_cons, ofTexts_cons, readConditions_of_respaced h]

/-- Texts that differ only in blank characters that do not count are read as the same selector, or
refused for the same error with the same fragment. Such texts come about by blank characters at
both ends of a text and on both sides of a comma that cuts it. Fragments that differ in this way
are the same condition. -/
theorem ofText_of_respaced :
    (∀ text text', Respaced text text' → ofText text' = ofText text) ∧
    (∀ before text after : String, (∀ c ∈ before.toList, isBlank c) →
      (∀ c ∈ after.toList, isBlank c) → ofText (before ++ text ++ after) = ofText text) ∧
    (∀ left gap gap' right : String, JoiningComma left right → (∀ c ∈ gap.toList, isBlank c) →
      (∀ c ∈ gap'.toList, isBlank c) →
      ofText (left ++ gap ++ "," ++ gap' ++ right) = ofText (left ++ "," ++ right)) ∧
    ∀ part part', RespacedFragment part part' →
      Condition.ofChars (trim part') = Condition.ofChars (trim part) := by
  refine ⟨fun _ _ => ofText_eq_of_respaced, ?_, ?_, fun _ _ => ofChars_of_respacedFragment⟩
  · intro before text after hbefore hafter
    exact ofText_eq_of_respaced (respaced_padded hbefore hafter)
  · intro left gap gap' right hcomma hgap hgap'
    exact ofText_eq_of_respaced (respaced_beside_comma hcomma hgap hgap')

/-- Blank characters behind the operator, beside the keyword and inside the list of a text, then
beside its commas and at its ends. Its last fragment is refused, under its trimmed text. -/
theorem ofText_of_respaced_refused :
    ofText "a=  1,b IN\u2003( x,y ),c =1" = ofText "a=1,b IN (x,y),c =1" ∧
      ofText ("\t" ++ "a=1,b IN (x,y),c =1" ++ "\n") = ofText "a=1,b IN (x,y),c =1" ∧
      ofText ("a=1" ++ " " ++ "," ++ "\u00a0" ++ "b IN (x,y),c =1") =
        ofText ("a=1" ++ "," ++ "b IN (x,y),c =1") ∧
      ofText "a=1,b IN (x,y),c =1" = .error (.malformed "c =1") := by
  have hcomparison : RespacedFragment "a=1".toList "a=  1".toList := by
    have hfits : (Shape.comparison ['a'] .equal ['1']).Fits
        (['a'] ++ (Comparator.equal.token ++ ['1'])) :=
      Shape.comparison_fits ⟨by simp, List.all_eq_true.mp rfl⟩ (by simp)
    have hgap : ∀ c ∈ [' ', ' '], isBlank c := List.all_eq_true.mp rfl
    exact .value hfits hgap
  have hmembership : RespacedFragment "b IN (x,y)".toList "b IN\u2003( x,y )".toList := by
    have hitems : List.Forall₂ Padded ("x,y".toList.splitOn ',') [[' ', 'x'], ['y', ' ']] :=
      .cons ⟨[' '], [], rfl, List.all_eq_true.mp rfl, by simp⟩
        (.cons ⟨[], [' '], rfl, by simp, List.all_eq_true.mp rfl⟩ .nil)
    have hfield : IsField ['b'] := ⟨by simp, List.all_eq_true.mp rfl⟩
    have hkeyword : IsKeyword ['I', 'N'] := ⟨'I', 'N', rfl, .inr rfl, .inr rfl⟩
    have hspace : IsGap [' '] := ⟨by simp, List.all_eq_true.mp rfl⟩
    have hwide : IsGap ['\u2003'] := ⟨by simp, List.all_eq_true.mp rfl⟩
    exact .membership hfield hkeyword hspace hspace hspace hwide hitems
  have hlast : RespacedFragment "c =1".toList "c =1".toList := .around ⟨[], [], by simp⟩
  have hcut : fragmentsFrom 0 "a=1,b IN (x,y),c =1".toList =
      ["a=1".toList, "b IN (x,y)".toList, "c =1".toList] := by decide
  have hrespaced : Respaced "a=1,b IN (x,y),c =1" "a=  1,b IN\u2003( x,y ),c =1" := by
    refine ⟨["a=  1".toList, "b IN\u2003( x,y )".toList, "c =1".toList], ?_, by decide⟩
    rw [hcut]
    exact .cons hcomparison (.cons hmembership (.cons hlast .nil))
  have hcomma : JoiningComma "a=1" "b IN (x,y),c =1" := (joiningComma_iff _ _).mpr (by decide)
  obtain ⟨hrespacing, hends, hcommas, -⟩ := ofText_of_respaced
  exact ⟨hrespacing _ _ hrespaced,
    hends "\t" _ "\n" (List.all_eq_true.mp rfl) (List.all_eq_true.mp rfl),
    hcommas "a=1" " " "\u00a0" _ hcomma (List.all_eq_true.mp rfl) (List.all_eq_true.mp rfl),
    by decide⟩

end Selector

end ClusterQuery
