import ClusterQuery.Proofs.Selector.Depth
import ClusterQuery.Proofs.Selector.Grammar

/-!
# Conditions and their texts

A condition is readable when a text can give it: its field is a field name, its values are
unpadded, and a list has items, none of which holds a comma. The text of a readable condition is
one of its written forms, so it is read as that condition, and every condition that is read is
readable. A text that is read as a condition has the same marks as the text of that condition.
-/

namespace ClusterQuery

def Predicate.Readable : Predicate → Prop
  | .equal v => Unpadded v.toList
  | .notEqual v => Unpadded v.toList
  | .like g => Unpadded g.source.toList
  | .oneOf vs => vs ≠ [] ∧ ∀ v ∈ vs, ',' ∉ v.toList ∧ Unpadded v.toList

/-- The conditions that a text can give. -/
structure Condition.Readable (c : Condition) : Prop where
  field : IsField c.field.toList
  predicate : c.predicate.Readable

/-- What the text of a condition holds after the field name. -/
def Predicate.form : Predicate → List Char
  | .equal v => if v.toList.head? = some '~' then '=' :: ' ' :: v.toList else '=' :: v.toList
  | .notEqual v => '!' :: '=' :: v.toList
  | .like g => '=' :: '~' :: g.source.toList
  | .oneOf vs =>
    [' '] ++ (['i', 'n'] ++ ([' '] ++ '(' :: ([','].intercalate (vs.map String.toList) ++ [')'])))

theorem Condition.toList_text (c : Condition) :
    c.text.toList = c.field.toList ++ c.predicate.form := by
  obtain ⟨field, predicate⟩ := c
  cases predicate with
  | equal v =>
      simp only [Condition.text, Predicate.form]
      split <;> simp
  | notEqual v => simp [Condition.text, Predicate.form]
  | like g => simp [Condition.text, Predicate.form]
  | oneOf vs => simp [Condition.text, Predicate.form]

theorem trimmed_toList {v : String} (h : Unpadded v.toList) : trimmed v.toList = v := by
  rw [trimmed, trim_eq_self h, String.ofList_toList]

theorem unpadded_trimmed (cs : List Char) : Unpadded (trimmed cs).toList := by
  rw [trimmed, String.toList_ofList]
  exact unpadded_trim cs

theorem listItems_intercalate {vs : List String} (hne : vs ≠ [])
    (h : ∀ v ∈ vs, ',' ∉ v.toList ∧ Unpadded v.toList) :
    listItems ([','].intercalate (vs.map String.toList)) = vs := by
  have hcomma : ∀ l ∈ vs.map String.toList, ',' ∉ l := by
    intro l hl
    obtain ⟨v, hv, rfl⟩ := List.mem_map.mp hl
    exact (h v hv).1
  rw [listItems, List.splitOn_intercalate ',' hcomma (by simpa using hne), List.map_map]
  conv_rhs => rw [← List.map_id vs]
  apply List.map_congr_left
  intro v hv
  exact trimmed_toList (h v hv).2

theorem not_mem_of_mem_splitOn {a : Char} {cs piece : List Char} (h : piece ∈ cs.splitOn a) :
    a ∉ piece := by
  induction hn : cs.length using Nat.strong_induction_on generalizing cs with
  | _ n ih =>
      -- The text is cut at the first separator, and what follows is shorter.
      by_cases ha : a ∈ cs
      · obtain ⟨before, after, rfl, hbefore⟩ := List.eq_append_cons_of_mem ha
        rw [List.splitOn_append_cons_self_of_not_mem hbefore] at h
        rcases List.mem_cons.mp h with rfl | hafter
        · exact hbefore
        · apply ih after.length _ hafter rfl
          simp only [List.length_append, List.length_cons] at hn
          omega
      · rw [List.splitOn_eq_singleton ha, List.mem_singleton] at h
        rwa [h]

theorem readable_listItems (cs : List Char) : (Predicate.oneOf (listItems cs)).Readable := by
  constructor
  · simp [listItems]
  · intro v hv
    obtain ⟨piece, hpiece, rfl⟩ := List.mem_map.mp hv
    refine ⟨?_, unpadded_trimmed piece⟩
    intro hmem
    apply not_mem_of_mem_splitOn hpiece
    obtain ⟨before, after, hp, -, -⟩ := exists_padding piece
    rw [trimmed, String.toList_ofList] at hmem
    rw [hp]
    simp [hmem]

theorem not_mark_of_isBlank (c : Char) (hc : isBlank c) :
    decide (c = ',' ∨ c = '(' ∨ c = ')') = false := by
  simp only [decide_eq_false_iff_not]
  rintro (rfl | rfl | rfl) <;> revert hc <;> decide

theorem marks_trim (cs : List Char) : marks (trim cs) = marks cs :=
  filter_trim not_mark_of_isBlank cs

/-- A count that sees commas may be taken part by part. -/
theorem filter_intercalate {p : Char → Bool} (hcomma : p ',') (parts : List (List Char)) :
    ([','].intercalate parts).filter p = [','].intercalate (parts.map (List.filter p)) := by
  induction parts with
  | nil => rfl
  | cons part parts ih =>
      cases parts with
      | nil => simp
      | cons next parts =>
          have hsingle : [','].filter p = [','] := List.filter_cons_of_pos hcomma
          rw [List.intercalate_cons_cons, List.filter_append, List.filter_append, ih, hsingle]
          simp

/-- The items of a list are its pieces with blank characters taken away at their ends. -/
theorem filter_listItems {p : Char → Bool} (hblank : ∀ c, isBlank c → p c = false)
    (hcomma : p ',') (cs : List Char) :
    ([','].intercalate ((listItems cs).map String.toList)).filter p = cs.filter p := by
  have htrim : (listItems cs).map String.toList = (cs.splitOn ',').map trim := by
    simp [listItems, trimmed, Function.comp_def]
  have hpieces : ((cs.splitOn ',').map trim).map (List.filter p) =
      (cs.splitOn ',').map (List.filter p) := by
    simp [filter_trim hblank]
  rw [htrim, filter_intercalate hcomma, hpieces, ← filter_intercalate hcomma,
    List.intercalate_splitOn]

theorem marks_intercalate (parts : List (List Char)) :
    marks ([','].intercalate parts) = [','].intercalate (parts.map marks) :=
  filter_intercalate (by decide) parts

theorem marks_listItems (cs : List Char) :
    marks ([','].intercalate ((listItems cs).map String.toList)) = marks cs :=
  filter_listItems not_mark_of_isBlank (by decide) cs

theorem writtenAs_form {p : Predicate} (h : p.Readable) : p.operand.WrittenAs p.form := by
  cases p with
  | notEqual v =>
      have hw := Operand.WrittenAs.notEqual v.toList
      rwa [trimmed_toList h] at hw
  | like g =>
      have hw := Operand.WrittenAs.like g.source.toList
      rwa [trimmed_toList h] at hw
  | equal v =>
      by_cases hv : v.toList.head? = some '~'
      · -- The space keeps the operator apart from the tilde and is trimmed away again.
        have hw := Operand.WrittenAs.equal (' ' :: v.toList) (by simp)
        have ht : trimmed (' ' :: v.toList) = v := by
          rw [trimmed, trim, trimStart, List.dropWhile_cons_of_pos (by decide)]
          exact trimmed_toList h
        rw [ht] at hw
        simpa only [Predicate.operand, Predicate.form, if_pos hv] using hw
      · have hw := Operand.WrittenAs.equal v.toList hv
        rw [trimmed_toList h] at hw
        simpa only [Predicate.operand, Predicate.form, if_neg hv] using hw
  | oneOf vs =>
      have hspace : IsGap [' '] := ⟨by simp, by simp; decide⟩
      have hw := Operand.WrittenAs.oneOf [' '] ['i', 'n'] [' ']
        ([','].intercalate (vs.map String.toList)) hspace ⟨'i', 'n', rfl, .inl rfl, .inl rfl⟩ hspace
      rwa [listItems_intercalate h.1 h.2] at hw

theorem marks_eq_nil_of_gap {cs : List Char} (h : IsGap cs) : marks cs = [] := by
  rw [← marks_trim, trim_eq_nil_iff.mpr h.2]
  rfl

theorem marks_eq_nil_of_keyword {cs : List Char} (h : IsKeyword cs) : marks cs = [] := by
  obtain ⟨i, n, rfl, hi, hn⟩ := h
  rcases hi with rfl | rfl <;> rcases hn with rfl | rfl <;> decide

theorem marks_trimmed (cs : List Char) : marks (trimmed cs).toList = marks cs := by
  rw [trimmed, String.toList_ofList, marks_trim]

/-- A predicate that has a written form is readable, and the form has the marks of its text. -/
theorem readable_of_writtenAs {p : Predicate} {rest : List Char} (h : p.operand.WrittenAs rest) :
    p.Readable ∧ marks p.form = marks rest := by
  cases p with
  | equal v =>
      cases h with
      | equal value =>
          refine ⟨unpadded_trimmed value, ?_⟩
          have hvalue : marks ('=' :: value) = marks value := rfl
          rw [hvalue, ← marks_trimmed value]
          simp only [Predicate.form]
          split <;> rfl
  | notEqual v =>
      cases h with
      | notEqual value => exact ⟨unpadded_trimmed value, marks_trimmed value⟩
  | like g =>
      obtain ⟨source, hcount⟩ := g
      cases h with
      | like value => exact ⟨unpadded_trimmed value, marks_trimmed value⟩
  | oneOf vs =>
      cases h with
      | oneOf gap keyword gap' list hgap hkeyword hgap' =>
          refine ⟨readable_listItems list, ?_⟩
          have hform (items : List Char) : marks ('(' :: (items ++ [')'])) =
              '(' :: (marks items ++ [')']) := by
            rw [← List.singleton_append, marks_append, marks_append]
            rfl
          simp only [Predicate.form, marks_append, marks_eq_nil_of_gap hgap,
            marks_eq_nil_of_keyword hkeyword, marks_eq_nil_of_gap hgap', hform, marks_listItems]
          rfl

theorem ofChars_text {c : Condition} (h : c.Readable) : Condition.ofChars c.text.toList = .ok c :=
  ofChars_eq_ok_iff.mpr ⟨c.predicate.form, c.toList_text, h.field, writtenAs_form h.predicate⟩

/-- What is read is readable, and the text it is read from has the marks of its text. -/
theorem readable_of_ofChars {cs : List Char} {c : Condition} (h : Condition.ofChars cs = .ok c) :
    c.Readable ∧ marks c.text.toList = marks cs := by
  obtain ⟨rest, rfl, hf, ho⟩ := ofChars_eq_ok_iff.mp h
  obtain ⟨hread, hmarks⟩ := readable_of_writtenAs ho
  refine ⟨⟨hf, hread⟩, ?_⟩
  rw [Condition.toList_text, marks_append, marks_append, hmarks]
  rfl

theorem getLast?_cons_not_blank {a : Char} {cs : List Char} (ha : isBlank a = false)
    (hcs : ∀ c ∈ cs.getLast?, isBlank c = false) :
    ∀ c ∈ (a :: cs).getLast?, isBlank c = false := by
  intro c hc
  cases cs with
  | nil => cases hc; exact ha
  | cons b cs => exact hcs c (by rwa [List.getLast?_cons_cons] at hc)

theorem getLast?_form {p : Predicate} (h : p.Readable) :
    ∀ c ∈ p.form.getLast?, isBlank c = false := by
  cases p with
  | equal v =>
      simp only [Predicate.form]
      split
      · next hv =>
          obtain ⟨rest, hrest⟩ := List.head?_eq_some_iff.mp hv
          apply getLast?_cons_not_blank (by decide)
          rw [hrest, List.getLast?_cons_cons, ← hrest]
          exact h.2
      · exact getLast?_cons_not_blank (by decide) h.2
  | notEqual v | like v =>
      apply getLast?_cons_not_blank (by decide)
      exact getLast?_cons_not_blank (by decide) h.2
  | oneOf vs =>
      intro c hc
      simp only [Predicate.form, List.cons_append, List.nil_append] at hc
      simp only [← List.cons_append, List.getLast?_concat] at hc
      cases hc
      decide

theorem form_ne_nil (p : Predicate) : p.form ≠ [] := by
  cases p with
  | equal v =>
      simp only [Predicate.form]
      split <;> simp
  | notEqual v => simp [Predicate.form]
  | like g => simp [Predicate.form]
  | oneOf vs => simp [Predicate.form]

theorem unpadded_text {c : Condition} (h : c.Readable) : Unpadded c.text.toList := by
  rw [Condition.toList_text]
  exact unpadded_field_append h.field (form_ne_nil _) (getLast?_form h.predicate)

end ClusterQuery
