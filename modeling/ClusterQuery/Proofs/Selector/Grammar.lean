import ClusterQuery.Selector.Grammar
import ClusterQuery.Proofs.Text.Trimming

/-!
# The written forms of a condition

A relation says what may follow the field name of a condition and which operand it writes: one of
the three operators at once with its value, or the keyword `in` between two gaps with a list in
parentheses. The readers of the grammar accept exactly these forms, and no text has two.
-/

namespace ClusterQuery

def IsField (cs : List Char) : Prop :=
  cs ≠ [] ∧ ∀ c ∈ cs, isFieldChar c

def IsGap (cs : List Char) : Prop :=
  cs ≠ [] ∧ ∀ c ∈ cs, isBlank c

/-- The keyword `in`, in any case. -/
def IsKeyword (cs : List Char) : Prop :=
  ∃ i n, cs = [i, n] ∧ (i = 'i' ∨ i = 'I') ∧ (n = 'n' ∨ n = 'N')

/-- The forms in which an operand may be written after the field name. -/
inductive Operand.WrittenAs : Operand → List Char → Prop
  | notEqual (value : List Char) : WrittenAs (.notEqual (trimmed value)) ('!' :: '=' :: value)
  | like (value : List Char) : WrittenAs (.like (trimmed value)) ('=' :: '~' :: value)
  | equal (value : List Char) (h : value.head? ≠ some '~') :
      WrittenAs (.equal (trimmed value)) ('=' :: value)
  | oneOf (gap keyword gap' list : List Char) (hgap : IsGap gap) (hkeyword : IsKeyword keyword)
      (hgap' : IsGap gap') :
      WrittenAs (.oneOf (listItems list)) (gap ++ (keyword ++ (gap' ++ '(' :: (list ++ [')']))))

theorem afterBlanks?_eq_some_iff {cs rest : List Char} : afterBlanks? cs = some rest ↔
    ∃ gap, cs = gap ++ rest ∧ IsGap gap ∧ ∀ c ∈ rest.head?, isBlank c = false := by
  constructor
  · intro h
    cases cs with
    | nil => simp [afterBlanks?] at h
    | cons c cs =>
        by_cases hc : isBlank c
        · simp only [afterBlanks?, hc, if_true, Option.some.injEq] at h
          subst h
          refine ⟨c :: cs.takeWhile isBlank, ?_, ⟨by simp, ?_⟩, head?_trimStart cs⟩
          · rw [List.cons_append, trimStart_append_dropped]
          · exact List.forall_mem_cons.mpr ⟨hc, fun d hd => List.mem_takeWhile_imp hd⟩
        · simp [afterBlanks?, hc] at h
  · rintro ⟨gap, rfl, ⟨hne, hgap⟩, hrest⟩
    cases gap with
    | nil => exact absurd rfl hne
    | cons c gap =>
        obtain ⟨hc, hgap⟩ := List.forall_mem_cons.mp hgap
        rw [List.cons_append, afterBlanks?, if_pos hc, trimStart,
          List.dropWhile_append_of_pos hgap]
        exact congrArg some (trimStart_eq_self hrest)

theorem afterKeyword?_eq_some_iff {cs rest : List Char} : afterKeyword? cs = some rest ↔
    ∃ keyword, cs = keyword ++ rest ∧ IsKeyword keyword := by
  constructor
  · intro h
    unfold afterKeyword? at h
    split at h
    · next i n rest' =>
        split_ifs at h with hk
        cases h
        exact ⟨[i, n], rfl, i, n, rfl, hk⟩
    · contradiction
  · rintro ⟨keyword, rfl, i, n, rfl, hk⟩
    simp [afterKeyword?, hk]

theorem insideParens?_eq_some_iff {cs list : List Char} :
    insideParens? cs = some list ↔ cs = '(' :: (list ++ [')']) := by
  constructor
  · intro h
    unfold insideParens? at h
    split at h
    · next rest =>
        split_ifs at h with hlast
        cases h
        obtain ⟨init, rfl⟩ := List.getLast?_eq_some_iff.mp hlast
        simp
    · contradiction
  · rintro rfl
    simp [insideParens?]

theorem isBlank_of_isKeyword {keyword : List Char} (h : IsKeyword keyword) (rest : List Char) :
    ∀ c ∈ (keyword ++ rest).head?, isBlank c = false := by
  obtain ⟨i, n, rfl, hi, -⟩ := h
  intro c hc
  simp only [List.cons_append, List.head?_cons, Option.mem_def, Option.some.injEq] at hc
  subst hc
  rcases hi with rfl | rfl <;> decide

theorem membership?_eq_some_iff {rest : List Char} {o : Operand} : membership? rest = some o ↔
    ∃ gap keyword gap' list, rest = gap ++ (keyword ++ (gap' ++ '(' :: (list ++ [')']))) ∧
      IsGap gap ∧ IsKeyword keyword ∧ IsGap gap' ∧ o = .oneOf (listItems list) := by
  simp only [membership?, Option.bind_eq_bind, Option.bind_eq_some_iff, Option.pure_def,
    Option.some.injEq, afterBlanks?_eq_some_iff, afterKeyword?_eq_some_iff,
    insideParens?_eq_some_iff]
  constructor
  · rintro ⟨r₁, ⟨gap, rfl, hgap, -⟩, r₂, ⟨keyword, rfl, hk⟩, r₃, ⟨gap', rfl, hgap', -⟩, list, rfl,
      rfl⟩
    exact ⟨gap, keyword, gap', list, rfl, hgap, hk, hgap', rfl⟩
  · rintro ⟨gap, keyword, gap', list, rfl, hgap, hk, hgap', rfl⟩
    refine ⟨_, ⟨gap, rfl, hgap, isBlank_of_isKeyword hk _⟩, _, ⟨keyword, rfl, hk⟩, _,
      ⟨gap', rfl, hgap', ?_⟩, list, rfl, rfl⟩
    simp
    decide

theorem comparison?_eq_some_iff {rest : List Char} {o : Operand} : comparison? rest = some o ↔
    (∃ value, rest = '!' :: '=' :: value ∧ o = .notEqual (trimmed value)) ∨
    (∃ value, rest = '=' :: '~' :: value ∧ o = .like (trimmed value)) ∨
    ∃ value, rest = '=' :: value ∧ value.head? ≠ some '~' ∧ o = .equal (trimmed value) := by
  constructor
  · intro h
    unfold comparison? at h
    split at h
    · next value => exact .inl ⟨value, rfl, (Option.some.inj h).symm⟩
    · next value => exact .inr (.inl ⟨value, rfl, (Option.some.inj h).symm⟩)
    · next value hlike =>
        refine .inr (.inr ⟨value, rfl, ?_, (Option.some.inj h).symm⟩)
        intro hv
        obtain ⟨value', rfl⟩ := List.head?_eq_some_iff.mp hv
        exact hlike value' rfl
    · contradiction
  · rintro (⟨value, rfl, rfl⟩ | ⟨value, rfl, rfl⟩ | ⟨value, rfl, hv, rfl⟩)
    · rfl
    · rfl
    · cases value with
      | nil => rfl
      | cons c value =>
          have hc : c ≠ '~' := by simpa using hv
          simp [comparison?, hc]

/-- The two readers together accept the written forms and no others. -/
theorem writtenAs_iff {rest : List Char} {o : Operand} :
    o.WrittenAs rest ↔ (membership? rest <|> comparison? rest) = some o := by
  constructor
  · intro h
    cases h with
    | oneOf gap keyword gap' list hgap hkeyword hgap' =>
        rw [membership?_eq_some_iff.mpr ⟨gap, keyword, gap', list, rfl, hgap, hkeyword, hgap', rfl⟩]
        rfl
    | notEqual value => rfl
    | like value => rfl
    | equal value h =>
        have hc : comparison? ('=' :: value) = some (.equal (trimmed value)) :=
          comparison?_eq_some_iff.mpr (.inr (.inr ⟨value, rfl, h, rfl⟩))
        rw [hc]
        rfl
  · intro h
    cases hm : membership? rest with
    | some o' =>
        rw [hm] at h
        cases h
        obtain ⟨gap, keyword, gap', list, rfl, hgap, hk, hgap', rfl⟩ :=
          membership?_eq_some_iff.mp hm
        exact .oneOf gap keyword gap' list hgap hk hgap'
    | none =>
        rw [hm] at h
        obtain ⟨value, rfl, rfl⟩ | ⟨value, rfl, rfl⟩ | ⟨value, rfl, hv, rfl⟩ :=
          comparison?_eq_some_iff.mp h
        · exact .notEqual value
        · exact .like value
        · exact .equal value hv

theorem toNat_of_isFieldChar {c : Char} (h : isFieldChar c) : 48 ≤ c.toNat ∧ c.toNat ≤ 122 := by
  have hclass : (((c.isUpper || c.isLower) || c.isDigit) || c == '_') = true := h
  simp only [Bool.or_eq_true, beq_iff_eq] at hclass
  rcases hclass with ((hupper | hlower) | hdigit) | rfl
  · have h : 65 ≤ c.val ∧ c.val ≤ 90 := of_decide_eq_true hupper
    simp only [UInt32.le_iff_toNat_le, UInt32.reduceToNat, Char.toNat_val] at h
    omega
  · obtain ⟨hlo, hhi⟩ := Bool.and_eq_true_iff.mp hlower
    have h : 97 ≤ c.val ∧ c.val ≤ 122 := ⟨of_decide_eq_true hlo, of_decide_eq_true hhi⟩
    simp only [UInt32.le_iff_toNat_le, UInt32.reduceToNat, Char.toNat_val] at h
    omega
  · have h : 48 ≤ c.toNat ∧ c.toNat ≤ 57 := Char.isDigit_iff_toNat.mp hdigit
    omega
  · decide

theorem toNat_of_isBlank {c : Char} (h : isBlank c) : c.toNat ≤ 32 ∨ 133 ≤ c.toNat := by
  simp only [isBlank, blankRanges, List.any_cons, List.any_nil, Bool.or_eq_true, Bool.and_eq_true,
    decide_eq_true_eq, Bool.or_false] at h
  omega

theorem isBlank_of_isFieldChar {c : Char} (h : isFieldChar c) : isBlank c = false := by
  have hfield := toNat_of_isFieldChar h
  rw [Bool.eq_false_iff]
  intro hblank
  have hb := toNat_of_isBlank hblank
  omega

theorem unpadded_field_append {field rest : List Char} (hfield : IsField field) (hne : rest ≠ [])
    (hrest : ∀ c ∈ rest.getLast?, isBlank c = false) : Unpadded (field ++ rest) := by
  constructor
  · intro c hc
    rw [List.head?_append_of_ne_nil _ hfield.1] at hc
    exact isBlank_of_isFieldChar (hfield.2 c (List.mem_of_head? hc))
  · intro c hc
    rw [List.getLast?_append_of_ne_nil _ hne] at hc
    exact hrest c hc

theorem Operand.WrittenAs.head?_not_field {o : Operand} {rest : List Char} (h : o.WrittenAs rest) :
    ∀ c ∈ rest.head?, isFieldChar c = false := by
  intro c hc
  cases h with
  | oneOf gap keyword gap' list hgap hkeyword hgap' =>
      obtain ⟨b, gap, rfl⟩ := List.exists_cons_of_ne_nil hgap.1
      simp only [List.cons_append, List.head?_cons, Option.mem_def, Option.some.injEq] at hc
      subst hc
      have hb : isBlank b := hgap.2 b (by simp)
      rw [Bool.eq_false_iff]
      intro hf
      simp [isBlank_of_isFieldChar hf] at hb
  | notEqual value => cases hc; rfl
  | like value => cases hc; rfl
  | equal value h => cases hc; rfl

theorem takeWhile_isFieldChar {field rest : List Char} (hf : ∀ c ∈ field, isFieldChar c)
    (hr : ∀ c ∈ rest.head?, isFieldChar c = false) :
    (field ++ rest).takeWhile isFieldChar = field := by
  rw [List.takeWhile_append_of_pos hf]
  cases rest with
  | nil => simp
  | cons c rest => simp [hr c (by simp)]

theorem dropWhile_isFieldChar {field rest : List Char} (hf : ∀ c ∈ field, isFieldChar c)
    (hr : ∀ c ∈ rest.head?, isFieldChar c = false) :
    (field ++ rest).dropWhile isFieldChar = rest := by
  rw [List.dropWhile_append_of_pos hf]
  cases rest with
  | nil => rfl
  | cons c rest => simp [hr c (by simp)]

/-- A draft is written as its field name followed by a form of its operand. -/
def Draft.WrittenAs (d : Draft) (cs : List Char) : Prop :=
  ∃ rest, cs = d.field.toList ++ rest ∧ IsField d.field.toList ∧ d.operand.WrittenAs rest

theorem ofChars?_eq_some_iff {cs : List Char} {d : Draft} :
    Draft.ofChars? cs = some d ↔ d.WrittenAs cs := by
  constructor
  · intro h
    simp only [Draft.ofChars?] at h
    split_ifs at h with hne
    obtain ⟨o, ho, rfl⟩ := Option.map_eq_some_iff.mp h
    refine ⟨cs.dropWhile isFieldChar, ?_, ?_, writtenAs_iff.mpr ho⟩
    · simp
    · rw [String.toList_ofList]
      exact ⟨hne, fun c hc => List.mem_takeWhile_imp hc⟩
  · rintro ⟨rest, rfl, ⟨hne, hf⟩, ho⟩
    have hhead := ho.head?_not_field
    simp only [Draft.ofChars?, takeWhile_isFieldChar hf hhead, dropWhile_isFieldChar hf hhead,
      if_neg hne, writtenAs_iff.mp ho, Option.map_some, String.ofList_toList]

def Predicate.operand : Predicate → Operand
  | .equal v => .equal v
  | .notEqual v => .notEqual v
  | .like g => .like g.source
  | .oneOf vs => .oneOf vs

def Condition.draft (c : Condition) : Draft :=
  ⟨c.field, c.predicate.operand⟩

theorem toCondition_eq_ok_iff {d : Draft} {c : Condition} :
    d.toCondition = .ok c ↔ d = c.draft := by
  constructor
  · intro h
    obtain ⟨field, operand⟩ := d
    cases operand with
    | like pattern =>
        cases hg : Glob.ofPattern? pattern with
        | none => simp [Draft.toCondition, hg] at h
        | some g =>
            simp only [Draft.toCondition, hg, Except.ok.injEq] at h
            rw [← h, ← Glob.source_of_ofPattern? hg]
            rfl
    | equal v => cases h; rfl
    | notEqual v => cases h; rfl
    | oneOf vs => cases h; rfl
  · rintro rfl
    obtain ⟨field, predicate⟩ := c
    cases predicate with
    | like g => simp [Draft.toCondition, Condition.draft, Predicate.operand]
    | equal v => rfl
    | notEqual v => rfl
    | oneOf vs => rfl

theorem ofChars_eq_ok_iff {cs : List Char} {c : Condition} :
    Condition.ofChars cs = .ok c ↔ c.draft.WrittenAs cs := by
  rw [← ofChars?_eq_some_iff, Condition.ofChars]
  cases Draft.ofChars? cs with
  | none => simp
  | some d => simp [toCondition_eq_ok_iff]

end ClusterQuery
