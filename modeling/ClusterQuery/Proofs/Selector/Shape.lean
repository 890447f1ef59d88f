import ClusterQuery.Proofs.Selector.Grammar

/-!
# The shapes of a condition

A text that is a condition has one of two shapes. A membership test is a field name, the keyword
`in` between two gaps, and a list in parentheses that ends the text. A comparison is a field name,
at once the first operator that the rest opens with, and a value. A text has at most one shape and
is made of its parts in one way only. It is read as the condition of its shape; a text without a
shape is malformed, and a wildcard match is refused when its pattern is.
-/

namespace ClusterQuery

/-- The operators that stand between a field name and a value. -/
inductive Comparator
  | notEqual
  | like
  | equal
  deriving DecidableEq, Repr

namespace Comparator

/-- All comparators, in the order in which they are tried. -/
def all : List Comparator := [notEqual, like, equal]

def token : Comparator → List Char
  | notEqual => ['!', '=']
  | like => ['=', '~']
  | equal => ['=']

def operand : Comparator → String → Operand
  | notEqual => .notEqual
  | like => .like
  | equal => .equal

/-- The first comparator that the text opens with. -/
def leading? (cs : List Char) : Option Comparator :=
  all.find? (·.token.isPrefixOf cs)

theorem leading?_token_append {op : Comparator} {value : List Char} :
    leading? (op.token ++ value) = some op ↔ (op = .equal → value.head? ≠ some '~') := by
  cases op with
  | notEqual => simp [leading?, all, token]
  | like => simp [leading?, all, token]
  | equal =>
      cases value with
      | nil => simp [leading?, all, token]
      | cons c value =>
          by_cases hc : c = '~'
          · simp [leading?, all, token, hc]
          · simp [leading?, all, token, hc, Ne.symm hc]

end Comparator

/-- The parts of a text that is a condition. -/
inductive Shape
  | membership (field list : List Char)
  | comparison (field : List Char) (op : Comparator) (value : List Char)

namespace Shape

/-- The text is put together from these parts. -/
def Fits : Shape → List Char → Prop
  | membership field list, cs => ∃ gap keyword gap',
      cs = field ++ (gap ++ (keyword ++ (gap' ++ '(' :: (list ++ [')'])))) ∧
        IsField field ∧ IsGap gap ∧ IsKeyword keyword ∧ IsGap gap'
  | comparison field op value, cs =>
      cs = field ++ (op.token ++ value) ∧ IsField field ∧
        Comparator.leading? (op.token ++ value) = some op

/-- What the parts say: the items of a list are its trimmed pieces between commas, and the value
of a comparison is trimmed. -/
def draft : Shape → Draft
  | membership field list =>
      ⟨String.ofList field, .oneOf ((list.splitOn ',').map trimmed)⟩
  | comparison field op value => ⟨String.ofList field, op.operand (trimmed value)⟩

variable {s s' : Shape} {cs : List Char}

theorem writtenAs_draft (h : s.Fits cs) : s.draft.WrittenAs cs := by
  cases s with
  | membership field list =>
      obtain ⟨gap, keyword, gap', rfl, hf, hgap, hk, hgap'⟩ := h
      refine ⟨gap ++ (keyword ++ (gap' ++ '(' :: (list ++ [')']))), ?_, ?_,
        .oneOf gap keyword gap' list hgap hk hgap'⟩
      · simp [draft]
      · simpa [draft] using hf
  | comparison field op value =>
      obtain ⟨rfl, hf, hop⟩ := h
      refine ⟨op.token ++ value, by simp [draft], by simpa [draft] using hf, ?_⟩
      rw [Comparator.leading?_token_append] at hop
      cases op with
      | notEqual => exact .notEqual value
      | like => exact .like value
      | equal => exact .equal value (hop rfl)

theorem comparison_fits {field value : List Char} {op : Comparator} (hf : IsField field)
    (hv : op = .equal → value.head? ≠ some '~') :
    (comparison field op value).Fits (field ++ (op.token ++ value)) :=
  ⟨rfl, hf, Comparator.leading?_token_append.mpr hv⟩

theorem draft_comparison (field : String) (op : Comparator) (value : List Char) :
    (comparison field.toList op value).draft = ⟨field, op.operand (trimmed value)⟩ := by
  simp [draft]

theorem exists_fits_of_writtenAs {d : Draft} (h : d.WrittenAs cs) :
    ∃ s : Shape, s.Fits cs ∧ s.draft = d := by
  obtain ⟨field, operand⟩ := d
  obtain ⟨rest, rfl, hf, ho⟩ := h
  cases ho with
  | notEqual value => exact ⟨_, comparison_fits hf (by simp), draft_comparison field .notEqual value⟩
  | like value => exact ⟨_, comparison_fits hf (by simp), draft_comparison field .like value⟩
  | equal value hv => exact ⟨_, comparison_fits hf fun _ => hv, draft_comparison field .equal value⟩
  | oneOf gap keyword gap' list hgap hk hgap' =>
      exact ⟨membership field.toList list, ⟨gap, keyword, gap', rfl, hf, hgap, hk, hgap'⟩,
        by simp [draft, listItems]⟩

/-- A text is written as a draft exactly when it has a shape that says it. -/
theorem writtenAs_iff_exists_fits {d : Draft} :
    d.WrittenAs cs ↔ ∃ s : Shape, s.Fits cs ∧ s.draft = d := by
  constructor
  · exact exists_fits_of_writtenAs
  · rintro ⟨s, hs, rfl⟩
    exact writtenAs_draft hs

/-- What two shapes of a text say is the same, since the text is read in one way. -/
theorem draft_eq_of_fits (h : s.Fits cs) (h' : s'.Fits cs) : s.draft = s'.draft := by
  have hs := ofChars?_eq_some_iff.mpr (writtenAs_draft h)
  have hs' := ofChars?_eq_some_iff.mpr (writtenAs_draft h')
  exact Option.some.inj (hs.symm.trans hs')

/-- The readers of gaps, keyword and parentheses find the list. -/
theorem list_found {gap keyword gap' list : List Char} (hgap : IsGap gap)
    (hk : IsKeyword keyword) (hgap' : IsGap gap') :
    (((afterBlanks? (gap ++ (keyword ++ (gap' ++ '(' :: (list ++ [')']))))).bind
      afterKeyword?).bind afterBlanks?).bind insideParens? = some list := by
  have hfirst := afterBlanks?_eq_some_iff.mpr ⟨gap, rfl, hgap,
    isBlank_of_isKeyword hk (gap' ++ '(' :: (list ++ [')']))⟩
  have hkeyword : afterKeyword? (keyword ++ (gap' ++ '(' :: (list ++ [')']))) =
      some (gap' ++ '(' :: (list ++ [')'])) := afterKeyword?_eq_some_iff.mpr ⟨keyword, rfl, hk⟩
  have hsecond : afterBlanks? (gap' ++ '(' :: (list ++ [')'])) = some ('(' :: (list ++ [')'])) :=
    afterBlanks?_eq_some_iff.mpr ⟨gap', rfl, hgap', by simp; decide⟩
  have hlist : insideParens? ('(' :: (list ++ [')'])) = some list :=
    insideParens?_eq_some_iff.mpr rfl
  simp only [hfirst, hkeyword, hsecond, hlist, Option.bind_some]

/-- A text has at most one shape, with one choice of its parts. -/
theorem eq_of_fits (h : s.Fits cs) (h' : s'.Fits cs) : s = s' := by
  -- The field names agree as those of one draft, so what follows them is the same text.
  have hdraft := draft_eq_of_fits h h'
  cases s with
  | membership field list =>
      cases s' with
      | membership field' list' =>
          obtain ⟨gap, keyword, gap₁, hcs, -, hgap, hk, hgap₁⟩ := h
          obtain ⟨gap', keyword', gap₁', hcs', -, hgap', hk', hgap₁'⟩ := h'
          obtain rfl : field = field' := String.ofList_injective (congrArg Draft.field hdraft)
          have hrest := List.append_cancel_left (hcs.symm.trans hcs')
          have hlist : some list = some list' := by
            rw [← list_found hgap hk hgap₁, hrest, list_found hgap' hk' hgap₁']
          rw [Option.some.inj hlist]
      | comparison field' op value => cases op <;> simp [draft, Comparator.operand] at hdraft
  | comparison field op value =>
      cases s' with
      | membership field' list => cases op <;> simp [draft, Comparator.operand] at hdraft
      | comparison field' op' value' =>
          obtain ⟨hcs, -, hop⟩ := h
          obtain ⟨hcs', -, hop'⟩ := h'
          obtain rfl : field = field' := String.ofList_injective (congrArg Draft.field hdraft)
          have hrest := List.append_cancel_left (hcs.symm.trans hcs')
          rw [hrest, hop', Option.some_inj] at hop
          subst hop
          rw [List.append_cancel_left hrest]

end Shape

/-- How a text that is no condition is refused: it has no shape, or it is a wildcard match whose
pattern is not accepted. -/
inductive Refused (cs : List Char) : SelectorError → Prop
  | malformed (h : ∀ s : Shape, ¬s.Fits cs) : Refused cs (.malformed (String.ofList cs))
  | tooManyWildcards (field value : List Char) (h : (Shape.comparison field .like value).Fits cs)
      (hp : Glob.ofPattern? (trimmed value) = none) :
      Refused cs (.tooManyWildcards (trimmed value))

theorem ofChars_eq_ok_iff_exists_fits {cs : List Char} {c : Condition} :
    Condition.ofChars cs = .ok c ↔ ∃ s : Shape, s.Fits cs ∧ s.draft = c.draft :=
  ofChars_eq_ok_iff.trans Shape.writtenAs_iff_exists_fits

theorem toCondition_eq_error_iff {d : Draft} {e : SelectorError} : d.toCondition = .error e ↔
    ∃ pattern, d.operand = .like pattern ∧ Glob.ofPattern? pattern = none ∧
      e = .tooManyWildcards pattern := by
  obtain ⟨field, operand⟩ := d
  cases operand with
  | like pattern =>
      cases hg : Glob.ofPattern? pattern with
      | none => simp [Draft.toCondition, hg, eq_comm]
      | some g => simp [Draft.toCondition, hg]
  | equal v => simp [Draft.toCondition]
  | notEqual v => simp [Draft.toCondition]
  | oneOf vs => simp [Draft.toCondition]

theorem Shape.operand_draft_eq_like_iff {s : Shape} {pattern : String} :
    s.draft.operand = .like pattern ↔
      ∃ field value, s = .comparison field .like value ∧ pattern = trimmed value := by
  cases s with
  | membership field list => simp [Shape.draft]
  | comparison field op value => cases op <;> simp [Shape.draft, Comparator.operand, eq_comm]

theorem ofChars_eq_error_iff {cs : List Char} {e : SelectorError} :
    Condition.ofChars cs = .error e ↔ Refused cs e := by
  rw [Condition.ofChars]
  cases hd : Draft.ofChars? cs with
  | none =>
      have hnone (s : Shape) : ¬s.Fits cs := by
        intro hs
        have hsome := ofChars?_eq_some_iff.mpr (Shape.writtenAs_draft hs)
        rw [hd] at hsome
        contradiction
      constructor
      · rintro ⟨⟩
        exact .malformed hnone
      · rintro (_ | ⟨field, value, hs, -⟩)
        · rfl
        · exact absurd hs (hnone _)
  | some d =>
      obtain ⟨s, hs, rfl⟩ := Shape.exists_fits_of_writtenAs (ofChars?_eq_some_iff.mp hd)
      simp only [toCondition_eq_error_iff, Shape.operand_draft_eq_like_iff]
      constructor
      · rintro ⟨_, ⟨field, value, rfl, rfl⟩, hp, rfl⟩
        exact .tooManyWildcards field value hs hp
      · rintro (h | ⟨field, value, hs', hp⟩)
        · exact absurd hs (h s)
        · exact ⟨_, ⟨field, value, Shape.eq_of_fits hs hs', rfl⟩, hp, rfl⟩

/-- A text is read as a condition exactly when it has a shape that says it, no text has two shapes
or two choices of parts, and a text that is not read is refused for the one thing wrong with it. -/
theorem Condition.ofText_by_shape (text : String) :
    (∀ c : Condition, Condition.ofText text = .ok c ↔
      ∃ s : Shape, s.Fits text.toList ∧ s.draft = c.draft) ∧
    (∀ s s' : Shape, s.Fits text.toList → s'.Fits text.toList → s = s') ∧
    ∀ e, Condition.ofText text = .error e ↔ Refused text.toList e :=
  ⟨fun _ => ofChars_eq_ok_iff_exists_fits, fun _ _ => Shape.eq_of_fits,
    fun _ => ofChars_eq_error_iff⟩

example : Condition.ofText "pool iN\t( a,(b,,)" = .ok ⟨"pool", .oneOf ["a", "(b", "", ""]⟩ := by
  decide

end ClusterQuery
