import Mathlib.Data.List.Forall2
import ClusterQuery.Selector.Fragment

/-!
# Depth and cuts

The balance of a text is the number of its opening parentheses minus that of its closing ones,
so the depth of a place is the balance of what stands before it. A list of parts is a cut when
no comma of a part stands at depth zero and every part but the last ends there. Cutting a text
at its commas of depth zero gives the one cut whose parts, joined by commas, are the text.

All of this looks only at the marks of a text, which are its commas and parentheses.
-/

namespace ClusterQuery

/-- The number of opening parentheses minus that of closing ones. -/
def balance (cs : List Char) : Int :=
  cs.count '(' - cs.count ')'

@[simp] theorem balance_nil : balance [] = 0 := rfl

theorem balance_append (cs ds : List Char) : balance (cs ++ ds) = balance cs + balance ds := by
  simp only [balance, List.count_append]
  omega

theorem balance_cons (c : Char) (cs : List Char) : balance (c :: cs) = balance [c] + balance cs :=
  balance_append [c] cs

@[simp] theorem balance_comma : balance [','] = 0 := rfl

theorem balance_eq_zero_iff {cs : List Char} : balance cs = 0 ↔ cs.count '(' = cs.count ')' := by
  unfold balance
  omega

theorem depthAfter_eq (depth : Int) (c : Char) : depthAfter depth c = depth + balance [c] := by
  unfold depthAfter
  split
  · next h => simp [balance, h]
  · split
    · next h => simp [balance, h]; omega
    · next h h' => simp [balance, h, h']

/-- No comma of a text that starts at the given depth stands at depth zero. -/
def CommasInside (depth : Int) (cs : List Char) : Prop :=
  ∀ before after, cs = before ++ ',' :: after → depth + balance before ≠ 0

theorem commasInside_nil (depth : Int) : CommasInside depth [] := by
  intro before after h
  simp at h

theorem commasInside_cons {depth : Int} {c : Char} {cs : List Char} :
    CommasInside depth (c :: cs) ↔
      (c = ',' → depth ≠ 0) ∧ CommasInside (depthAfter depth c) cs := by
  constructor
  · intro h
    constructor
    · rintro rfl
      simpa using h [] cs rfl
    · intro before after hcs
      have hd := h (c :: before) after (by simp [hcs])
      rwa [balance_cons, ← Int.add_assoc, ← depthAfter_eq] at hd
  · rintro ⟨hc, hcs⟩ before after h
    cases before with
    | nil =>
        simp only [List.nil_append, List.cons.injEq] at h
        simpa using hc h.1
    | cons b before =>
        simp only [List.cons_append, List.cons.injEq] at h
        have hd := hcs before after h.2
        rwa [depthAfter_eq, h.1, Int.add_assoc, ← balance_cons] at hd

/-- No comma of a part stands at depth zero, and every part but the last ends there. The first
part starts at the given depth and the others at zero. -/
def IsCut : Int → List (List Char) → Prop
  | _, [] => False
  | depth, [part] => CommasInside depth part
  | depth, part :: next :: parts =>
    CommasInside depth part ∧ depth + balance part = 0 ∧ IsCut 0 (next :: parts)

theorem isCut_cons_cons {depth : Int} {c : Char} {part : List Char} {parts : List (List Char)} :
    IsCut depth ((c :: part) :: parts) ↔
      (c = ',' → depth ≠ 0) ∧ IsCut (depthAfter depth c) (part :: parts) := by
  cases parts with
  | nil => simp only [IsCut, commasInside_cons]
  | cons next parts =>
      simp only [IsCut, commasInside_cons, balance_cons c part, depthAfter_eq, Int.add_assoc,
        and_assoc]

theorem isCut_zero_iff {parts : List (List Char)} :
    IsCut 0 parts ↔ parts ≠ [] ∧ (∀ p ∈ parts, CommasInside 0 p) ∧
      ∀ p ∈ parts.dropLast, balance p = 0 := by
  induction parts with
  | nil => simp [IsCut]
  | cons part parts ih =>
      cases parts with
      | nil => simp [IsCut]
      | cons next parts =>
          simp only [IsCut, ih, List.dropLast_cons_cons, List.forall_mem_cons, Int.zero_add]
          simp only [ne_eq, reduceCtorEq, not_false_eq_true, true_and]
          grind

theorem isCut_fragmentsFrom (depth : Int) (cs : List Char) :
    IsCut depth (fragmentsFrom depth cs) := by
  induction cs generalizing depth with
  | nil => exact commasInside_nil depth
  | cons c cs ih =>
      obtain ⟨part, parts, hp⟩ := List.exists_cons_of_ne_nil
        (fragmentsFrom_ne_nil (depthAfter depth c) cs)
      have hcut := ih (depthAfter depth c)
      unfold fragmentsFrom
      split
      · next h =>
          obtain ⟨rfl, rfl⟩ := h
          obtain ⟨next, rest, hn⟩ := List.exists_cons_of_ne_nil (fragmentsFrom_ne_nil 0 cs)
          have hrest := ih 0
          rw [hn] at hrest ⊢
          exact ⟨commasInside_nil 0, rfl, hrest⟩
      · next h =>
          rw [hp] at hcut ⊢
          exact isCut_cons_cons.mpr ⟨fun hc hd => h ⟨hc, hd⟩, hcut⟩

theorem intercalate_fragmentsFrom (depth : Int) (cs : List Char) :
    [','].intercalate (fragmentsFrom depth cs) = cs := by
  induction cs generalizing depth with
  | nil => rfl
  | cons c cs ih =>
      unfold fragmentsFrom
      split
      · next h =>
          rw [List.intercalate_cons_of_ne_nil (fragmentsFrom_ne_nil _ _), ih, h.1]
          rfl
      · have hrest := ih (depthAfter depth c)
        obtain ⟨part, parts, hp⟩ := List.exists_cons_of_ne_nil
          (fragmentsFrom_ne_nil (depthAfter depth c) cs)
        rw [hp] at hrest ⊢
        rw [List.modifyHead_cons, List.intercalate_cons_cons_left, hrest]

theorem fragmentsFrom_comma (cs : List Char) :
    fragmentsFrom 0 (',' :: cs) = [] :: fragmentsFrom 0 cs := by
  simp [fragmentsFrom]

theorem fragmentsFrom_append {depth : Int} {part : List Char} (h : CommasInside depth part)
    (rest : List Char) :
    fragmentsFrom depth (part ++ rest) =
      (fragmentsFrom (depth + balance part) rest).modifyHead (part ++ ·) := by
  induction part generalizing depth with
  | nil =>
      rw [List.nil_append, balance_nil, Int.add_zero]
      exact (congrFun List.modifyHead_id _).symm
  | cons c part ih =>
      obtain ⟨hc, hpart⟩ := commasInside_cons.mp h
      have hcut : ¬(c = ',' ∧ depth = 0) := fun h => hc h.1 h.2
      rw [List.cons_append, fragmentsFrom, if_neg hcut, ih hpart, List.modifyHead_modifyHead,
        depthAfter_eq, Int.add_assoc, ← balance_cons]
      rfl

/-- A comma behind a text that ends at depth zero cuts it off from what follows. -/
theorem fragmentsFrom_append_comma {depth : Int} {cs : List Char} (h : depth + balance cs = 0)
    (rest : List Char) :
    fragmentsFrom depth (cs ++ ',' :: rest) = fragmentsFrom depth cs ++ fragmentsFrom 0 rest := by
  induction cs generalizing depth with
  | nil =>
      obtain rfl : depth = 0 := by simpa using h
      exact fragmentsFrom_comma rest
  | cons c cs ih =>
      rw [balance_cons, ← Int.add_assoc, ← depthAfter_eq] at h
      by_cases hc : c = ',' ∧ depth = 0
      · obtain ⟨rfl, rfl⟩ := hc
        have hrest : 0 + balance cs = 0 := h
        rw [List.cons_append, fragmentsFrom_comma, fragmentsFrom_comma, ih hrest, List.cons_append]
      · obtain ⟨part, parts, hp⟩ := List.exists_cons_of_ne_nil
          (fragmentsFrom_ne_nil (depthAfter depth c) cs)
        rw [List.cons_append, fragmentsFrom, if_neg hc, ih h, fragmentsFrom, if_neg hc, hp]
        rfl

/-- A cut is found again in the text of its parts. -/
theorem fragmentsFrom_intercalate {depth : Int} {parts : List (List Char)}
    (h : IsCut depth parts) : fragmentsFrom depth ([','].intercalate parts) = parts := by
  induction parts generalizing depth with
  | nil => exact absurd h (by simp [IsCut])
  | cons part parts ih =>
      cases parts with
      | nil =>
          have hpart := fragmentsFrom_append h []
          simpa [fragmentsFrom] using hpart
      | cons next parts =>
          obtain ⟨hpart, hzero, hrest⟩ := h
          rw [List.intercalate_cons_cons, List.append_assoc, fragmentsFrom_append hpart, hzero,
            List.singleton_append, fragmentsFrom_comma, ih hrest]
          simp

theorem balance_getLast {parts : List (List Char)} (h : IsCut 0 parts) (hne : parts ≠ []) :
    balance (parts.getLast hne) = balance ([','].intercalate parts) := by
  induction parts with
  | nil => exact absurd rfl hne
  | cons part parts ih =>
      cases parts with
      | nil => simp
      | cons next parts =>
          obtain ⟨-, hzero, hrest⟩ := h
          rw [List.getLast_cons_cons, ih hrest (by simp), List.intercalate_cons_cons,
            balance_append, balance_append, balance_comma]
          omega

/-- The commas and parentheses of a text, in their order. -/
def marks (cs : List Char) : List Char :=
  cs.filter fun c => c = ',' ∨ c = '(' ∨ c = ')'

theorem marks_append (cs ds : List Char) : marks (cs ++ ds) = marks cs ++ marks ds :=
  List.filter_append ..

theorem balance_marks (cs : List Char) : balance (marks cs) = balance cs := by
  simp [balance, marks, List.count_filter]

theorem commasInside_marks {depth : Int} {cs : List Char} :
    CommasInside depth (marks cs) ↔ CommasInside depth cs := by
  induction cs generalizing depth with
  | nil => rfl
  | cons c cs ih =>
      by_cases h : c = ',' ∨ c = '(' ∨ c = ')'
      · have hm : marks (c :: cs) = c :: marks cs := List.filter_cons_of_pos (by simpa using h)
        rw [hm, commasInside_cons, commasInside_cons, ih]
      · have hm : marks (c :: cs) = marks cs := List.filter_cons_of_neg (by simpa using h)
        simp only [not_or] at h
        have hd : depthAfter depth c = depth := by simp [depthAfter, h.2.1, h.2.2]
        rw [hm, commasInside_cons, hd, ih]
        simp [h.1]

theorem isCut_map_marks {depth : Int} {parts : List (List Char)} :
    IsCut depth (parts.map marks) ↔ IsCut depth parts := by
  induction parts generalizing depth with
  | nil => rfl
  | cons part parts ih =>
      cases parts with
      | nil => exact commasInside_marks
      | cons next parts =>
          have hrest : IsCut 0 (marks next :: parts.map marks) ↔ IsCut 0 (next :: parts) := ih
          simp only [List.map_cons, IsCut, commasInside_marks, balance_marks, hrest]

end ClusterQuery
