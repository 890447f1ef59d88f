import Mathlib.Data.List.Basic
import Mathlib.Data.List.TakeWhile
import ClusterQuery.Json.Lexer
import ClusterQuery.Json.Printer

/-!
# The tokens of printed objects

A printed scalar, member or object gives its tokens whenever a comma or a newline follows it,
which is what stands behind each of them in a printed list. A string gives back its text, since
every character is read as a piece that denotes it, and a number has no leading zero.
-/

namespace ClusterQuery.Json

namespace Number

theorem head?_toDigits {n : Nat} (h : 0 < n) : (Nat.toDigits 10 n).head? ≠ some '0' := by
  induction n using Nat.strong_induction_on with
  | _ n ih =>
      by_cases hn : n < 10
      · have hdigit : ∀ d < 10, 0 < d → Nat.digitChar d ≠ '0' := by decide
        simpa [Nat.toDigits_of_lt_base hn] using hdigit n hn h
      · rw [Nat.toDigits_of_base_le (by decide) (by omega),
          List.head?_append_of_ne_nil _ Nat.toDigits_ne_nil]
        exact ih (n / 10) (by omega) (by omega)

theorem ofChars?_toDigits (n : Nat) : ofChars? (Nat.toDigits 10 n) = some (.integer n) := by
  have hdigits : ∀ c ∈ Nat.toDigits 10 n, c.isDigit := fun c hc =>
    Nat.isDigit_of_mem_toDigits (by decide) (by decide) hc
  have hunsigned : ofChars? (Nat.toDigits 10 n) = ofUnsigned? false (Nat.toDigits 10 n) := by
    unfold ofChars?
    split
    · next cs heq => simpa using hdigits '-' (by simp [heq])
    · rfl
  have hzero : (Nat.toDigits 10 n).head? = some '0' → Nat.toDigits 10 n = ['0'] := by
    intro h
    rcases Nat.eq_zero_or_pos n with rfl | hn
    · rfl
    · exact absurd h (head?_toDigits hn)
  rw [hunsigned, ofUnsigned?, List.takeWhile_eq_self_iff.mpr hdigits,
    List.dropWhile_eq_nil_iff.mpr hdigits]
  simpa [Nat.ofDigitChars_ten_toDigits] using hzero

end Number

/-- What is read of a printed character: its code unit when it is escaped by number, and else
the character itself. -/
def printedPiece (c : Char) : Piece :=
  if c ∉ ['\x08', '\x0c', '\n', '\r', '\t'] ∧ c.toNat < 0x20 then .unit c.toNat else .char c

namespace Piece

theorem decode?_unit {n : Nat} (h : n < 0xD800) (ps : List Piece) :
    decode? (.unit n :: ps) = (decode? ps).map (Char.ofNat n :: ·) := by
  have hhigh : isHighSurrogate n = false := by simp [isHighSurrogate]; omega
  have hlow : isLowSurrogate n = false := by simp [isLowSurrogate]; omega
  cases ps with
  | nil => simp [decode?, hhigh, hlow]
  | cons p ps => cases p <;> simp [decode?, hhigh, hlow]

theorem decode?_map_printedPiece (cs : List Char) : decode? (cs.map printedPiece) = some cs := by
  induction cs with
  | nil => rfl
  | cons c cs ih =>
      rw [List.map_cons, printedPiece]
      split
      · next h => rw [decode?_unit (by omega), ih, Char.ofNat_toNat, Option.map_some]
      · rw [decode?, ih, Option.map_some]

end Piece

namespace Lexer

/-- The lexer once it has read some more characters. -/
def after (l : Lexer) (cs : List Char) : Option Lexer :=
  (cs.map Symbol.char).foldlM step l

theorem after_of_step {l l' : Lexer} {c : Char} (h : l.step (.char c) = some l')
    (cs : List Char) : l.after (c :: cs) = l'.after cs := by
  simp [after, h]

theorem after_escapeChar (done : List Token) (ps : List Piece) (c : Char) (cs : List Char) :
    after ⟨done, .string ps⟩ (escapeChar c ++ cs) =
      after ⟨done, .string (printedPiece c :: ps)⟩ cs := by
  by_cases hshort : c ∈ ['"', '\\', '\x08', '\x0c', '\n', '\r', '\t']
  · simp only [List.mem_cons, List.not_mem_nil, or_false] at hshort
    rcases hshort with rfl | rfl | rfl | rfl | rfl | rfl | rfl <;> rfl
  · simp only [List.mem_cons, List.not_mem_nil, or_false, not_or] at hshort
    by_cases hcontrol : c.toNat < 0x20
    · have hescape : escapeChar c ++ cs = '\\' :: 'u' :: '0' :: '0' ::
          Nat.digitChar (c.toNat / 16) :: Nat.digitChar (c.toNat % 16) :: cs := by
        simp [escapeChar, hshort, hcontrol]
      have hpiece : printedPiece c = .unit c.toNat := by simp [printedPiece, hshort, hcontrol]
      have hhigh : step ⟨done, .hex 1 0 ps⟩ (.char (Nat.digitChar (c.toNat / 16))) =
          some ⟨done, .hex 0 (c.toNat / 16) ps⟩ := by
        simp [step, hexStep, hexValue?_digitChar (c.toNat / 16) (by omega)]
      have hlow : step ⟨done, .hex 0 (c.toNat / 16) ps⟩ (.char (Nat.digitChar (c.toNat % 16))) =
          some ⟨done, .string (.unit c.toNat :: ps)⟩ := by
        simp [step, hexStep, hexValue?_digitChar (c.toNat % 16) (by omega), Nat.div_add_mod']
      rw [hescape, hpiece]
      change after ⟨done, .hex 1 0 ps⟩ _ = _
      rw [after_of_step hhigh, after_of_step hlow]
    · have hescape : escapeChar c = [c] := by simp [escapeChar, hshort, hcontrol]
      have hpiece : printedPiece c = .char c := by simp [printedPiece, hcontrol]
      have hstep : step ⟨done, .string ps⟩ (.char c) = some ⟨done, .string (.char c :: ps)⟩ := by
        simp [step, stringStep, hshort, hcontrol]
      rw [hescape, hpiece]
      exact after_of_step hstep cs

theorem after_escaped (done : List Token) (ps : List Piece) (text cs : List Char) :
    after ⟨done, .string ps⟩ (text.flatMap escapeChar ++ cs) =
      after ⟨done, .string ((text.map printedPiece).reverse ++ ps)⟩ cs := by
  induction text generalizing ps with
  | nil => rfl
  | cons c text ih =>
      rw [List.flatMap_cons, List.append_assoc, after_escapeChar, ih]
      simp

theorem after_printString (done : List Token) (s : String) (cs : List Char) :
    after ⟨done, .between⟩ (printString s ++ cs) =
      after ⟨.string (some s) :: done, .between⟩ cs := by
  have hopen : step ⟨done, .between⟩ (.char '"') = some ⟨done, .string []⟩ := rfl
  have hclose : step ⟨done, .string (s.toList.map printedPiece).reverse⟩ (.char '"') =
      some ⟨.string (some s) :: done, .between⟩ := by
    simp [step, stringStep, Piece.decode?_map_printedPiece]
  rw [printString, List.cons_append, List.append_assoc, after_of_step hopen, after_escaped,
    List.append_nil]
  exact after_of_step hclose cs

theorem after_digits (done : List Token) (read digits cs : List Char)
    (h : ∀ c ∈ digits, c.isDigit) : after ⟨done, .number read⟩ (digits ++ cs) =
      after ⟨done, .number (digits.reverse ++ read)⟩ cs := by
  induction digits generalizing read with
  | nil => rfl
  | cons c digits ih =>
      obtain ⟨hc, hdigits⟩ := List.forall_mem_cons.mp h
      have hstep : step ⟨done, .number read⟩ (.char c) = some ⟨done, .number (c :: read)⟩ := by
        simp [step, isNumberChar, hc]
      rw [List.cons_append, after_of_step hstep, ih _ hdigits]
      simp

theorem start_of_isDigit {c : Char} (h : c.isDigit) (done : List Token) :
    start done (.char c) = some ⟨done, .number [c]⟩ := by
  have hother : ∀ d ∈ [' ', '\t', '\n', '\r', '[', ']', '{', '}', ',', ':', '"'], c ≠ d := by
    have hnone : [' ', '\t', '\n', '\r', '[', ']', '{', '}', ',', ':', '"'].all
        fun d => !d.isDigit := by decide
    rintro d hd rfl
    simpa [h] using List.all_eq_true.mp hnone c hd
  simp only [List.forall_mem_cons, List.not_mem_nil, false_implies, implies_true, and_true]
    at hother
  simp [start, isSpace, hother, h]

theorem after_toDigits (done : List Token) (n : Nat) {c : Char} (hc : isNumberChar c = false)
    (cs : List Char) : after ⟨done, .between⟩ (Nat.toDigits 10 n ++ c :: cs) =
      after ⟨.number (.integer n) :: done, .between⟩ (c :: cs) := by
  have hdigits : ∀ d ∈ Nat.toDigits 10 n, d.isDigit := fun d hd =>
    Nat.isDigit_of_mem_toDigits (by decide) (by decide) hd
  obtain ⟨d, ds, hn⟩ := List.exists_cons_of_ne_nil (Nat.toDigits_ne_nil (n := n) (b := 10))
  have hvalue := Number.ofChars?_toDigits n
  rw [hn] at hdigits hvalue ⊢
  obtain ⟨hd, hds⟩ := List.forall_mem_cons.mp hdigits
  have hstart : step ⟨done, .between⟩ (.char d) = some ⟨done, .number [d]⟩ :=
    start_of_isDigit hd done
  -- The character after the digits ends the number and is then read by itself.
  have hend : step ⟨done, .number (ds.reverse ++ [d])⟩ (.char c) =
      start (.number (.integer n) :: done) (.char c) := by
    simp [step, close, hc, hvalue]
  rw [List.cons_append, after_of_step hstart, after_digits _ _ _ _ hds]
  simp only [after, List.map_cons, List.foldlM_cons, hend]
  rfl

/-- The character is this token by itself. -/
def IsMark (c : Char) (t : Token) : Prop :=
  ∀ done, step ⟨done, .between⟩ (.char c) = some ⟨t :: done, .between⟩

theorem after_mark {c : Char} {t : Token} (h : IsMark c t) (done : List Token)
    (cs : List Char) :
    after ⟨done, .between⟩ (c :: cs) = after ⟨t :: done, .between⟩ cs :=
  after_of_step (h done) cs

theorem after_newline (done : List Token) (indent : Nat) (cs : List Char) :
    after ⟨done, .between⟩ (newline indent ++ cs) = after ⟨done, .between⟩ cs := by
  have hbreak : after ⟨done, .between⟩ (newline indent ++ cs) =
      after ⟨done, .between⟩ (List.replicate indent ' ' ++ cs) := rfl
  rw [hbreak]
  induction indent with
  | zero => rfl
  | succ indent ih => exact ih rfl

end Lexer

/-- The text gives these tokens wherever a comma or a newline follows it. -/
def Spells (cs : List Char) (ts : List Token) : Prop :=
  ∀ done c rest, c = ',' ∨ c = '\n' →
    Lexer.after ⟨done, .between⟩ (cs ++ c :: rest) =
      Lexer.after ⟨ts.reverse ++ done, .between⟩ (c :: rest)

def Scalar.token : Scalar → Token
  | .text s => .string (some s)
  | .number n => .number (.integer n)
  | .bool b => .bool b

def memberTokens (m : String × Scalar) : List Token :=
  [.string (some m.1), .colon, m.2.token]

def objectTokens (members : List (String × Scalar)) : List Token :=
  .openObject :: ([.comma].intercalate (members.map memberTokens) ++ [.closeObject])

def objectsTokens (objects : List (List (String × Scalar))) : List Token :=
  .openList :: ([.comma].intercalate (objects.map objectTokens) ++ [.closeList])

theorem spells_printScalar (v : Scalar) : Spells (printScalar v) [v.token] := by
  intro done c rest hc
  cases v with
  | text s => exact Lexer.after_printString done s _
  | number n =>
      have hnumber : isNumberChar c = false := by rcases hc with rfl | rfl <;> decide
      exact Lexer.after_toDigits done n hnumber rest
  | bool b => cases b <;> rcases hc with rfl | rfl <;> rfl

theorem spells_printMember (m : String × Scalar) : Spells (printMember m) (memberTokens m) := by
  intro done c rest hc
  rw [printMember, List.append_assoc, List.append_assoc, Lexer.after_printString]
  exact spells_printScalar m.2 (.colon :: .string (some m.1) :: done) c rest hc

section Block

variable {α : Type} {print : α → List Char} {tokens : α → List Token}

theorem spells_lines (indent : Nat) {xs : List α} (hne : xs ≠ [])
    (h : ∀ x ∈ xs, Spells (print x) (tokens x)) :
    Spells ([','].intercalate (xs.map fun x => newline indent ++ print x))
      ([.comma].intercalate (xs.map tokens)) := by
  induction xs with
  | nil => contradiction
  | cons x xs ih =>
      obtain ⟨hx, hxs⟩ := List.forall_mem_cons.mp h
      intro done c rest hc
      cases xs with
      | nil =>
          simp only [List.map_cons, List.map_nil, List.intercalate_singleton, List.append_assoc]
          rw [Lexer.after_newline]
          exact hx done c rest hc
      | cons y ys =>
          have hcomma : Lexer.IsMark ',' .comma := fun _ => rfl
          have hrest := ih (by simp) hxs (.comma :: ((tokens x).reverse ++ done)) c rest hc
          simp only [List.map_cons, List.intercalate_cons_cons, List.append_assoc,
            List.reverse_append, List.cons_append, List.reverse_cons, List.nil_append] at hrest ⊢
          rw [Lexer.after_newline, hx done ',' _ (.inl rfl), Lexer.after_mark hcomma]
          exact hrest

/-- The parts of a block give their tokens, with commas between them, inside the brackets. -/
theorem spells_printBlock {indent : Nat} {opening closing : Char} {first last : Token}
    (hopening : Lexer.IsMark opening first) (hclosing : Lexer.IsMark closing last) {xs : List α}
    (h : ∀ x ∈ xs, Spells (print x) (tokens x)) :
    Spells (printBlock indent opening closing (xs.map print))
      (first :: ([.comma].intercalate (xs.map tokens) ++ [last])) := by
  intro done c rest hc
  by_cases hnil : xs = []
  · subst hnil
    exact (Lexer.after_mark hopening _ _).trans (Lexer.after_mark hclosing _ _)
  · have hlines := spells_lines (indent + 2) hnil h (first :: done) '\n'
      (List.replicate indent ' ' ++ closing :: c :: rest) (.inr rfl)
    rw [printBlock, if_neg (by simpa using hnil), List.map_map]
    simp only [List.cons_append, List.append_assoc, List.nil_append]
    rw [Lexer.after_mark hopening]
    refine hlines.trans ((Lexer.after_newline _ indent _).trans ?_)
    rw [Lexer.after_mark hclosing]
    simp

end Block

theorem spells_printObject (indent : Nat) (members : List (String × Scalar)) :
    Spells (printObject indent members) (objectTokens members) :=
  spells_printBlock (fun _ => rfl) (fun _ => rfl) fun m _ => spells_printMember m

theorem spells_printObjects (objects : List (List (String × Scalar))) :
    Spells (printObjects objects) (objectsTokens objects) :=
  spells_printBlock (fun _ => rfl) (fun _ => rfl) fun members _ => spells_printObject 2 members

/-- The lexer undoes the printing of a list of objects with a newline after it. -/
theorem tokens?_printObjects (objects : List (List (String × Scalar))) :
    tokens? ((printObjects objects ++ ['\n']).map Symbol.char) = some (objectsTokens objects) := by
  have hread : Lexer.after {} (printObjects objects ++ ['\n']) =
      some ⟨(objectsTokens objects).reverse ++ [], .between⟩ :=
    spells_printObjects objects [] '\n' [] (.inr rfl)
  rw [Lexer.after] at hread
  rw [tokens?, hread]
  simp [Lexer.close]

end ClusterQuery.Json
