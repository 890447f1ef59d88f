import Mathlib.Data.List.Basic
import ClusterQuery.Config

/-!
# Configurations written as documents

A configuration is written as a document with its output format on the first line and, under the
header of the selectors, a line for each kind. In a string the quote, the backslash and the control
characters are escaped, and all others stand for themselves; an item of an array has a comma after
it. The document is read back as the configuration, so every configuration is that of some document.
-/

namespace ClusterQuery

namespace Toml

def escapeChar (c : Char) : List Char :=
  if c = '"' ∨ c = '\\' then ['\\', c]
  else if isTextChar c then [c]
  else ['\\', 'u', '0', '0', Nat.digitChar (c.toNat / 16), Nat.digitChar (c.toNat % 16)]

def writeString (s : String) : List Char :=
  '"' :: (s.toList.flatMap escapeChar ++ ['"'])

/-- The items of an array and its closing bracket. -/
def writeItems : List String → List Char
  | [] => [']']
  | s :: ss => writeString s ++ ',' :: writeItems ss

def writeArray (ss : List String) : List Char :=
  '[' :: writeItems ss

def writeLine (key : String) (value : List Char) : List Char :=
  key.toList ++ ' ' :: '=' :: ' ' :: value ++ ['\n']

theorem toNat_of_not_isTextChar {c : Char} (h : ¬isTextChar c) : c.toNat < 0x80 := by
  simp only [isTextChar, Bool.or_eq_true, Bool.and_eq_true, decide_eq_true_eq, not_or, not_and] at h
  omega

theorem readBasic_escapeChar (c : Char) (cs : List Char) :
    readBasic false (.text false) (escapeChar c ++ cs) =
      prepend [c] (readBasic false (.text false) cs) := by
  rw [escapeChar]
  split_ifs with hquote htext
  · rcases hquote with rfl | rfl <;> rfl
  · rw [not_or] at hquote
    simp [readBasic, hquote, htext]
  · have hsmall := toNat_of_not_isTextChar htext
    have hhigh := hexValue?_digitChar (c.toNat / 16) (by omega)
    have hlow := hexValue?_digitChar (c.toNat % 16) (by omega)
    have hzero : hexValue? '0' = some 0 := by decide
    have hvalid : c.toNat.isValidChar := c.valid
    have hchar : character? c.toNat = some c := by
      rw [character?, if_pos hvalid, Char.ofNat_toNat]
    simp only [List.cons_append, List.nil_append, readBasic]
    simp [hhigh, hlow, hzero, Nat.div_add_mod', hchar]

theorem readBasic_text (cs rest : List Char) :
    readBasic false (.text false) (cs.flatMap escapeChar ++ '"' :: rest) = some (cs, rest) := by
  induction cs with
  | nil => rfl
  | cons c cs ih =>
      rw [List.flatMap_cons, List.append_assoc, readBasic_escapeChar, ih]
      rfl

theorem exists_escapeChar_cons (c : Char) : ∃ d ds, escapeChar c = d :: ds ∧ d ≠ '"' := by
  rw [escapeChar]
  split_ifs with hquote
  · exact ⟨_, _, rfl, by decide⟩
  · exact ⟨_, _, rfl, (not_or.mp hquote).1⟩
  · exact ⟨_, _, rfl, by decide⟩

/-- One quote opens a string on one line, unless two more follow it. -/
theorem text?_quote {cs : List Char} (h : ¬['"', '"'] <+: cs) :
    text? ('"' :: cs) = readBasic false (.text false) cs := by
  unfold text?
  split
  · next rest heq =>
      obtain ⟨-, rfl⟩ := List.cons.inj heq
      exact absurd ⟨rest, rfl⟩ h
  · next heq => simp at heq
  · rfl

/-- A string is read back before anything that is not one more quote. -/
theorem text?_writeString (s : String) {rest : List Char} (h : rest.head? ≠ some '"') :
    text? (writeString s ++ rest) = some (s.toList, rest) := by
  have hopen : ¬['"', '"'] <+: s.toList.flatMap escapeChar ++ '"' :: rest := by
    rintro ⟨after, hafter⟩
    cases hs : s.toList with
    | nil =>
        rw [hs] at hafter
        obtain ⟨-, rfl⟩ := List.cons.inj hafter
        exact h rfl
    | cons c cs =>
        obtain ⟨d, ds, hd, hne⟩ := exists_escapeChar_cons c
        rw [hs, List.flatMap_cons, hd] at hafter
        exact hne (List.cons.inj hafter).1.symm
  have hwritten : writeString s ++ rest = '"' :: (s.toList.flatMap escapeChar ++ '"' :: rest) := by
    simp [writeString]
  rw [hwritten, text?_quote hopen, readBasic_text]

theorem valueUpTo?_writeString (depth : Nat) (s : String) (rest : List Char)
    (h : rest.head? ≠ some '"') :
    valueUpTo? depth (writeString s ++ rest) = some (.string s, rest) := by
  have hplain : plain? (writeString s ++ rest) = some (.string s, rest) := by
    have htext := text?_writeString s h
    rw [writeString, List.cons_append] at htext ⊢
    rw [plain?, htext]
    simp
  cases depth with
  | zero => exact hplain
  | succ depth => exact hplain

theorem itemsUpTo?_writeItems (depth more : Nat) (ss : List String) (rest : List Char)
    (h : ss.length < more) : itemsUpTo? (valueUpTo? depth) more (writeItems ss ++ rest) =
      some (ss.map .string, rest) := by
  induction ss generalizing more with
  | nil =>
      obtain ⟨more, rfl⟩ := Nat.exists_eq_succ_of_ne_zero (Nat.ne_zero_of_lt h)
      rfl
  | cons s ss ih =>
      obtain ⟨more, rfl⟩ := Nat.exists_eq_succ_of_ne_zero (Nat.ne_zero_of_lt h)
      have hitem := valueUpTo?_writeString depth s (',' :: (writeItems ss ++ rest)) (by simp)
      have hrest := ih more (Nat.lt_of_succ_lt_succ h)
      -- No gap stands before a string or before the comma after it.
      rw [writeItems, List.append_assoc, List.cons_append, itemsUpTo?]
      change (valueUpTo? depth (writeString s ++ ',' :: (writeItems ss ++ rest)) >>= _) = _
      rw [hitem]
      change (itemsUpTo? (valueUpTo? depth) more (writeItems ss ++ rest) >>= _) = _
      rw [hrest]
      rfl

theorem length_lt_length_writeItems (ss : List String) : ss.length < (writeItems ss).length := by
  induction ss with
  | nil => simp [writeItems]
  | cons s ss ih =>
      simp only [writeItems, List.length_cons, List.length_append]
      omega

theorem value?_writeArray (ss : List String) (rest : List Char) :
    value? (writeArray ss ++ rest) = some (.array (ss.map .string), rest) := by
  have hlength : ss.length < (writeItems ss ++ rest).length + 1 := by
    have hitems := length_lt_length_writeItems ss
    rw [List.length_append]
    omega
  change array? (valueUpTo? 78) (writeItems ss ++ rest) = _
  rw [array?, itemsUpTo?_writeItems 78 _ ss rest hlength]
  rfl

/-- A key that needs no quotes. -/
def IsBareKey (key : String) : Prop :=
  key.toList ≠ [] ∧ key.toList.all isKeyChar

instance (key : String) : Decidable (IsBareKey key) :=
  inferInstanceAs (Decidable (_ ∧ _))

/-- A bare key starts with nothing that means something else at the start of a line. -/
theorem IsBareKey.exists_cons {key : String} (h : IsBareKey key) : ∃ c cs, key.toList = c :: cs ∧
    ∀ d ∈ ['"', '\'', ' ', '\t', '\n', '[', '#'], c ≠ d := by
  obtain ⟨c, cs, hkey⟩ := List.exists_cons_of_ne_nil h.1
  have hc : isKeyChar c := List.all_eq_true.mp h.2 c (by simp [hkey])
  have hnone : ['"', '\'', ' ', '\t', '\n', '[', '#'].all fun d => !isKeyChar d := by decide
  refine ⟨c, cs, hkey, ?_⟩
  rintro d hd rfl
  simpa [hc] using List.all_eq_true.mp hnone c hd

theorem key?_of_isBareKey {key : String} (h : IsBareKey key) (rest : List Char) :
    key? (key.toList ++ ' ' :: rest) = some (key, ' ' :: rest) := by
  have hspace : isKeyChar ' ' = false := by decide
  have hchars : ∀ c ∈ key.toList, isKeyChar c := List.all_eq_true.mp h.2
  have htake : (key.toList ++ ' ' :: rest).takeWhile isKeyChar = key.toList := by
    rw [List.takeWhile_append_of_pos hchars, List.takeWhile_cons_of_neg (by simp [hspace]),
      List.append_nil]
  have hdrop : (key.toList ++ ' ' :: rest).dropWhile isKeyChar = ' ' :: rest := by
    rw [List.dropWhile_append_of_pos hchars, List.dropWhile_cons_of_neg (by simp [hspace])]
  obtain ⟨c, cs, hkey, hne⟩ := h.exists_cons
  unfold key?
  split
  · next heq => simp [hkey, hne] at heq
  · next heq => simp [hkey, hne] at heq
  · simp [htake, hdrop, h.1]

theorem path?_of_isBareKey {key : String} (h : IsBareKey key) (rest : List Char) :
    path? (key.toList ++ ' ' :: '=' :: rest) = some (⟨[], key⟩, '=' :: rest) := by
  obtain ⟨c, cs, hkey, hne⟩ := h.exists_cons
  have hskip : skipSpaces (key.toList ++ ' ' :: '=' :: rest) =
      key.toList ++ ' ' :: '=' :: rest := by
    simp [skipSpaces, isSpace, hkey, hne]
  change pathUpTo? (78 + 1) _ = _
  rw [pathUpTo?, hskip, key?_of_isBareKey h]
  rfl

theorem exists_writeLine_cons {key : String} (h : IsBareKey key) (text rest : List Char) :
    ∃ c cs, writeLine key text ++ rest = c :: cs ∧
      ∀ d ∈ ['"', '\'', ' ', '\t', '\n', '[', '#'], c ≠ d := by
  obtain ⟨c, cs, hkey, hne⟩ := h.exists_cons
  exact ⟨c, cs ++ (' ' :: '=' :: ' ' :: text ++ ['\n'] ++ rest), by simp [writeLine, hkey], hne⟩

theorem skipComment_cons_of_ne {c : Char} (h : c ≠ '#') (cs : List Char) :
    skipComment (c :: cs) = c :: cs := by
  unfold skipComment
  split
  · next heq => exact absurd (List.cons.inj heq).1 h
  · rfl

namespace Outline

variable (o : Outline) {key : String} {text rest : List Char} {v : Value}

theorem pair?_writeLine (hkey : IsBareKey key)
    (hvalue : value? (skipSpaces (text ++ '\n' :: rest)) = some (v, '\n' :: rest)) :
    pair? value? (writeLine key text ++ rest) = some ((⟨[], key⟩, v), '\n' :: rest) := by
  have hline : writeLine key text ++ rest =
      key.toList ++ ' ' :: '=' :: ' ' :: (text ++ '\n' :: rest) := by
    simp [writeLine]
  rw [hline, pair?, path?_of_isBareKey hkey]
  change (value? (skipSpaces (text ++ '\n' :: rest)) >>= _) = _
  rw [hvalue]
  rfl

theorem line?_writeLine (hkey : IsBareKey key)
    (hvalue : value? (skipSpaces (text ++ '\n' :: rest)) = some (v, '\n' :: rest)) :
    o.line? (writeLine key text ++ rest) = (o.define? ⟨[], key⟩ v).map (·, rest) := by
  have hpair := pair?_writeLine hkey hvalue
  obtain ⟨c, cs, hline, hne⟩ := exists_writeLine_cons hkey text rest
  unfold line?
  split
  · next heq => simp [hline, hne] at heq
  · next heq => simp [hline, hne] at heq
  · rw [hpair]
    change (o.define? ⟨[], key⟩ v >>= _) = _
    cases o.define? ⟨[], key⟩ v <;> rfl

/-- A line with a key and a value defines that key. -/
theorem linesUpTo?_writeLine (more : Nat) (hkey : IsBareKey key)
    (hvalue : value? (skipSpaces (text ++ '\n' :: rest)) = some (v, '\n' :: rest)) :
    o.linesUpTo? (more + 1) (writeLine key text ++ rest) =
      (o.define? ⟨[], key⟩ v).bind (·.linesUpTo? more rest) := by
  have hread := o.line?_writeLine hkey hvalue
  obtain ⟨c, cs, hline, hne⟩ := exists_writeLine_cons hkey text rest
  rw [hline] at hread ⊢
  have hskip : skipSpaces (c :: cs) = c :: cs := by simp [skipSpaces, isSpace, hne]
  rw [linesUpTo?, hskip, skipComment_cons_of_ne (hne '#' (by simp)), hread]
  split
  · next heq => simp at heq
  · next heq => simp [hne] at heq
  · cases o.define? ⟨[], key⟩ v <;> rfl

/-- Lines with arrays of strings define their keys one after another. -/
theorem linesUpTo?_arrays (more : Nat) (pairs : List (String × List String))
    (hkeys : ∀ p ∈ pairs, IsBareKey p.1) :
    o.linesUpTo? (pairs.length + (more + 1))
        (pairs.flatMap fun p => writeLine p.1 (writeArray p.2)) =
      pairs.foldlM (fun o p => o.define? ⟨[], p.1⟩ (.array (p.2.map .string))) o := by
  induction pairs generalizing o with
  | nil => rfl
  | cons p pairs ih =>
      obtain ⟨hkey, hkeys⟩ := List.forall_mem_cons.mp hkeys
      rw [List.flatMap_cons, List.length_cons, Nat.add_right_comm,
        o.linesUpTo?_writeLine _ hkey (value?_writeArray p.2 _), List.foldlM_cons]
      cases o.define? ⟨[], p.1⟩ (.array (p.2.map .string)) with
      | none => rfl
      | some next => exact ih next hkeys

end Outline

theorem unifyLineEnds?_of_not_mem {cs : List Char} (h : '\r' ∉ cs) :
    unifyLineEnds? cs = some cs := by
  induction cs with
  | nil => rfl
  | cons c cs ih =>
      rw [List.mem_cons, not_or] at h
      rw [unifyLineEnds?, if_neg (Ne.symm h.1), ih h.2]
      rfl

theorem not_mem_escapeChar (c : Char) : '\r' ∉ escapeChar c := by
  have hdigit : ∀ d < 16, Nat.digitChar d ≠ '\r' := by decide
  rw [escapeChar]
  split_ifs with hquote htext
  · rcases hquote with rfl | rfl <;> decide
  · rintro hc
    rw [List.mem_singleton] at hc
    subst hc
    revert htext
    decide
  · have hsmall := toNat_of_not_isTextChar htext
    have hhigh := hdigit (c.toNat / 16) (by omega)
    have hlow := hdigit (c.toNat % 16) (by omega)
    simp [hhigh.symm, hlow.symm]

theorem not_mem_writeString (s : String) : '\r' ∉ writeString s := by
  simp [writeString, not_mem_escapeChar]

theorem not_mem_writeItems (ss : List String) : '\r' ∉ writeItems ss := by
  induction ss with
  | nil => decide
  | cons s ss ih => simp [writeItems, not_mem_writeString, ih]

end Toml

namespace Config

open Toml

theorem isBareKey_word (k : Kind) : IsBareKey k.word := by
  cases k <;> decide

/-- The lines of the selectors, one for each kind. -/
def writeSelectors (c : Config) : List Char :=
  (Kind.all.map fun k => (k.word, c.selectors k)).flatMap fun p => writeLine p.1 (writeArray p.2)

/-- The configuration as a document. -/
def document (c : Config) : String :=
  String.ofList
    (writeLine "output" (writeString c.output) ++ ("[selectors]\n".toList ++ c.writeSelectors))

theorem linesUpTo?_header (o : Outline) (more : Nat) (rest : List Char) :
    o.linesUpTo? (more + 1) ("[selectors]\n".toList ++ rest) =
      (o.openTable? ⟨[], "selectors"⟩).bind (·.linesUpTo? more rest) := by
  have hpath : path? ("selectors]\n".toList ++ rest) =
      some (⟨[], "selectors"⟩, ']' :: '\n' :: rest) := rfl
  have hline : o.line? ("[selectors]\n".toList ++ rest) =
      (o.openTable? ⟨[], "selectors"⟩).map (·, rest) := by
    change (path? ("selectors]\n".toList ++ rest) >>= _) = _
    rw [hpath]
    change (o.openTable? ⟨[], "selectors"⟩ >>= _) = _
    cases o.openTable? ⟨[], "selectors"⟩ <;> rfl
  change (o.line? ("[selectors]\n".toList ++ rest) >>= _) = _
  rw [hline]
  cases o.openTable? ⟨[], "selectors"⟩ <;> rfl

/-- What a document comes to that has a value for the output and, under the header, one for each
kind. -/
def outline? (output : Value) (values : Kind → Value) : Option Outline := do
  let o ← Outline.define? {} ⟨[], "output"⟩ output
  let o ← o.openTable? ⟨[], "selectors"⟩
  (Kind.all.map fun k => (k.word, values k)).foldlM (fun o p => o.define? ⟨[], p.1⟩ p.2) o

/-- All of these values are found in the table of such a document. -/
theorem exists_outline (output : Value) (values : Kind → Value) : ∃ (t : Table) (entries : _),
    outline? output values = some ⟨t, ["selectors"]⟩ ∧ t.get? "output" = some output ∧
      t.get? "selectors" = some (.table .header entries) ∧
        ∀ k : Kind, entries.lookup k.word = some (values k) := by
  refine ⟨_, _, rfl, rfl, rfl, ?_⟩
  intro k
  cases k <;> rfl

variable (c : Config)

theorem linesUpTo?_writeSelectors (o : Outline) (more : Nat) :
    o.linesUpTo? (Kind.all.length + (more + 1)) c.writeSelectors =
      (Kind.all.map fun k => (k.word, Value.array ((c.selectors k).map .string))).foldlM
        (fun o p => o.define? ⟨[], p.1⟩ p.2) o := by
  have hwords : ∀ p ∈ Kind.all.map fun k => (k.word, c.selectors k), IsBareKey p.1 := by
    intro p hp
    obtain ⟨k, -, rfl⟩ := List.mem_map.mp hp
    exact isBareKey_word k
  have hlines := o.linesUpTo?_arrays more _ hwords
  rw [List.length_map, List.foldlM_map] at hlines
  rw [List.foldlM_map]
  exact hlines

theorem linesUpTo?_document (more : Nat) :
    Outline.linesUpTo? {} (Kind.all.length + (more + 1) + 1 + 1) c.document.toList =
      outline? (.string c.output) fun k => .array ((c.selectors k).map .string) := by
  have houtput (rest : List Char) :
      value? (skipSpaces (writeString c.output ++ '\n' :: rest)) =
        some (.string c.output, '\n' :: rest) :=
    valueUpTo?_writeString nestingLimit c.output ('\n' :: rest) (by simp)
  rw [document, String.toList_ofList, Outline.linesUpTo?_writeLine _ _ (by decide) (houtput _),
    outline?, Option.bind_eq_bind]
  refine Option.bind_congr fun o _ => ?_
  rw [linesUpTo?_header]
  exact Option.bind_congr fun o _ => c.linesUpTo?_writeSelectors o more

theorem not_mem_document : '\r' ∉ c.document.toList := by
  simp [document, writeLine, not_mem_writeString, writeSelectors, writeArray, not_mem_writeItems,
    Kind.all, Kind.word]

theorem document?_document : Toml.document? c.document =
    (outline? (.string c.output) fun k => .array ((c.selectors k).map .string)).map
      Outline.root := by
  have hmark : dropByteOrderMark c.document.toList = c.document.toList := by
    rw [document, String.toList_ofList]
    rfl
  have hlength : ∃ more, c.document.toList.length + 1 = Kind.all.length + (more + 1) + 1 + 1 := by
    refine ⟨c.document.toList.length - 6, ?_⟩
    have hheader : "[selectors]\n".toList.length = 12 := by decide
    have hall : Kind.all.length = 4 := rfl
    rw [document, String.toList_ofList, List.length_append, List.length_append, hheader, hall]
    omega
  obtain ⟨more, hmore⟩ := hlength
  rw [Toml.document?, hmark, unifyLineEnds?_of_not_mem c.not_mem_document]
  rw [Option.bind_eq_bind, Option.bind_some, hmore, c.linesUpTo?_document, Option.map_eq_bind]
  rfl

theorem strings?_map_string (ss : List String) : strings? (.array (ss.map .string)) = some ss := by
  rw [strings?]
  induction ss with
  | nil => rfl
  | cons s ss ih => rw [List.map_cons, List.mapM_cons, ih]; rfl

/-- Every configuration is read back from the document that it is written as. -/
theorem ofText?_document : ofText? c.document = some c := by
  obtain ⟨t, entries, ht, houtput, hselectors, hentries⟩ := exists_outline (.string c.output)
    fun k => .array ((c.selectors k).map .string)
  have hread (k : Kind) : (entries.lookup k.word).elim (some []) strings? =
      some (c.selectors k) := by
    rw [hentries, Option.elim_some, strings?_map_string]
  rw [ofText?, c.document?_document, ht]
  change ofTable? t = _
  rw [ofTable?, houtput, hselectors]
  simp [output?, selectors?, selectorsOf?, hread]

example : document { output := "a\x7f\\", selectors := fun k => if k = .disk then ["b"] else [] } =
    "output = \"a\\u007f\\\\\"\n[selectors]\nvm = []\nct = []\ndisk = [\"b\",]\nvolume = []\n" := by
  decide

end Config

end ClusterQuery
