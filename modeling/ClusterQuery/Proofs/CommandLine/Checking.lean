import ClusterQuery.Program
import ClusterQuery.Proofs.Listing.Stages
import ClusterQuery.Proofs.Selector.RoundTrip

/-!
# What a check prints, checked again

A check prints the texts of the conditions, one on a line. The conditions of a selector that some
texts give are read back one by one, each from its own text. Given as arguments these texts stand
behind their flags, since no condition opens with a dash, and a configuration file that was asked
for can be asked for again. So to check the printed conditions prints them once more.
-/

namespace ClusterQuery

namespace CommandLine

/-- The flag takes the value that is given to it. -/
def Item.Accepted : Item → Prop
  | flag f value => f.accepts value
  | word _ => True

theorem accepted_of_items? {allowed : List Flag} {args : List String} {items : List Item}
    (h : items? allowed args = some items) : ∀ item ∈ items, item.Accepted := by
  fun_induction items? allowed args generalizing items with
  | case1 =>
      cases h
      simp
  | case2 args =>
      cases h
      simp [Item.Accepted]
  | case4 arg args _ _ flag value _ haccepts ih =>
      obtain ⟨rest, hrest, rfl⟩ := Option.map_eq_some_iff.mp h
      exact List.forall_mem_cons.mpr ⟨haccepts, ih hrest⟩
  | case7 arg _ _ flag _ value args haccepts ih =>
      obtain ⟨rest, hrest, rfl⟩ := Option.map_eq_some_iff.mp h
      exact List.forall_mem_cons.mpr ⟨(Bool.and_eq_true_iff.mp haccepts).1, ih hrest⟩
  | case9 arg args _ _ ih =>
      obtain ⟨rest, hrest, rfl⟩ := Option.map_eq_some_iff.mp h
      exact List.forall_mem_cons.mpr ⟨trivial, ih hrest⟩
  | _ => contradiction

theorem mem_valuesOf {flag : Flag} {items : List Item} {value : String} :
    value ∈ valuesOf flag items ↔ Item.flag flag value ∈ items := by
  simp only [valuesOf, List.mem_filterMap]
  constructor
  · rintro ⟨item, hitem, h⟩
    cases item with
    | flag f v =>
        by_cases hf : f = flag
        · simp only [hf, if_true, Option.some.injEq] at h
          rwa [← h, ← hf]
        · simp [hf] at h
    | word w => simp at h
  · intro h
    exact ⟨_, h, by simp⟩

theorem valuesOf_append (flag : Flag) (items more : List Item) :
    valuesOf flag (items ++ more) = valuesOf flag items ++ valuesOf flag more :=
  List.filterMap_append

theorem valuesOf_map_flag (flag f : Flag) (values : List String) :
    valuesOf flag (values.map (.flag f)) = if f = flag then values else [] := by
  by_cases hf : f = flag <;> simp [valuesOf, hf]

theorem mem_of_atMostOnce {flag : Flag} {items : List Item} {value : String}
    (h : atMostOnce flag items = some (some value)) : Item.flag flag value ∈ items := by
  rw [← mem_valuesOf]
  unfold atMostOnce at h
  split at h
  · simp at h
  · next v hv =>
      simp only [Option.some.injEq] at h
      simp [hv, h]
  · contradiction

theorem mem_of_flag? {allowed : List Flag} {arg : List Char} {f : Flag} {value : Option String}
    (h : flag? allowed arg = some (f, value)) : f ∈ allowed := by
  unfold flag? at h
  split at h
  case h_3 => contradiction
  -- A long and a short option differ in how the flag is looked up, not in where.
  all_goals
    obtain ⟨g, hg, hrest⟩ := Option.bind_eq_some_iff.mp h
    have hmem := List.mem_of_find?_eq_some hg
    split at hrest <;> cases hrest <;> exact hmem

theorem ne_empty_of_flag? {arg : List Char} {f : Flag} {attached : Option String} {value : String}
    (h : flag? [.config] arg = some (f, attached)) (haccepts : f.accepts value) :
    some value ≠ some "" := by
  obtain rfl : f = .config := by simpa using mem_of_flag? h
  simpa [Flag.accepts] using haccepts

theorem config_of_invocation? {config : Option String} {verb : Verb} {args : List String}
    {i : Invocation} (hc : config ≠ some "") (h : invocation? config verb args = some i) :
    i.config ≠ some "" := by
  simp only [invocation?, Option.bind_eq_bind, Option.bind_eq_some_iff, Option.pure_def,
    Option.some.injEq] at h
  obtain ⟨items, hitems, own, hown, command, -, rfl⟩ := h
  cases own with
  | none => simpa using hc
  | some path =>
      have haccepted := accepted_of_items? hitems _ (mem_of_atMostOnce hown)
      simpa [Item.Accepted, Flag.accepts] using haccepted

/-- A configuration file that is asked for has a path. -/
theorem config_of_requestAfter? {config : Option String} {args : List String} {i : Invocation}
    (hc : config ≠ some "") (h : requestAfter? config args = some (.invoke i)) :
    i.config ≠ some "" := by
  fun_induction requestAfter? config args generalizing i with
  | case4 config arg args _ _ flag value hflag haccepts ih =>
      exact ih (ne_empty_of_flag? hflag (Bool.and_eq_true_iff.mp haccepts).1) h
  | case7 config arg _ _ flag hflag value args haccepts ih =>
      rw [Bool.and_assoc, Bool.and_eq_true_iff] at haccepts
      exact ih (ne_empty_of_flag? hflag haccepts.1) h
  | case9 config arg args _ _ =>
      simp only [Option.bind_eq_bind, Option.bind_eq_some_iff, Option.pure_def, Option.some.injEq,
        Request.invoke.injEq] at h
      obtain ⟨verb, -, invocation, hinvocation, rfl⟩ := h
      exact config_of_invocation? hc hinvocation
  | _ => cases h

section Arguments

variable {config : Option String} {texts : List String}

/-- The options of a check of some texts. -/
def checkItems (config : Option String) (texts : List String) : List Item :=
  config.toList.map (.flag .config) ++ texts.map (.flag .selector)

/-- The arguments that give these options, each text behind a flag of its own. -/
def checkArguments (config : Option String) (texts : List String) : List String :=
  config.toList.map ("--config=" ++ ·) ++ texts.flatMap fun t => ["-l", t]

theorem items?_selectors (h : ∀ t ∈ texts, isOption t = false) :
    items? Verb.check.flags (texts.flatMap fun t => ["-l", t]) =
      some (texts.map (.flag .selector)) := by
  induction texts with
  | nil => rfl
  | cons t texts ih =>
      obtain ⟨ht, htexts⟩ := List.forall_mem_cons.mp h
      have hflag : flag? Verb.check.flags "-l".toList = some (.selector, none) := by decide
      have hoption : isOption "-l" := by decide
      rw [List.flatMap_cons, List.cons_append, List.cons_append, List.nil_append, items?,
        if_neg (by decide), if_pos hoption, hflag]
      simp [Flag.accepts, ht, ih htexts]

theorem items?_config {path : String} (h : path ≠ "") (args : List String) :
    items? Verb.check.flags (("--config=" ++ path) :: args) =
      (items? Verb.check.flags args).map (.flag .config path :: ·) := by
  have hchars : ("--config=" ++ path).toList =
      '-' :: '-' :: ("config".toList ++ '=' :: path.toList) := by simp
  have hflag : flag? Verb.check.flags ("--config=" ++ path).toList = some (.config, some path) := by
    rw [hchars]
    simp [flag?, Verb.flags, Flag.long]
  have hdashes : "--config=" ++ path ≠ "--" := by
    intro hd
    simp [hd] at hchars
  have hoption : isOption ("--config=" ++ path) := by
    have hdash : "--config=" ++ path ≠ "-" := by
      intro hd
      simp [hd] at hchars
    simp [isOption, hdash]
  rw [items?, if_neg hdashes, if_pos hoption, hflag]
  simp [Flag.accepts, h]

theorem items?_checkArguments (hc : config ≠ some "") (ht : ∀ t ∈ texts, isOption t = false) :
    items? Verb.check.flags (checkArguments config texts) = some (checkItems config texts) := by
  cases config with
  | none => exact items?_selectors ht
  | some path =>
      have hpath : path ≠ "" := by simpa using hc
      rw [checkArguments, Option.toList_some, List.map_singleton, List.singleton_append,
        items?_config hpath, items?_selectors ht]
      rfl

theorem atMostOnce_config_checkItems (config : Option String) (texts : List String) :
    atMostOnce .config (checkItems config texts) = some config := by
  rw [atMostOnce, checkItems, valuesOf_append, valuesOf_map_flag, valuesOf_map_flag]
  cases config <;> rfl

theorem command?_checkItems (config : Option String) (texts : List String) :
    command? .check (checkItems config texts) = some (.check texts) := by
  have hwords : words (checkItems config texts) = [] := by simp [words, checkItems]
  have hvalues : valuesOf .selector (checkItems config texts) = texts := by
    rw [checkItems, valuesOf_append, valuesOf_map_flag, valuesOf_map_flag]
    rfl
  simp only [command?, hwords, hvalues]

theorem parse?_checkArguments (hc : config ≠ some "") (ht : ∀ t ∈ texts, isOption t = false) :
    parse? ("check" :: checkArguments config texts) = some (.invoke ⟨config, .check texts⟩) := by
  have hverb : verb? "check" = some .check := by decide
  have hinvocation : invocation? none .check (checkArguments config texts) =
      some ⟨config, .check texts⟩ := by
    simp only [invocation?, items?_checkArguments hc ht, atMostOnce_config_checkItems,
      command?_checkItems, Option.bind_eq_bind, Option.bind_some, Option.pure_def]
    cases config <;> rfl
  rw [parse?, requestAfter?, if_neg (by decide), if_neg (by decide), hverb]
  simp only [hinvocation, Option.bind_eq_bind, Option.bind_some, Option.pure_def]

end Arguments

end CommandLine

namespace Selector

variable {texts : List String} {s : Selector}

theorem printable_singleton (h : ofTexts texts = .ok s) {c : Condition} (hc : c ∈ s.conditions) :
    Printable ⟨[c]⟩ := by
  obtain ⟨groups, hgroups, hs⟩ := ofTexts_eq_ok_iff.mp h
  rw [hs] at hc
  obtain ⟨g, hg, hcg⟩ := List.mem_flatten.mp hc
  have hp := printable_of_readConditions hgroups g hg
  constructor
  · simpa using hp.readable c hcg
  · simpa using hp.commas c hcg
  · simp

theorem readConditions_text (h : ofTexts texts = .ok s) {c : Condition} (hc : c ∈ s.conditions) :
    readConditions c.text = .ok [c] := by
  have hread := ofText_text (printable_singleton h hc)
  rw [ofText_eq_ok_iff] at hread
  simpa [text] using hread

/-- The texts of the conditions, one by one, are read as the same selector. -/
theorem ofTexts_map_text (h : ofTexts texts = .ok s) :
    ofTexts (s.conditions.map Condition.text) = .ok s := by
  rw [ofTexts_eq_ok_iff]
  refine ⟨s.conditions.map fun c => [c], ?_, by simp [← List.flatMap_def]⟩
  rw [List.forall₂_map_left_iff, List.forall₂_map_right_iff, List.forall₂_same]
  exact fun c hc => readConditions_text h hc

theorem isOption_text {c : Condition} (h : c.Readable) : CommandLine.isOption c.text = false := by
  obtain ⟨first, name, hfield⟩ := List.exists_cons_of_ne_nil h.field.1
  have hfirst : isFieldChar first := h.field.2 first (by simp [hfield])
  have hdash : first ≠ '-' := by
    rintro rfl
    revert hfirst
    decide
  simp [CommandLine.isOption, Condition.toList_text, hfield, hdash]

end Selector

namespace Program

theorem checkText_of_ofTexts {texts : List String} {s : Selector}
    (h : Selector.ofTexts texts = .ok s) : checkText texts =
      .ok (if s.conditions = [] then "(empty selector: matches everything)\n"
        else unlines (s.conditions.map Condition.text)) := by
  rw [checkText, h]
  cases hs : s.conditions <;> simp [Selector.isEmpty, hs, Except.mapError, bind, Except.bind, pure,
    Except.pure]

/-- The printed conditions of a check are read as the selector of that check, and a run that
checks them, each behind a flag of its own, ends as the run that printed them. With a configuration
that can be had, both print nothing but these conditions, or that there are none. -/
theorem run_check_printed {texts : List String} {s : Selector}
    (h : Selector.ofTexts texts = .ok s) :
    Selector.ofTexts (s.conditions.map Condition.text) = .ok s ∧
      (∀ (m : Type → Type) [Monad m] (host : Host m) (args : List String) (asked : Option String),
        CommandLine.parse? args = some (.invoke ⟨asked, .check texts⟩) →
        run host ("check" :: CommandLine.checkArguments asked (s.conditions.map Condition.text)) =
          run host args) ∧
      ∀ (host : Host Id) (args : List String) (asked : Option String) (c : Config),
        CommandLine.parse? args = some (.invoke ⟨asked, .check texts⟩) →
        Listing.configuration? host asked = some c →
        (run host args).run = ⟨0, if s.conditions = [] then "(empty selector: matches everything)\n"
          else unlines (s.conditions.map Condition.text), ""⟩ := by
  refine ⟨Selector.ofTexts_map_text h, ?_, ?_⟩
  · intro m _ host args asked hargs
    have hasked : asked ≠ some "" := CommandLine.config_of_requestAfter? (by simp) hargs
    have hwords : ∀ t ∈ s.conditions.map Condition.text, CommandLine.isOption t = false := by
      intro t ht
      obtain ⟨c, hc, rfl⟩ := List.mem_map.mp ht
      exact Selector.isOption_text ((Selector.printable_singleton h hc).readable c (by simp))
    have hperform (c : Config) : perform host c (.check (s.conditions.map Condition.text)) =
        perform host c (.check texts) := by
      rw [perform, perform, checkText_of_ofTexts h,
        checkText_of_ofTexts (Selector.ofTexts_map_text h)]
    simp only [run, ending, CommandLine.parse?_checkArguments hasked hwords, hargs, invoke,
      hperform]
  · intro host args asked c hargs hc
    have hload := Listing.configuration?_eq_some_iff.mp hc
    rw [run_of_parse hargs, invoke_of_loadConfig hload, perform, checkText_of_ofTexts h]
    rfl

/-- Two parentheses stay open in the first value, and a blank text and one with two conditions
follow; checked again, each condition is an argument by itself. -/
theorem run_check_printed_open_parentheses :
    let s : Selector :=
      ⟨[⟨"a", .equal "((,b=)"⟩, ⟨"c", .equal "~x"⟩, ⟨"d", .oneOf ["p", "", "q"]⟩]⟩
    let host : Host Id := ⟨none, none, fun _ => .error (.cannotOpen ""), fun _ _ => "", fun _ => ""⟩
    Selector.ofTexts ["a=((,b=)", " ", "c= ~x, d IN ( p ,,q)"] = .ok s ∧
      Selector.ofTexts ["a=((,b=)", "c= ~x", "d in (p,,q)"] = .ok s ∧
      run host ["check", "-l", "a=((,b=)", "-l", "c= ~x", "-l", "d in (p,,q)"] =
        run host ["check", "-la=((,b=)", "--selector= ", "-l", "c= ~x, d IN ( p ,,q)"] ∧
      (run host ["check", "-la=((,b=)", "--selector= ", "-l", "c= ~x, d IN ( p ,,q)"]).run =
        ⟨0, "a=((,b=)\nc= ~x\nd in (p,,q)\n", ""⟩ := by
  intro s host
  have hread : Selector.ofTexts ["a=((,b=)", " ", "c= ~x, d IN ( p ,,q)"] = .ok s := by decide
  have htexts : s.conditions.map Condition.text = ["a=((,b=)", "c= ~x", "d in (p,,q)"] := by decide
  obtain ⟨hagain, hrun, hprinted⟩ := run_check_printed hread
  rw [htexts] at hagain hrun hprinted
  exact ⟨hread, hagain, hrun Id host _ none (by decide),
    hprinted host _ none {} (by decide) rfl⟩

end Program

end ClusterQuery
