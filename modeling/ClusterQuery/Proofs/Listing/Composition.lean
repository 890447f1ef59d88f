import Mathlib.Logic.Function.Basic
import ClusterQuery.Proofs.Listing.Stages
import ClusterQuery.Proofs.Record.Decoding

/-!
# Listings that build on one another

A listing reads one selector from the texts of the configuration with those of the request after
them. So the standing selectors of a kind act as if they were given first on the command line,
and those of the other kinds do not matter. And to list by some selectors what another listing
printed in JSON is to list the records of that one by its selectors and these.
-/

namespace ClusterQuery

namespace Listing

variable {c c' : Config} {k : Kind} {o o' : ListRequest}

theorem selector_eq (c : Config) (k : Kind) (o : ListRequest) :
    selector c k o = (Selector.ofTexts (c.selectors k ++ o.selectors)).mapError .selector := by
  simp only [selector, Config.standingSelector, Selector.ofTexts_append, mapError_bind]
  rfl

/-- A plan depends on the format asked for and on the texts of its selectors only. -/
theorem plan_congr (hformat : o.output.getD c.output = o'.output.getD c'.output)
    (htexts : c.selectors k ++ o.selectors = c'.selectors k ++ o'.selectors) :
    plan c k o = plan c' k o' := by
  simp only [plan, format, selector_eq, hformat, htexts]

/-- The plan when some of the texts are known to be read, with fields that the kind has. -/
theorem plan_of_ofTexts {texts more : List String} {s : Selector}
    (htexts : c.selectors k ++ o.selectors = texts ++ more) (hs : Selector.ofTexts texts = .ok s)
    (hfields : s.Supported k) : plan c k o = do
      let format ← format c o
      let t ← (Selector.ofTexts more).mapError .selector
      (t.checkFields k).mapError .selector
      return (format, s ++ t) := by
  have hselector : selector c k o = do
      let t ← (Selector.ofTexts more).mapError .selector
      return s ++ t := by
    rw [selector_eq, htexts, Selector.ofTexts_append, hs]
    cases Selector.ofTexts more <;> rfl
  have hcheck (t : Selector) : (s ++ t).checkFields k = t.checkFields k := by
    rw [Selector.checkFields_append, Selector.checkFields_of_supported hfields]
    rfl
  simp only [plan, hselector, hcheck, bind_assoc, pure_bind]

end Listing

namespace Program

/-- The standing selectors of a kind count as the first ones of the command line, and the
configured format as the one asked for when none is; those of other kinds change nothing. -/
theorem list_eq_list_leading_selectors {m : Type → Type} [Monad m] (h : Host m) (c : Config)
    (k : Kind) (o : ListRequest) (others : Kind → List String) :
    list h c k o = list h {} k { o with
        selectors := c.selectors k ++ o.selectors
        output := some (o.output.getD c.output) } ∧
      list h { c with selectors := Function.update others k (c.selectors k) } k o =
        list h c k o := by
  constructor
  · have hplan : Listing.plan c k o = Listing.plan {} k { o with
        selectors := c.selectors k ++ o.selectors
        output := some (o.output.getD c.output) } := Listing.plan_congr rfl rfl
    rw [list, hplan]
    rfl
  · have hplan : Listing.plan { c with selectors := Function.update others k (c.selectors k) } k o =
        Listing.plan c k o := Listing.plan_congr rfl (by simp)
    rw [list, hplan]
    rfl

variable {k : Kind}

/-- To list by more texts what a listing printed in JSON is to list its records by the texts of
both, with the same error if one of these is wrong. -/
theorem list_of_listed_json {h h' : Host Id} {c : Config} {file file' : Option String}
    {texts more : List String} {output : Option String} {printed : String}
    (hfirst : (list h c k ⟨file, texts, some "json"⟩).run = .ok printed)
    (hread : (h'.read (ListRequest.source ⟨file', more, output⟩)).run = .ok printed.toUTF8) :
    (list h' c k ⟨file', more, output⟩).run =
      (list h c k ⟨file, texts ++ more, output⟩).run := by
  rw [list_eq_bind, bind_eq_ok_iff] at hfirst
  obtain ⟨⟨f, joined⟩, hplan, hprint⟩ := hfirst
  obtain ⟨s, t, hf, hs, ht, rfl, hfields⟩ := Listing.stages_of_plan hplan
  have hjson : f = .json := (Option.some.inj hf).symm
  obtain ⟨bytes, rs, hbytes, hdecode, hprinted⟩ := records_of_printFrom hfields hprint
  have hagain : k.decode? (Symbol.ofBytes printed.toUTF8) =
      some (rs.filter ((s ++ t).holds k)) := by
    rw [hprinted, hjson, Symbol.ofBytes_toUTF8]
    exact k.decode?_encode _
  -- Both remaining runs read the further texts after selectors that are known to be good.
  have hsecond := Listing.plan_of_ofTexts (o := ⟨file', more, output⟩) rfl hs
    (Selector.supported_append.mp hfields).1
  have hjoined : Selector.ofTexts (c.selectors k ++ texts) = .ok (s ++ t) := by
    rw [Selector.ofTexts_append, hs, show Selector.ofTexts texts = .ok t from ht]
    rfl
  have hboth := Listing.plan_of_ofTexts (o := ⟨file, texts ++ more, output⟩)
    (List.append_assoc ..).symm hjoined hfields
  have hsource : (h.read (ListRequest.source ⟨file, texts ++ more, output⟩)).run = .ok bytes :=
    hbytes
  rw [list_eq_bind, list_eq_bind, hsecond, hboth, hread, hsource]
  simp only [bind_assoc, pure_bind]
  refine bind_congr fun format => bind_congr fun u => bind_congr fun _ => ?_
  rw [printFrom, printFrom, Listing.print_of_decode hagain, Listing.print_of_decode hdecode,
    Selector.filter_append_of_kept hfields]

/-- Two texts of tags in one listing, or one after the other on what the first one prints. -/
theorem list_of_listed_json_two_tags :
    let c : Config := { selectors := fun _ => ["template=no"] }
    let text := "[[7, \"web\"], [8, null, null, null, null, \"b; a\"]]"
    let printed := render .virtualMachine .json [{ vmid := 8, tags := some "b; a" }]
    let h : Host Id := ⟨none, none, fun _ => .ok text.toUTF8, fun _ _ => "", fun _ => ""⟩
    let h' : Host Id := ⟨none, none, fun _ => .ok printed.toUTF8, fun _ _ => "", fun _ => ""⟩
    (list h c .virtualMachine ⟨some "all.json", ["tags=a"], some "json"⟩).run = .ok printed ∧
      (list h' c .virtualMachine ⟨none, ["tags=b"], some "names"⟩).run =
        (list h c .virtualMachine ⟨some "all.json", ["tags=a", "tags=b"], some "names"⟩).run := by
  intro c text printed h h'
  have hdecode : Kind.virtualMachine.decode? (Symbol.ofBytes text.toUTF8) =
      some [{ vmid := 7, name := some "web" }, { vmid := 8, tags := some "b; a" }] := by
    rw [Symbol.ofBytes_toUTF8]
    decide
  have hfirst : (list h c .virtualMachine ⟨some "all.json", ["tags=a"], some "json"⟩).run =
      .ok printed := by
    rw [list_eq_bind]
    exact Listing.print_of_decode hdecode
  exact ⟨hfirst, list_of_listed_json hfirst rfl⟩

end Program

end ClusterQuery
