import ClusterQuery.Program
import ClusterQuery.Proofs.Filter.Composition

/-!
# The stages of a listing

A listing loads the configuration, settles the format, reads the standing selectors and its own,
checks their fields, opens its source and reads the records. What is wrong at each of these
stages can be said of the stage by itself, and the first complaint in their order is the error of
the listing. Where there is none, the records that fit all selectors are printed. In no case does
a command print anything and then fail. Where a configuration comes from and what it is when it can
be had are said here without the loading of it.
-/

namespace ClusterQuery

namespace Listing

/-- The stages of a listing, in their order. -/
inductive Stage
  | configuration
  | format
  | standingSelectors
  | ownSelectors
  | fields
  | source
  | records
  deriving DecidableEq, Repr

def Stage.all : List Stage :=
  [configuration, format, standingSelectors, ownSelectors, fields, source, records]

section Complaint

variable (h : Host Id) (asked : Option String) (k : Kind) (o : ListRequest)

/-- The file asked for on the command line, or else that of the variable, or else the default one
if there is one. -/
def chosenFile : Option ConfigFile :=
  ((asked <|> h.configVariable.run).map fun path => ⟨path, false⟩) <|>
    h.defaultConfig.run.map fun path => ⟨path, true⟩

/-- The configuration in the chosen file, if it can be had, or the built-in one when no file is
chosen. -/
def configuration? : Option Config :=
  match chosenFile h asked with
  | none => some {}
  | some file => do
    let bytes ← (h.read (.file file.path)).run.toOption
    let text ← String.fromUTF8? bytes
    Config.ofText? text

/-- What is wrong at a stage by itself. A stage that uses the results of others has nothing to
complain about when these are missing. -/
def complaint : Stage → Option RunError
  | .configuration => do
    let file ← chosenFile h asked
    match (h.read (.file file.path)).run with
    | .error e => some (.file e.reason)
    | .ok bytes =>
      match String.fromUTF8? bytes with
      | none => some (.file "stream did not contain valid UTF-8")
      | some text =>
        if (Config.ofText? text).isNone then some (.badConfig ⟨file, h.refusedConfig text⟩)
        else none
  | .format => do
    let c ← configuration? h asked
    let name := o.output.getD c.output
    if (Format.ofName? name).isNone then some (.unknownFormat name) else none
  | .standingSelectors => do
    let c ← configuration? h asked
    (failure? (Selector.ofTexts (c.selectors k))).map .selector
  | .ownSelectors => (failure? (Selector.ofTexts o.selectors)).map .selector
  | .fields => do
    let c ← configuration? h asked
    let standing ← (Selector.ofTexts (c.selectors k)).toOption
    let own ← (Selector.ofTexts o.selectors).toOption
    let unknown := (standing ++ own).conditions.find? (·.field ∉ k.fieldNames)
    unknown.map fun d => .selector (.unknownField d.field k)
  | .source =>
    match (h.read o.source).run with
    | .error (.cannotOpen reason) => some (.file reason)
    | _ => none
  | .records =>
    match (h.read o.source).run with
    | .error (.cannotOpen _) => none
    | .error (.cannotRead reason) => some (.unreadableRecords ⟨o.source.name, reason⟩)
    | .ok bytes =>
      if (k.decode? (Symbol.ofBytes bytes)).isNone then
        some (.unreadableRecords ⟨o.source.name, h.refusedRecords k bytes⟩)
      else none

/-- The complaint of the first stage that has one. -/
def firstComplaint : Option RunError :=
  Stage.all.findSome? (complaint h asked k o)

end Complaint

section Loading

variable (h : Host Id) (asked : Option String) (k : Kind) (o : ListRequest)

theorem run_configFile : (Program.configFile h asked).run = chosenFile h asked := by
  cases asked with
  | some path => rfl
  | none =>
      obtain ⟨configured, _, _, _, _⟩ := h
      cases (configured : Option String) <;> rfl

theorem run_loadConfig : (Program.loadConfig h asked).run =
    match chosenFile h asked with
    | none => .ok {}
    | some file => Program.readConfig file (h.read (.file file.path)).run h.refusedConfig := by
  rw [← run_configFile]
  rfl

/-- What loading the configuration gives is the configuration in the chosen file. -/
theorem toOption_loadConfig :
    (Program.loadConfig h asked).run.toOption = configuration? h asked := by
  rw [run_loadConfig, configuration?]
  cases chosenFile h asked with
  | none => rfl
  | some file =>
      cases hr : (h.read (.file file.path)).run with
      | error e => simp [Program.readConfig, Except.toOption, hr]
      | ok bytes =>
          cases ht : String.fromUTF8? bytes with
          | none => simp [Program.readConfig, Except.toOption, hr, ht]
          | some text =>
              cases hc : Config.ofText? text <;>
                simp [Program.readConfig, Except.toOption, hr, ht, hc]

/-- Loading the configuration fails with the complaint about the chosen file. -/
theorem failure?_loadConfig :
    failure? (Program.loadConfig h asked).run = complaint h asked k o .configuration := by
  rw [run_loadConfig, complaint]
  cases chosenFile h asked with
  | none => rfl
  | some file =>
      cases hr : (h.read (.file file.path)).run with
      | error e => simp [Program.readConfig, hr]
      | ok bytes =>
          cases ht : String.fromUTF8? bytes with
          | none => simp [Program.readConfig, hr, ht]
          | some text =>
              cases hc : Config.ofText? text <;> simp [Program.readConfig, hr, ht, hc]

end Loading

section Planning

variable {h : Host Id} {asked : Option String} {c : Config} {k : Kind} {o : ListRequest}

theorem configuration?_eq_some_iff :
    configuration? h asked = some c ↔ (Program.loadConfig h asked).run = .ok c := by
  rw [← toOption_loadConfig, toOption_eq_some_iff]

theorem failure?_checkFields (s : Selector) : failure? (s.checkFields k) =
    (s.conditions.find? (·.field ∉ k.fieldNames)).map fun d => .unknownField d.field k := by
  have hsupports : (fun d : Condition => !k.supports d.field) =
      fun d => decide (d.field ∉ k.fieldNames) := by
    funext d
    simp [Kind.supports]
  rw [Selector.checkFields, hsupports]
  cases s.conditions.find? (·.field ∉ k.fieldNames) <;> rfl

/-- With a configuration, the stages up to opening the source are those of the plan. -/
theorem findSome?_planning (hc : configuration? h asked = some c) :
    [Stage.format, .standingSelectors, .ownSelectors, .fields].findSome?
      (complaint h asked k o) = failure? (plan c k o) := by
  cases hf : Format.ofName? (o.output.getD c.output) with
  | none =>
      have hplan : plan c k o = .error (.unknownFormat (o.output.getD c.output)) := by
        simp only [plan, format, hf]
        rfl
      simp [complaint, hc, hf, hplan]
  | some f =>
      cases hs : Selector.ofTexts (c.selectors k) with
      | error e =>
          have hplan : plan c k o = .error (.selector e) := by
            simp only [plan, format, hf, selector, Config.standingSelector, hs]
            rfl
          simp [complaint, hc, hf, hs, hplan]
      | ok s =>
          cases ht : Selector.ofTexts o.selectors with
          | error e =>
              have hplan : plan c k o = .error (.selector e) := by
                simp only [plan, format, hf, selector, Config.standingSelector, hs, ht]
                rfl
              simp [complaint, hc, hf, hs, ht, hplan]
          | ok t =>
              have hplan : failure? (plan c k o) =
                  (failure? ((s ++ t).checkFields k)).map .selector := by
                simp only [plan, format, hf, selector, Config.standingSelector, hs, ht]
                change failure? (((s ++ t).checkFields k).mapError RunError.selector >>= _) = _
                cases (s ++ t).checkFields k <;> rfl
              have hfields : complaint h asked k o .fields =
                  (failure? ((s ++ t).checkFields k)).map .selector := by
                rw [failure?_checkFields, Option.map_map]
                simp only [complaint, hc, hs, ht, Except.toOption, Option.bind_eq_bind,
                  Option.bind_some]
                rfl
              rw [hplan, ← hfields]
              simp [complaint, hc, Except.toOption, hf, hs, ht]

theorem stages_of_plan {f : Format} {joined : Selector} (h : plan c k o = .ok (f, joined)) :
    ∃ s t, Format.ofName? (o.output.getD c.output) = some f ∧
      Selector.ofTexts (c.selectors k) = .ok s ∧ Selector.ofTexts o.selectors = .ok t ∧
        joined = s ++ t ∧ joined.Supported k := by
  simp only [plan, selector, Config.standingSelector, bind_eq_ok_iff, mapError_eq_ok_iff] at h
  obtain ⟨f', hf, joined', ⟨s, hs, t, ht, hjoined⟩, u, hfields, hp⟩ := h
  cases hjoined
  cases hp
  refine ⟨s, t, ?_, hs, ht, rfl, Selector.checkFields_eq_ok_iff.mp hfields⟩
  cases hname : Format.ofName? (o.output.getD c.output) with
  | none => simp [format, hname] at hf
  | some f'' =>
      simp only [format, hname, Except.ok.injEq] at hf
      rw [hf]

end Planning

theorem print_of_decode {k : Kind} {source : Source} {words : String} {f : Format} {s : Selector}
    {symbols : List Symbol} {rs : List k.Record} (h : k.decode? symbols = some rs) :
    print k source words f s symbols =
      (s.filter k rs).mapError .selector >>= fun kept => .ok (render k f kept) := by
  rw [print, h]
  rfl

end Listing

namespace Program

open Listing

variable {h : Host Id} {asked : Option String} {k : Kind} {o : ListRequest}

theorem invoke_of_loadConfig_error {e : RunError} (he : (loadConfig h asked).run = .error e)
    (command : Command) : (invoke h ⟨asked, command⟩).run = .error e := by
  change loadConfig h asked = .error e at he
  simp only [invoke, he]
  rfl

theorem invoke_of_loadConfig {c : Config} (hc : (loadConfig h asked).run = .ok c)
    (command : Command) : (invoke h ⟨asked, command⟩).run = (perform h c command).run := by
  change loadConfig h asked = .ok c at hc
  simp only [invoke, hc]
  rfl

theorem list_eq_bind (h : Host Id) (c : Config) (k : Kind) (o : ListRequest) :
    (list h c k o).run = plan c k o >>= fun p =>
      printFrom h k o.source p.1 p.2 (h.read o.source).run := by
  rw [list]
  cases plan c k o <;> rfl

/-- With a selector that has been checked, only the last two stages can fail. -/
theorem findSome?_reading {f : Format} {s : Selector} (hs : s.Supported k) :
    [Stage.source, .records].findSome? (complaint h asked k o) =
      failure? (printFrom h k o.source f s (h.read o.source).run) := by
  cases hr : (h.read o.source).run with
  | error e => cases e <;> simp [complaint, hr, printFrom]
  | ok bytes =>
      cases hd : k.decode? (Symbol.ofBytes bytes) with
      | none => simp [complaint, hr, hd, printFrom, print]
      | some rs =>
          rw [printFrom, print_of_decode hd, Selector.filter_of_supported hs]
          simp [complaint, hr, hd, Except.mapError, bind, Except.bind]

theorem records_of_printFrom {source : Source} {f : Format} {s : Selector} (hs : s.Supported k)
    {contents : Except FileError ByteArray} {text : String}
    (hp : printFrom h k source f s contents = .ok text) : ∃ bytes rs, contents = .ok bytes ∧
      k.decode? (Symbol.ofBytes bytes) = some rs ∧
        text = render k f (rs.filter (s.holds k)) := by
  cases contents with
  | error e => cases e <;> simp [printFrom] at hp
  | ok bytes =>
      cases hd : k.decode? (Symbol.ofBytes bytes) with
      | none => simp [printFrom, print, hd] at hp
      | some rs =>
          rw [printFrom, print_of_decode hd, Selector.filter_of_supported hs] at hp
          exact ⟨bytes, rs, rfl, hd, (Except.ok.inj hp).symm⟩

/-- A listing fails with the complaint of the first stage that has one. -/
theorem failure?_invoke (h : Host Id) (asked : Option String) (k : Kind) (o : ListRequest) :
    failure? (invoke h ⟨asked, .list k o⟩).run = firstComplaint h asked k o := by
  have hstages : Stage.all = .configuration ::
      ([.format, .standingSelectors, .ownSelectors, .fields] ++ [.source, .records]) := rfl
  have hcomplaint := failure?_loadConfig h asked k o
  cases hc : (loadConfig h asked).run with
  | error e =>
      rw [hc] at hcomplaint
      rw [invoke_of_loadConfig_error hc, firstComplaint, hstages, List.findSome?_cons, ← hcomplaint]
      rfl
  | ok c =>
      rw [hc] at hcomplaint
      rw [invoke_of_loadConfig hc, firstComplaint, hstages, List.findSome?_cons, ← hcomplaint,
        failure?_ok, List.findSome?_append, findSome?_planning (configuration?_eq_some_iff.mpr hc)]
      change failure? (list h c k o).run = _
      rw [list_eq_bind]
      cases hp : plan c k o with
      | error e => rfl
      | ok p =>
          obtain ⟨s, t, -, -, -, -, hfields⟩ := stages_of_plan hp
          rw [findSome?_reading hfields]
          rfl

theorem stages_of_invoke {text : String} (ht : (invoke h ⟨asked, .list k o⟩).run = .ok text) :
    ∃ c f s t bytes rs, configuration? h asked = some c ∧
      Format.ofName? (o.output.getD c.output) = some f ∧
      Selector.ofTexts (c.selectors k) = .ok s ∧ Selector.ofTexts o.selectors = .ok t ∧
      (h.read o.source).run = .ok bytes ∧ k.decode? (Symbol.ofBytes bytes) = some rs ∧
      text = render k f (rs.filter fun r => s.holds k r && t.holds k r) := by
  cases hc : (loadConfig h asked).run with
  | error e =>
      rw [invoke_of_loadConfig_error hc] at ht
      contradiction
  | ok c =>
      rw [invoke_of_loadConfig hc] at ht
      change (list h c k o).run = _ at ht
      rw [list_eq_bind, bind_eq_ok_iff] at ht
      obtain ⟨⟨f, joined⟩, hplan, hprint⟩ := ht
      obtain ⟨s, t, hf, hs, ht, hjoined, hfields⟩ := stages_of_plan hplan
      obtain ⟨bytes, rs, hbytes, hdecode, htext⟩ := records_of_printFrom hfields hprint
      rw [hjoined, Selector.holds_append] at htext
      exact ⟨c, f, s, t, bytes, rs, configuration?_eq_some_iff.mpr hc, hf, hs, ht, hbytes, hdecode,
        htext⟩

theorem run_of_parse {args : List String} {i : Invocation}
    (hargs : CommandLine.parse? args = some (.invoke i)) :
    (run h args).run = (Ending.done (invoke h i).run).outcome := by
  rw [run, ending, hargs]
  rfl

theorem stdout_of_exit_ne_zero {e : Ending} (he : e.outcome.exit ≠ 0) : e.outcome.stdout = "" := by
  cases e with
  | usage => rfl
  | version => exact absurd rfl he
  | done result =>
      cases result with
      | error e => rfl
      | ok text => exact absurd rfl he

/-- The first stage of a listing that has a complaint decides its outcome, whatever the later
stages would say; without any complaint the selected records are printed. No command prints
anything and then fails. -/
theorem run_staged (h : Host Id) (args : List String) :
    (∀ asked k o, CommandLine.parse? args = some (.invoke ⟨asked, .list k o⟩) →
      (∀ e, firstComplaint h asked k o = some e →
        (run h args).run = ⟨1, "", "Error: " ++ e.message ++ "\n"⟩) ∧
      (firstComplaint h asked k o = none → ∃ c f s t bytes rs,
        configuration? h asked = some c ∧
        Format.ofName? (o.output.getD c.output) = some f ∧
        Selector.ofTexts (c.selectors k) = .ok s ∧ Selector.ofTexts o.selectors = .ok t ∧
        (h.read o.source).run = .ok bytes ∧ k.decode? (Symbol.ofBytes bytes) = some rs ∧
        (run h args).run =
          ⟨0, render k f (rs.filter fun r => s.holds k r && t.holds k r), ""⟩)) ∧
    ((run h args).run.exit ≠ 0 → (run h args).run.stdout = "") := by
  refine ⟨fun asked k o hargs => ⟨?_, ?_⟩, stdout_of_exit_ne_zero⟩
  · intro e he
    rw [← failure?_invoke] at he
    rw [run_of_parse hargs]
    cases hr : (invoke h ⟨asked, .list k o⟩).run with
    | error e' =>
        rw [hr, failure?_error, Option.some_inj] at he
        rw [he]
        rfl
    | ok text => simp [hr] at he
  · intro hnone
    rw [← failure?_invoke] at hnone
    rw [run_of_parse hargs]
    cases hr : (invoke h ⟨asked, .list k o⟩).run with
    | error e => simp [hr] at hnone
    | ok text =>
        obtain ⟨c, f, s, t, bytes, rs, hc, hf, hs, ht, hbytes, hdecode, htext⟩ :=
          stages_of_invoke hr
        refine ⟨c, f, s, t, bytes, rs, hc, hf, hs, ht, hbytes, hdecode, ?_⟩
        rw [htext]
        rfl

/-- A machine with this text as its default configuration, on which the reading of any other source
comes to the same. -/
def configuredHost (config : String) (contents : Except FileError ByteArray) : Host Id where
  configVariable := none
  defaultConfig := some "config.toml"
  read source := if source = .file "config.toml" then .ok config.toUTF8 else contents
  refusedRecords _ _ := "expected a list"
  refusedConfig _ := "expected a value"

/-- A configuration that is no TOML is reported before a bad field of the command line, and a bad
field of the configuration although the records are missing. With a right one its selectors apply
along with that of the command line. -/
theorem run_staged_disk :
    let missing : Except FileError ByteArray :=
      .error (.cannotOpen "No such file or directory (os error 2)")
    let disks := "[[\"a\", null, \"OK\"], [\"b\", null, \"OK\", \"LVM\"]]"
    let args := ["disk", "-f", "a.json", "-l", "used=", "-o", "names"]
    let noToml := configuredHost "output = names" missing
    let noField := configuredHost "[selectors]\ndisk = [\"size=1\"]" missing
    let healthy := configuredHost "[selectors]\ndisk = [\"health=OK\"]" (.ok disks.toUTF8)
    (run noToml args).run =
        ⟨1, "", "Error: Configuration error in config.toml: expected a value\n"⟩ ∧
      (run noField args).run =
        ⟨1, "", "Error: " ++ (SelectorError.unknownField "size" .disk).message ++ "\n"⟩ ∧
      (run noField args).run.stdout = "" ∧
      (run healthy args).run.exit = 0 ∧ (run healthy args).run.stdout = "a\n" := by
  intro missing disks args noToml noField healthy
  have hargs : CommandLine.parse? args =
      some (.invoke ⟨none, .list .disk ⟨some "a.json", ["used="], some "names"⟩⟩) := by decide
  have hconfig := ((run_staged noToml args).1 _ _ _ hargs).1
    (.badConfig ⟨⟨"config.toml", true⟩, "expected a value"⟩) (by decide)
  have hfield := ((run_staged noField args).1 _ _ _ hargs).1
    (.selector (.unknownField "size" .disk)) (by decide)
  have hquiet := (run_staged noField args).2 (by rw [hfield]; decide)
  obtain ⟨c, f, s, t, bytes, rs, -, -, -, -, -, -, hrun⟩ :=
    ((run_staged healthy args).1 _ _ _ hargs).2 (by decide)
  exact ⟨hconfig, hfield, hquiet, by rw [hrun], by decide⟩

end Program

end ClusterQuery
