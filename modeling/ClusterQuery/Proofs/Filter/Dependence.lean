import Mathlib.Data.List.Basic
import ClusterQuery.Filter

/-!
# What a selection depends on

A predicate looks only at which texts are among the parts of a value. So two records that agree on
the fields a selector names are accepted alike, where the values of a field agree when they are
equal with an absent one read as the empty text, and those of the tags field of a guest when they
hold the same tags. What no field of the kind reads has no influence at all.
-/

namespace ClusterQuery

/-- The value holds this tag, as one of its trimmed pieces between semicolons. An absent or blank
value holds no tags. -/
def IsTag (value : Option String) (tag : String) : Prop :=
  ∃ text ∈ value, trim text.toList ≠ [] ∧ ∃ piece ∈ text.toList.splitOn ';', trimmed piece = tag

namespace Kind

variable (k : Kind)

/-- Virtual machines and containers have a field whose value is a list of tags. -/
def ReadsTags (name : String) : Prop :=
  name = "tags" ∧ (k = .virtualMachine ∨ k = .container)

instance (name : String) : Decidable (k.ReadsTags name) :=
  inferInstanceAs (Decidable (_ ∧ _))

/-- The records agree on the field with that name. -/
def AgreeOn (name : String) (r r' : k.Record) : Prop :=
  if k.ReadsTags name then
    ∀ tag, IsTag (k.valueOf? r name).join tag ↔ IsTag (k.valueOf? r' name).join tag
  else (k.valueOf? r name).map (·.getD "") = (k.valueOf? r' name).map (·.getD "")

end Kind

theorem mem_tagsOf_iff {value : Option String} {tag : String} :
    tag ∈ tagsOf (value.getD "") ↔ IsTag value tag := by
  cases value with
  | none => simp [IsTag, tagsOf, tagPieces]
  | some text =>
      by_cases hb : trim text.toList = []
      · simp [IsTag, tagsOf, tagPieces_of_blank hb, hb]
      · simp [IsTag, tagsOf, tagPieces_of_not_blank hb, hb, trimmed]

theorem holds_congr {parts parts' : List String} (h : ∀ part, part ∈ parts ↔ part ∈ parts')
    (p : Predicate) : p.holds parts = p.holds parts' := by
  have hany (test : String → Bool) : parts.any test = parts'.any test := by
    rw [Bool.eq_iff_iff]
    simp only [List.any_eq_true, h]
  cases p with
  | notEqual v => exact congrArg not (hany _)
  | equal v => exact hany _
  | like g => exact hany _
  | oneOf vs => exact hany _

theorem Kind.reading_eq_tags_iff {k : Kind} {name : String} :
    k.reading name = .tags ↔ k.ReadsTags name := by
  cases k with
  | virtualMachine | container =>
      by_cases hname : name = "tags"
      · simp [reading, comparisons, ReadsTags, hname]
      · simp [reading, comparisons, ReadsTags, hname, Ne.symm hname]
  | disk | volume => simp [reading, comparisons, ReadsTags]

variable {k : Kind}

/-- Values that agree on a field have the same parts. -/
theorem mem_parts_congr {name : String} {r r' : k.Record} (h : k.AgreeOn name r r')
    {value value' : Option String} (hvalue : k.valueOf? r name = some value)
    (hvalue' : k.valueOf? r' name = some value') (part : String) :
    part ∈ (k.reading name).parts value ↔ part ∈ (k.reading name).parts value' := by
  rw [Kind.AgreeOn, hvalue, hvalue'] at h
  cases hr : k.reading name with
  | tags =>
      rw [if_pos (Kind.reading_eq_tags_iff.mp hr)] at h
      simpa [Reading.parts, mem_tagsOf_iff] using h part
  | whole =>
      rw [if_neg (fun ht => by simp [Kind.reading_eq_tags_iff.mpr ht] at hr)] at h
      have htext : value.getD "" = value'.getD "" := by simpa using h
      simp [Reading.parts, htext]

/-- Records that agree on the field of a condition are tested alike. -/
theorem Condition.test_congr {c : Condition} {r r' : k.Record} (h : k.AgreeOn c.field r r') :
    c.test k r = c.test k r' := by
  by_cases hfield : c.field ∈ k.fieldNames
  · obtain ⟨value, hvalue⟩ := Kind.exists_valueOf? hfield r
    obtain ⟨value', hvalue'⟩ := Kind.exists_valueOf? hfield r'
    have hparts := mem_parts_congr h hvalue hvalue'
    simp only [Condition.test, hvalue, hvalue', Reading.test, holds_congr hparts]
  · have hnone (r : k.Record) : k.valueOf? r c.field = none := by
      rwa [← Option.not_isSome_iff_eq_none, Kind.valueOf?_isSome_iff]
    simp only [Condition.test, hnone]

theorem testAll_congr {cs : List Condition} {r r' : k.Record}
    (h : ∀ c ∈ cs, k.AgreeOn c.field r r') : testAll k cs r = testAll k cs r' := by
  induction cs with
  | nil => rfl
  | cons c cs ih =>
      obtain ⟨hc, hcs⟩ := List.forall_mem_cons.mp h
      rw [testAll, testAll, Condition.test_congr hc, ih hcs]

/-- Records of which every field has the same value agree on every name. -/
theorem Kind.agreeOn_of_valueOf? {r r' : k.Record} (h : k.valueOf? r = k.valueOf? r')
    (name : String) : k.AgreeOn name r r' := by
  rw [Kind.AgreeOn, h]
  split
  · exact fun _ => Iff.rfl
  · rfl

namespace Selector

variable (s : Selector)

theorem accepts_congr {r r' : k.Record} (h : ∀ c ∈ s.conditions, k.AgreeOn c.field r r') :
    s.accepts k r = s.accepts k r' := by
  rw [accepts, accepts, testAll_congr h]

theorem accepts_of_valueOf? {r r' : k.Record} (h : k.valueOf? r = k.valueOf? r') :
    s.accepts k r = s.accepts k r' :=
  s.accepts_congr fun c _ => Kind.agreeOn_of_valueOf? h c.field

/-- Records that agree on the fields a selector names are accepted alike, with the same error if
there is one. The number and the node of a guest, the path, size and model of a disk, and the size
and owner number of a volume have no influence, and its name and identifier only through the
label. -/
theorem accepts_depends_on_fields :
    (∀ (k : Kind) (r r' : k.Record), (∀ c ∈ s.conditions, k.AgreeOn c.field r r') →
      s.accepts k r = s.accepts k r') ∧
    (∀ (r : VirtualMachine) vmid node,
      s.accepts .virtualMachine { r with vmid, node } = s.accepts .virtualMachine r) ∧
    (∀ (r : Container) vmid node,
      s.accepts .container { r with vmid, node } = s.accepts .container r) ∧
    (∀ (r : Disk) devpath size model,
      s.accepts .disk { r with devpath, size, model } = s.accepts .disk r) ∧
    (∀ (r : Volume) size vmid,
      s.accepts .volume { r with size, vmid } = s.accepts .volume r) ∧
    ∀ (r : Volume) volid name, { r with volid, name }.label = r.label →
      s.accepts .volume { r with volid, name } = s.accepts .volume r := by
  refine ⟨fun k r r' h => s.accepts_congr h, ?_, ?_, ?_, ?_, ?_⟩
  · intro r vmid node
    exact s.accepts_of_valueOf? rfl
  · intro r vmid node
    exact s.accepts_of_valueOf? rfl
  · intro r devpath size model
    exact s.accepts_of_valueOf? rfl
  · intro r size vmid
    exact s.accepts_of_valueOf? rfl
  · intro r volid name hlabel
    apply s.accepts_of_valueOf?
    funext field
    simp only [Kind.valueOf?, Volume.valueOf?, hlabel]

/-- The same tags in another order, one of them twice, and an absent pool for an empty one. -/
theorem accepts_depends_on_fields_tags :
    let s : Selector := ⟨[⟨"tags", .notEqual "a b"⟩, ⟨"pool", .equal ""⟩]⟩
    let r : Container := { vmid := 7, tags := some "b; a;b" }
    let r' : Container := { vmid := 8, tags := some " a ;b", pool := some "" }
    (∀ c ∈ s.conditions, Kind.container.AgreeOn c.field r r') ∧
      s.accepts .container r = s.accepts .container r' ∧
      s.accepts .container r' = .ok true := by
  intro s r r'
  have htags (tag : String) : IsTag (some "b; a;b") tag ↔ IsTag (some " a ;b") tag := by
    rw [← mem_tagsOf_iff, ← mem_tagsOf_iff,
      show tagsOf ((some "b; a;b").getD "") = ["b", "a", "b"] by decide,
      show tagsOf ((some " a ;b").getD "") = ["a", "b"] by decide]
    simp only [List.mem_cons, List.not_mem_nil]
    grind
  have hagree : ∀ c ∈ s.conditions, Kind.container.AgreeOn c.field r r' := by
    simp only [s, List.forall_mem_cons]
    exact ⟨htags, rfl, by simp⟩
  exact ⟨hagree, (accepts_depends_on_fields s).1 .container r r' hagree, by decide⟩

end Selector

end ClusterQuery
