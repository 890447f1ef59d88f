import Mathlib.Data.List.Basic
import ClusterQuery.Proofs.Filter.Acceptance
import ClusterQuery.Proofs.Selector.Wildcard

/-!
# The operators in terms of equality

An equality asks whether its value is among the parts of a subject, however these are read, and
the other operators only ask about equalities: an inequality for the failure of one, a membership
test for one with some item of its list, a wildcard match for one with some text that its pattern
accepts. So the records kept by an equality and by the inequality with the same value divide any
list of records between them.
-/

namespace ClusterQuery

namespace Predicate

variable {parts : List String}

theorem holds_equal_iff {v : String} : (equal v).holds parts ↔ v ∈ parts := by
  simp [holds]

theorem holds_notEqual (v : String) : (notEqual v).holds parts = !(equal v).holds parts := rfl

theorem holds_oneOf_iff {vs : List String} :
    (oneOf vs).holds parts ↔ ∃ v ∈ vs, (equal v).holds parts := by
  rw [holds]
  simp only [holds_equal_iff, List.any_eq_true, beq_iff_eq]
  constructor
  · rintro ⟨part, hpart, v, hv, rfl⟩
    exact ⟨v, hv, hpart⟩
  · rintro ⟨v, hv, hpart⟩
    exact ⟨v, hpart, v, hv, rfl⟩

theorem holds_like_iff {g : Glob} :
    (like g).holds parts ↔ ∃ v, g.accepts v ∧ (equal v).holds parts := by
  rw [holds]
  simp only [holds_equal_iff, List.any_eq_true]
  exact exists_congr fun v => and_comm

theorem holds_oneOf_congr {vs ws : List String} (h : ∀ v, v ∈ vs ↔ v ∈ ws) :
    (oneOf vs).holds parts = (oneOf ws).holds parts := by
  rw [Bool.eq_iff_iff, holds_oneOf_iff, holds_oneOf_iff]
  simp only [h]

theorem holds_like_of_no_wildcard {g : Glob} (h : '*' ∉ g.source.toList) :
    (like g).holds parts = (equal g.source).holds parts := by
  rw [Bool.eq_iff_iff, holds_like_iff]
  simp [Glob.accepts_of_no_wildcard h]

end Predicate

theorem Condition.holds_notEqual {k : Kind} {field : String} (h : field ∈ k.fieldNames)
    (v : String) (r : k.Record) :
    holds k ⟨field, .notEqual v⟩ r = !holds k ⟨field, .equal v⟩ r := by
  obtain ⟨value, hvalue⟩ := Kind.exists_valueOf? h r
  rw [holds_of_valueOf? hvalue, holds_of_valueOf? hvalue]
  rfl

namespace Selector

variable {k : Kind}

theorem holds_singleton (c : Condition) : holds k ⟨[c]⟩ = c.holds k := by
  funext r
  simp [holds]

theorem filter_singleton {c : Condition} (h : c.field ∈ k.fieldNames) (rs : List k.Record) :
    (⟨[c]⟩ : Selector).filter k rs = .ok (rs.filter (c.holds k)) := by
  rw [filter_of_supported (by simpa [Supported] using h), holds_singleton]

theorem filter_equal_notEqual {field : String} (h : field ∈ k.fieldNames) (v : String)
    (rs : List k.Record) :
    ∃ equal others,
      (⟨[⟨field, .equal v⟩]⟩ : Selector).filter k rs = .ok equal ∧
      (⟨[⟨field, .notEqual v⟩]⟩ : Selector).filter k rs = .ok others ∧
      equal.Sublist rs ∧ others.Sublist rs ∧ (equal ++ others).Perm rs ∧ equal.Disjoint others := by
  have hothers : Condition.holds k ⟨field, .notEqual v⟩ =
      fun r => !Condition.holds k ⟨field, .equal v⟩ r := funext (Condition.holds_notEqual h v)
  refine ⟨_, _, filter_singleton h rs, filter_singleton h rs, List.filter_sublist,
    List.filter_sublist, ?_, ?_⟩
  · rw [hothers]
    exact List.filter_append_perm _ rs
  · intro r hr hr'
    rw [hothers] at hr'
    have hequal := List.of_mem_filter hr
    have hnot := List.of_mem_filter hr'
    simp [hequal] at hnot

end Selector

/-- Under either reading every operator is determined by equality, and the records that an equality
keeps and those that the inequality keeps make up any list of records between them. -/
theorem operators_by_equality :
    (∀ (reading : Reading) (subject : Option String),
      (∀ v, reading.test subject (.notEqual v) ↔ ¬reading.test subject (.equal v)) ∧
      (∀ vs, reading.test subject (.oneOf vs) ↔ ∃ v ∈ vs, reading.test subject (.equal v)) ∧
      reading.test subject (.oneOf []) = false ∧
      (∀ vs ws, (∀ v, v ∈ vs ↔ v ∈ ws) →
        reading.test subject (.oneOf vs) = reading.test subject (.oneOf ws)) ∧
      (∀ g, reading.test subject (.like g) ↔
        ∃ v, g.accepts v ∧ reading.test subject (.equal v)) ∧
      ∀ g, '*' ∉ g.source.toList →
        reading.test subject (.like g) = reading.test subject (.equal g.source)) ∧
    ∀ (k : Kind) (field v : String) (rs : List k.Record), field ∈ k.fieldNames →
      ∃ equal others,
        (⟨[⟨field, .equal v⟩]⟩ : Selector).filter k rs = .ok equal ∧
        (⟨[⟨field, .notEqual v⟩]⟩ : Selector).filter k rs = .ok others ∧
        equal.Sublist rs ∧ others.Sublist rs ∧ (equal ++ others).Perm rs ∧
        equal.Disjoint others := by
  refine ⟨fun reading subject => ⟨?_, ?_, ?_, ?_, ?_, ?_⟩, ?_⟩
  · intro v
    simp [Reading.test, Predicate.holds_notEqual]
  · intro vs
    exact Predicate.holds_oneOf_iff
  · rw [Bool.eq_false_iff]
    intro h
    simpa using Predicate.holds_oneOf_iff.mp h
  · intro vs ws h
    exact Predicate.holds_oneOf_congr h
  · intro g
    exact Predicate.holds_like_iff
  · intro g h
    exact Predicate.holds_like_of_no_wildcard h
  · intro k field v rs h
    exact Selector.filter_equal_notEqual h v rs

/-- An empty piece between two tags is a tag, and a blank or absent value has none. -/
theorem operators_by_equality_empty_tag :
    "tags" ∈ Kind.container.fieldNames ∧ ∃ equal others,
      (⟨[⟨"tags", .equal ""⟩]⟩ : Selector).filter .container
        [{ vmid := 1, tags := some " " }, { vmid := 2, tags := some "a;;b" }, { vmid := 3 },
          { vmid := 2, tags := some "a;;b" }] = .ok equal ∧
      (⟨[⟨"tags", .notEqual ""⟩]⟩ : Selector).filter .container
        [{ vmid := 1, tags := some " " }, { vmid := 2, tags := some "a;;b" }, { vmid := 3 },
          { vmid := 2, tags := some "a;;b" }] = .ok others ∧
      equal.length = 2 ∧ equal.Disjoint others := by
  have hfield : "tags" ∈ Kind.container.fieldNames := by decide
  obtain ⟨equal, others, hequal, hothers, -, -, -, hdisjoint⟩ :=
    operators_by_equality.2 .container "tags" ""
      [{ vmid := 1, tags := some " " }, { vmid := 2, tags := some "a;;b" }, { vmid := 3 },
        { vmid := 2, tags := some "a;;b" }] hfield
  refine ⟨hfield, equal, others, hequal, hothers, ?_, hdisjoint⟩
  obtain rfl := Except.ok.inj hequal
  decide

end ClusterQuery
