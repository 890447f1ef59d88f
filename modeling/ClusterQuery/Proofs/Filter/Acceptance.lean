import Mathlib.Data.List.Basic
import ClusterQuery.Filter
import ClusterQuery.Proofs.Failure

/-!
# Which records a selector accepts

A condition is tested by itself: the value of its field is read off the record and compared as the
field is compared. The kind has every field that a selector names, or some condition is the first
whose field it lacks. In the first case no evaluation fails, and the records that are kept, located
or accepted are those for which the test of each condition gives true. In the second case every
evaluation fails with the field of that condition, whatever the records and the other conditions
are.
-/

namespace ClusterQuery

variable {k : Kind}

namespace Condition

/-- Whether the test of the condition gives true. -/
def holds (k : Kind) (c : Condition) (r : k.Record) : Bool :=
  c.test k r = .ok true

theorem test_of_valueOf? {c : Condition} {r : k.Record} {value : Option String}
    (h : k.valueOf? r c.field = some value) :
    c.test k r = .ok ((k.reading c.field).test value c.predicate) := by
  rw [test, h]

/-- The test of a condition whose field the kind has compares the value of that field. -/
theorem test_of_mem {c : Condition} (h : c.field ∈ k.fieldNames) (r : k.Record) :
    ∃ value, k.valueOf? r c.field = some value ∧
      c.test k r = .ok ((k.reading c.field).test value c.predicate) := by
  obtain ⟨value, hvalue⟩ := Kind.exists_valueOf? h r
  exact ⟨value, hvalue, test_of_valueOf? hvalue⟩

theorem holds_of_valueOf? {c : Condition} {r : k.Record} {value : Option String}
    (h : k.valueOf? r c.field = some value) :
    c.holds k r = (k.reading c.field).test value c.predicate := by
  simp [holds, test_of_valueOf? h]

theorem test_eq_holds {c : Condition} (h : c.field ∈ k.fieldNames) (r : k.Record) :
    c.test k r = .ok (c.holds k r) := by
  obtain ⟨value, hvalue, htest⟩ := test_of_mem h r
  rw [htest, holds_of_valueOf? hvalue]

end Condition

namespace Selector

variable {s : Selector}

/-- Whether every condition holds for the record. -/
def holds (k : Kind) (s : Selector) (r : k.Record) : Bool :=
  s.conditions.all fun c => c.holds k r

/-- The kind has every field that the selector names. -/
def Supported (k : Kind) (s : Selector) : Prop :=
  ∀ c ∈ s.conditions, c.field ∈ k.fieldNames

instance (k : Kind) (s : Selector) : Decidable (s.Supported k) :=
  inferInstanceAs (Decidable (∀ c ∈ s.conditions, c.field ∈ k.fieldNames))

/-- The first condition whose field the kind lacks. -/
def FirstUnsupported (k : Kind) (s : Selector) (c : Condition) : Prop :=
  ∃ before after, s.conditions = before ++ c :: after ∧
    (∀ b ∈ before, b.field ∈ k.fieldNames) ∧ c.field ∉ k.fieldNames

theorem supported_or_firstUnsupported (k : Kind) (s : Selector) :
    s.Supported k ∨ ∃ c, s.FirstUnsupported k c := by
  unfold Supported FirstUnsupported
  induction s.conditions with
  | nil => exact .inl (by simp)
  | cons c cs ih =>
      by_cases hc : c.field ∈ k.fieldNames
      · rcases ih with hall | ⟨d, before, after, rfl, hbefore, hd⟩
        · exact .inl (List.forall_mem_cons.mpr ⟨hc, hall⟩)
        · exact .inr ⟨d, c :: before, after, rfl, List.forall_mem_cons.mpr ⟨hc, hbefore⟩, hd⟩
      · exact .inr ⟨c, [], cs, rfl, by simp, hc⟩

theorem checkFields_of_supported (h : s.Supported k) : s.checkFields k = .ok () := by
  have hfind : s.conditions.find? (fun c => !k.supports c.field) = none := by
    rw [List.find?_eq_none]
    intro c hc
    simp [Kind.supports_iff.mpr (h c hc)]
  simp [checkFields, hfind]

theorem checkFields_of_firstUnsupported {c : Condition} (h : s.FirstUnsupported k c) :
    s.checkFields k = .error (.unknownField c.field k) := by
  obtain ⟨before, after, hs, hbefore, hc⟩ := h
  have hskip : before.find? (fun c => !k.supports c.field) = none := by
    rw [List.find?_eq_none]
    intro b hb
    simp [Kind.supports_iff.mpr (hbefore b hb)]
  have hunsupported : k.supports c.field = false := by
    rw [Bool.eq_false_iff, ne_eq, Kind.supports_iff]
    exact hc
  simp [checkFields, hs, List.find?_append, hskip, hunsupported]

theorem checkFields_of_not_supported (h : ¬s.Supported k) : ∃ e, s.checkFields k = .error e := by
  obtain hs | ⟨c, hc⟩ := supported_or_firstUnsupported k s
  · exact absurd hs h
  · exact ⟨_, checkFields_of_firstUnsupported hc⟩

theorem testAll_of_supported {cs : List Condition} (h : ∀ c ∈ cs, c.field ∈ k.fieldNames)
    (r : k.Record) : testAll k cs r = .ok (cs.all fun c => c.holds k r) := by
  induction cs with
  | nil => rfl
  | cons c cs ih =>
      obtain ⟨hc, hcs⟩ := List.forall_mem_cons.mp h
      rw [testAll, Condition.test_eq_holds hc, List.all_cons]
      cases hb : c.holds k r with
      | true => simpa [bind, Except.bind] using ih hcs
      | false => rfl

theorem accepts_of_supported (h : s.Supported k) (r : k.Record) :
    s.accepts k r = .ok (s.holds k r) := by
  rw [accepts, checkFields_of_supported h]
  exact testAll_of_supported h r

theorem filter_of_supported (h : s.Supported k) (rs : List k.Record) :
    s.filter k rs = .ok (rs.filter (s.holds k)) := by
  rw [filter, checkFields_of_supported h]
  exact keepM_eq_filter _ _ _ fun r _ => testAll_of_supported h r

theorem accepts_of_checkFields_error {e : SelectorError} (h : s.checkFields k = .error e)
    (r : k.Record) : s.accepts k r = .error e := by
  rw [accepts, h]
  rfl

theorem filter_of_checkFields_error {e : SelectorError} (h : s.checkFields k = .error e)
    (rs : List k.Record) : s.filter k rs = .error e := by
  rw [filter, h]
  rfl

theorem positions_of_checkFields_error {e : SelectorError} (h : s.checkFields k = .error e)
    (rs : List k.Record) : s.positions k rs = .error e := by
  rw [positions, h]
  rfl

theorem positions_of_supported (h : s.Supported k) (rs : List k.Record) :
    s.positions k rs = .ok ((rs.zipIdx.filter fun p => s.holds k p.1).map Prod.snd) := by
  have hkept := keepM_eq_filter (fun p : k.Record × Nat => testAll k s.conditions p.1)
    (fun p => s.holds k p.1) rs.zipIdx fun p _ => testAll_of_supported h p.1
  rw [positions, checkFields_of_supported h]
  simp [bind, Except.bind, pure, Except.pure, hkept]

theorem getElem?_places {α : Type} (p : α → Bool) (as : List α) :
    ((as.zipIdx.filter fun q => p q.1).map Prod.snd).map (as[·]?) = (as.filter p).map some := by
  have hplace : ∀ q ∈ as.zipIdx.filter fun q => p q.1, as[q.2]? = some q.1 := by
    intro q hq
    exact List.mem_zipIdx_iff_getElem?.mp (List.mem_of_mem_filter hq)
  have hmembers : (as.zipIdx.filter fun q => p q.1).map Prod.fst = as.filter p := by
    conv_rhs => rw [← List.zipIdx_map_fst 0 as, List.filter_map]
    rfl
  rw [List.map_map, ← hmembers, List.map_map]
  exact List.map_congr_left hplace

theorem places_increasing {α : Type} (p : α → Bool) (as : List α) :
    ((as.zipIdx.filter fun q => p q.1).map Prod.snd).Pairwise (· < ·) := by
  have hsub : ((as.zipIdx.filter fun q => p q.1).map Prod.snd).Sublist
      (List.range' 0 as.length) := by
    rw [← List.zipIdx_map_snd 0 as]
    exact List.filter_sublist.map Prod.snd
  exact List.Pairwise.sublist hsub (List.pairwise_lt_range' ..)

/-- Either some condition is the first whose field the kind lacks, and every evaluation fails
with that field, or none fails and all agree: the test of each condition compares the value of its
field, a record is accepted when all tests give true, the records kept are those, in their order,
and the places are theirs. -/
theorem evaluations_agree (k : Kind) (s : Selector) (rs : List k.Record) :
    (∃ c, s.FirstUnsupported k c ∧
      s.checkFields k = .error (.unknownField c.field k) ∧
      s.positions k rs = .error (.unknownField c.field k) ∧
      s.filter k rs = .error (.unknownField c.field k) ∧
      ∀ r, s.accepts k r = .error (.unknownField c.field k)) ∨
    (s.Supported k ∧ s.checkFields k = .ok () ∧
      (∀ c ∈ s.conditions, ∀ r, ∃ value, k.valueOf? r c.field = some value ∧
        c.test k r = .ok ((k.reading c.field).test value c.predicate)) ∧
      (∀ r, s.accepts k r = .ok (s.conditions.all fun c => c.test k r = .ok true)) ∧
      ∃ kept places, s.filter k rs = .ok kept ∧ s.positions k rs = .ok places ∧
        places.Pairwise (· < ·) ∧ places.map (rs[·]?) = kept.map some ∧
        kept = rs.filter (fun r => s.conditions.all fun c => c.test k r = .ok true) ∧
        kept = rs.filter fun r => s.accepts k r = .ok true) := by
  rcases supported_or_firstUnsupported k s with h | ⟨c, hc⟩
  · refine .inr ⟨h, checkFields_of_supported h, fun c hc r => Condition.test_of_mem (h c hc) r,
      accepts_of_supported h, _, _, filter_of_supported h rs, positions_of_supported h rs,
      places_increasing _ rs, getElem?_places _ rs, rfl, ?_⟩
    simp [accepts_of_supported h]
  · have herror := checkFields_of_firstUnsupported hc
    exact .inl ⟨c, hc, herror, positions_of_checkFields_error herror rs,
      filter_of_checkFields_error herror rs, accepts_of_checkFields_error herror⟩

end Selector

end ClusterQuery
