import ClusterQuery.Proofs.Filter.Acceptance

/-!
# Filtering by several selectors

To filter by two selectors joined into one is to filter by the first and then by the second, the
error included: a field that the first one lacks is reported before any of the second, and the
second is checked even when the first leaves no records. Selectors of which the kind has every
field may be applied in any order, any of them again, or joined in any grouping: what is left are
the records that fit them all.
-/

namespace ClusterQuery.Selector

variable {k : Kind}

theorem checkFields_eq_ok_iff {s : Selector} : s.checkFields k = .ok () ↔ s.Supported k := by
  constructor
  · intro h
    by_contra hs
    obtain ⟨e, he⟩ := checkFields_of_not_supported hs
    rw [he] at h
    contradiction
  · exact checkFields_of_supported

theorem checkFields_append (s t : Selector) :
    (s ++ t).checkFields k = s.checkFields k >>= fun _ => t.checkFields k := by
  cases hs : s.conditions.find? fun c => !k.supports c.field with
  | some c => simp only [checkFields, conditions_append, List.find?_append, hs]; rfl
  | none => simp only [checkFields, conditions_append, List.find?_append, hs]; rfl

theorem supported_append {s t : Selector} :
    (s ++ t).Supported k ↔ s.Supported k ∧ t.Supported k := by
  simp only [Supported, conditions_append, List.forall_mem_append]

theorem holds_append (s t : Selector) :
    (s ++ t).holds k = fun r => s.holds k r && t.holds k r := by
  funext r
  simp [holds]

theorem filter_append (s t : Selector) (rs : List k.Record) :
    (s ++ t).filter k rs = s.filter k rs >>= t.filter k := by
  cases hs : s.checkFields k with
  | error e =>
      have hst : (s ++ t).checkFields k = .error e := by rw [checkFields_append, hs]; rfl
      rw [filter_of_checkFields_error hs, filter_of_checkFields_error hst]
      rfl
  | ok u =>
      have hst : (s ++ t).checkFields k = t.checkFields k := by rw [checkFields_append, hs]; rfl
      rw [filter_of_supported (checkFields_eq_ok_iff.mp hs)]
      change _ = t.filter k (rs.filter (s.holds k))
      cases ht : t.checkFields k with
      | error e => rw [filter_of_checkFields_error ht, filter_of_checkFields_error (hst.trans ht)]
      | ok u =>
          rw [filter_of_supported (checkFields_eq_ok_iff.mp ht),
            filter_of_supported (checkFields_eq_ok_iff.mp (hst.trans ht)), List.filter_filter]
          simp only [holds_append, Bool.and_comm]

/-- Records that all fit a selector are kept by it. -/
theorem filter_eq_self {s : Selector} (h : s.Supported k) {rs : List k.Record}
    (hall : ∀ r ∈ rs, s.holds k r) : s.filter k rs = .ok rs := by
  rw [filter_of_supported h, List.filter_eq_self.mpr hall]

/-- What two selectors have kept, filtered by the first one again and a third, is what all three
keep. -/
theorem filter_append_of_kept {s t u : Selector} (h : (s ++ t).Supported k)
    (rs : List k.Record) :
    (s ++ u).filter k (rs.filter ((s ++ t).holds k)) = (s ++ t ++ u).filter k rs := by
  have hkept : ∀ r ∈ rs.filter ((s ++ t).holds k), s.holds k r := by
    intro r hr
    have hboth := List.of_mem_filter hr
    rw [holds_append, Bool.and_eq_true] at hboth
    exact hboth.1
  calc (s ++ u).filter k (rs.filter ((s ++ t).holds k))
      = s.filter k (rs.filter ((s ++ t).holds k)) >>= u.filter k := filter_append s u _
    _ = u.filter k (rs.filter ((s ++ t).holds k)) := by
        rw [filter_eq_self (supported_append.mp h).1 hkept]
        rfl
    _ = (s ++ t).filter k rs >>= u.filter k := by
        rw [filter_of_supported h]
        rfl
    _ = (s ++ t ++ u).filter k rs := (filter_append (s ++ t) u rs).symm

/-- Filters by several selectors, one after another. -/
def filterEach (k : Kind) (ss : List Selector) (rs : List k.Record) :
    Except SelectorError (List k.Record) :=
  ss.foldlM (fun rs s => s.filter k rs) rs

/-- A way to join selectors two at a time, where `nothing` is the empty selector. -/
inductive Grouping
  | nothing
  | one (s : Selector)
  | both (left right : Grouping)

namespace Grouping

def members : Grouping → List Selector
  | nothing => []
  | one s => [s]
  | both left right => left.members ++ right.members

def joined : Grouping → Selector
  | nothing => empty
  | one s => s
  | both left right => left.joined ++ right.joined

end Grouping

theorem filterEach_append (ss ts : List Selector) (rs : List k.Record) :
    filterEach k (ss ++ ts) rs = filterEach k ss rs >>= filterEach k ts := by
  rw [filterEach, List.foldlM_append]
  rfl

/-- To filter by joined selectors is to filter by each of them in their order, the error
included. -/
theorem filter_joined (g : Grouping) (rs : List k.Record) :
    g.joined.filter k rs = filterEach k g.members rs := by
  induction g generalizing rs with
  | nothing =>
      have hsupported : empty.Supported k := by simp [Supported]
      exact filter_eq_self hsupported (by simp [holds])
  | one s => simp [Grouping.joined, Grouping.members, filterEach]
  | both left right ihl ihr =>
      rw [Grouping.joined, Grouping.members, filter_append, filterEach_append, ihl]
      congr 1
      funext kept
      exact ihr kept

theorem filterEach_of_supported {ss : List Selector} (h : ∀ s ∈ ss, s.Supported k)
    (rs : List k.Record) :
    filterEach k ss rs = .ok (rs.filter fun r => ss.all fun s => s.holds k r) := by
  induction ss generalizing rs with
  | nil => simp [filterEach, pure, Except.pure]
  | cons s ss ih =>
      obtain ⟨hs, hss⟩ := List.forall_mem_cons.mp h
      have hfirst : filterEach k (s :: ss) rs = filterEach k ss (rs.filter (s.holds k)) := by
        rw [filterEach, List.foldlM_cons, filter_of_supported hs]
        rfl
      rw [hfirst, ih hss, List.filter_filter]
      simp only [List.all_cons, Bool.and_comm]

/-- Only which selectors there are counts, not their order or how often each one stands there. -/
theorem filterEach_congr {ss ts : List Selector} (h : ∀ s ∈ ss, s.Supported k)
    (hmem : ∀ s, s ∈ ts ↔ s ∈ ss) (rs : List k.Record) :
    filterEach k ts rs = filterEach k ss rs := by
  rw [filterEach_of_supported h, filterEach_of_supported fun s hs => h s ((hmem s).mp hs)]
  congr 2
  funext r
  rw [Bool.eq_iff_iff]
  simp only [List.all_eq_true, hmem]

/-- Two joined selectors filter as one after the other does, with the same error. Selectors of which
the kind has every field leave the same records however they are ordered, repeated or joined. -/
theorem filter_acts_by_members (k : Kind) (rs : List k.Record) :
    (∀ s t : Selector, (s ++ t).filter k rs = s.filter k rs >>= t.filter k) ∧
    ∀ ss : List Selector, (∀ s ∈ ss, s.Supported k) → ∃ kept,
      (∀ ts : List Selector, (∀ s, s ∈ ts ↔ s ∈ ss) → filterEach k ts rs = .ok kept) ∧
      ∀ g : Grouping, (∀ s, s ∈ g.members ↔ s ∈ ss) → g.joined.filter k rs = .ok kept := by
  refine ⟨fun s t => filter_append s t rs, fun ss h => ?_⟩
  refine ⟨rs.filter fun r => ss.all fun s => s.holds k r, ?_, ?_⟩
  · intro ts hmem
    rw [filterEach_congr h hmem, filterEach_of_supported h]
  · intro g hmem
    rw [filter_joined, filterEach_congr h hmem, filterEach_of_supported h]

/-- The first selector joined to itself, and the second one applied before it and after it. -/
theorem filter_acts_by_members_repeated : ∃ kept,
    filterEach .disk
      [⟨[⟨"used", .notEqual "LVM"⟩]⟩, ⟨[⟨"gpt", .equal "yes"⟩]⟩, ⟨[⟨"used", .notEqual "LVM"⟩]⟩]
      [{ devpath := "a", gpt := true, used := some "LVM" }, { devpath := "b", gpt := true }] =
        .ok kept ∧
    (Grouping.both
        (.both (.one ⟨[⟨"gpt", .equal "yes"⟩]⟩) (.both .nothing (.one ⟨[⟨"gpt", .equal "yes"⟩]⟩)))
        (.one ⟨[⟨"used", .notEqual "LVM"⟩]⟩)).joined.filter .disk
      [{ devpath := "a", gpt := true, used := some "LVM" }, { devpath := "b", gpt := true }] =
        .ok kept ∧
    kept.length = 1 := by
  have hsupported : ∀ s ∈ [(⟨[⟨"gpt", .equal "yes"⟩]⟩ : Selector), ⟨[⟨"used", .notEqual "LVM"⟩]⟩],
      s.Supported .disk := by
    simp only [List.forall_mem_cons, Supported]
    decide
  obtain ⟨kept, hturn, hjoined⟩ := (filter_acts_by_members .disk
    [{ devpath := "a", gpt := true, used := some "LVM" }, { devpath := "b", gpt := true }]).2 _
    hsupported
  have hkept := hturn
    [⟨[⟨"used", .notEqual "LVM"⟩]⟩, ⟨[⟨"gpt", .equal "yes"⟩]⟩, ⟨[⟨"used", .notEqual "LVM"⟩]⟩]
    (by simp [or_comm])
  refine ⟨kept, hkept, hjoined _ (by simp [Grouping.members]), ?_⟩
  obtain rfl := Except.ok.inj hkept
  decide

end ClusterQuery.Selector
