import Mathlib.Data.List.Forall2

/-!
# Computations that may fail

When a computation that may fail gives a result: a sequence of two gives one when both parts do,
and a list of computations when each of them does, in order. A computation that gives none has an
error instead, or nothing at all where failures are not told apart.
-/

namespace ClusterQuery

variable {α β ε ε' : Type}

/-- The error of a computation that fails. -/
def failure? : Except ε α → Option ε
  | .error e => some e
  | .ok _ => none

@[simp] theorem failure?_error (e : ε) : failure? (.error e : Except ε α) = some e := rfl

@[simp] theorem failure?_ok (a : α) : failure? (.ok a : Except ε α) = none := rfl

theorem toOption_eq_some_iff {x : Except ε α} {a : α} : x.toOption = some a ↔ x = .ok a := by
  cases x <;> simp [Except.toOption]

theorem bind_eq_ok_iff {x : Except ε α} {f : α → Except ε β} {b : β} :
    x >>= f = .ok b ↔ ∃ a, x = .ok a ∧ f a = .ok b := by
  cases x with
  | error e => simp [bind, Except.bind]
  | ok a => simp [bind, Except.bind]

theorem mapError_eq_ok_iff {x : Except ε α} {f : ε → ε'} {a : α} :
    x.mapError f = .ok a ↔ x = .ok a := by
  cases x with
  | error e => simp [Except.mapError]
  | ok b => simp [Except.mapError]

theorem mapError_bind (x : Except ε α) (f : α → Except ε β) (g : ε → ε') :
    (x >>= f).mapError g = x.mapError g >>= fun a => (f a).mapError g := by
  cases x <;> rfl

theorem mapM_eq_ok_iff {f : α → Except ε β} {as : List α} {bs : List β} :
    as.mapM f = .ok bs ↔ List.Forall₂ (fun a b => f a = .ok b) as bs := by
  induction as generalizing bs with
  | nil => cases bs <;> simp [pure, Except.pure]
  | cons a as ih =>
      simp only [List.mapM_cons, bind_eq_ok_iff, List.forall₂_cons_left_iff, ih]
      constructor
      · rintro ⟨b, hb, bs', hbs, hp⟩
        cases hp
        exact ⟨b, bs', hb, hbs, rfl⟩
      · rintro ⟨b, bs', hb, hbs, rfl⟩
        exact ⟨b, hb, bs', hbs, rfl⟩

/-- A list of computations fails with the error of the first one that does. -/
theorem mapM_eq_error_iff {f : α → Except ε β} {as : List α} {e : ε} :
    as.mapM f = .error e ↔ ∃ before a after, as = before ++ a :: after ∧
      (∀ b ∈ before, ∃ c, f b = .ok c) ∧ f a = .error e := by
  induction as with
  | nil => simp [pure, Except.pure]
  | cons a as ih =>
      simp only [List.mapM_cons, List.cons_eq_append_iff]
      cases ha : f a with
      | error e' =>
          constructor
          · rintro ⟨⟩
            exact ⟨[], a, as, .inl ⟨rfl, rfl⟩, by simp, ha⟩
          · rintro ⟨before, b, after, ⟨rfl, h⟩ | ⟨before, rfl, -⟩, hbefore, hb⟩
            · cases h
              rw [ha] at hb
              exact congrArg _ (Except.error.inj hb)
            · obtain ⟨c, hc⟩ := hbefore a (by simp)
              simp [ha] at hc
      | ok c =>
          have hrest : (as.mapM f >>= fun cs => .ok (c :: cs)) = .error e ↔ as.mapM f = .error e := by
            cases as.mapM f <;> simp [bind, Except.bind]
          refine hrest.trans (ih.trans ⟨?_, ?_⟩)
          · rintro ⟨before, b, after, rfl, hbefore, hb⟩
            exact ⟨a :: before, b, after, .inr ⟨before, rfl, rfl⟩,
              List.forall_mem_cons.mpr ⟨⟨c, ha⟩, hbefore⟩, hb⟩
          · rintro ⟨before, b, after, ⟨rfl, h⟩ | ⟨before, rfl, rfl⟩, hbefore, hb⟩
            · cases h
              simp [ha] at hb
            · exact ⟨before, b, after, rfl, (List.forall_mem_cons.mp hbefore).2, hb⟩

/-- Lists whose members give the same computations, one by one, give the same as a whole. -/
theorem mapM_congr {γ : Type} {m : Type → Type} [Monad m] [LawfulMonad m] {f : α → m γ}
    {g : β → m γ} {as : List α} {bs : List β} (h : List.Forall₂ (fun a b => f a = g b) as bs) :
    as.mapM f = bs.mapM g := by
  induction h with
  | nil => rfl
  | cons ha _ ih => rw [List.mapM_cons, List.mapM_cons, ha, ih]

theorem mapM_eq_some_iff {f : α → Option β} {as : List α} {bs : List β} :
    as.mapM f = some bs ↔ List.Forall₂ (fun a b => f a = some b) as bs := by
  induction as generalizing bs with
  | nil => cases bs <;> simp
  | cons a as ih =>
      simp only [List.mapM_cons, Option.bind_eq_bind, Option.bind_eq_some_iff, Option.pure_def,
        Option.some.injEq, List.forall₂_cons_left_iff, ih]
      constructor
      · rintro ⟨b, hb, bs', hbs, rfl⟩
        exact ⟨b, bs', hb, hbs, rfl⟩
      · rintro ⟨b, bs', hb, hbs, rfl⟩
        exact ⟨b, hb, bs', hbs, rfl⟩

theorem mapM_eq_none_iff {f : α → Option β} {as : List α} :
    as.mapM f = none ↔ ∃ a ∈ as, f a = none := by
  induction as with
  | nil => simp
  | cons a as ih =>
      cases ha : f a with
      | none => simp [ha]
      | some b =>
          have hrest : (a :: as).mapM f = none ↔ as.mapM f = none := by
            rw [List.mapM_cons, ha]
            cases as.mapM f <;> simp
          rw [hrest, ih]
          simp [ha]

end ClusterQuery
