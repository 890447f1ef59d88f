import ClusterQuery.Session
import ClusterQuery.Proofs.Filter.Acceptance

/-!
# What the pool of a session has become

The history of a session is told from its steps alone. It keeps the records that were last loaded,
the selectors by which the pool was narrowed since then, each as its name was bound at that time,
and what every name is bound to; a step that is refused leaves no trace in it. After any run the
pool is what the narrowing selectors leave of the loaded records, every name is bound to what the
history says, and the steps that failed are those that the history refuses.
-/

namespace ClusterQuery

/-- The records last loaded, the selectors that narrowed the pool since, and the selectors under
names. -/
structure History (k : Kind) where
  loaded : List k.Record
  narrowed : List Selector
  named : String → Selector

namespace History

variable {k : Kind} (h : History k)

/-- The loaded records for which every condition of every narrowing selector holds. -/
def remaining : List k.Record :=
  h.loaded.filter fun r => h.narrowed.all fun s => s.conditions.all fun c => c.test k r = .ok true

def bind (name : String) (s : Selector) : History k :=
  { h with named := fun other => if other = name then s else h.named other }

/-- The history after a step, unless the step is refused. -/
def next? : Step → Option (History k)
  | .parse name texts => (Selector.ofTexts texts).toOption.map (h.bind name)
  | .build name drafts => (Selector.ofDrafts drafts).toOption.map (h.bind name)
  | .conjoin name left right => some (h.bind name (h.named left ++ h.named right))
  | .view _ | .compare _ _ => some h
  | .checkFields name | .select name => if (h.named name).Supported k then some h else none
  | .test name index =>
    if index < h.remaining.length ∧ (h.named name).Supported k then some h else none
  | .narrow name =>
    if (h.named name).Supported k then some { h with narrowed := h.narrowed ++ [h.named name] }
    else none
  | .load text => (k.decodeText? text).map fun rs => { h with loaded := rs, narrowed := [] }
  | .render format => (Format.ofName? format).map fun _ => h

/-- The history after some steps, without those that are refused. -/
def after (steps : List Step) : History k :=
  steps.foldl (fun h step => (h.next? step).getD h) h

theorem remaining_narrowed (s : Selector) :
    ({ h with narrowed := h.narrowed ++ [s] } : History k).remaining =
      h.remaining.filter (s.holds k) := by
  simp [remaining, Selector.holds, Condition.holds, List.filter_filter, Bool.and_comm]

end History

namespace Session

variable {k : Kind} (s : Session k)

/-- The pool and the names are as the history says. -/
structure Follows (s : Session k) (h : History k) : Prop where
  pool : s.pool = h.remaining
  lookup : ∀ name, s.lookup name = h.named name

theorem lookup_bind (name : String) (selector : Selector) (other : String) :
    (s.bind name selector).lookup other = if other = name then selector else s.lookup other := by
  by_cases hn : other = name
  · simp [bind, Session.lookup, hn]
  · simp [bind, Session.lookup, List.lookup_cons, beq_eq_false_iff_ne.mpr hn, hn]

variable {s} {h : History k}

theorem Follows.bind (hf : s.Follows h) (name : String) (selector : Selector) :
    (s.bind name selector).Follows (h.bind name selector) := by
  refine ⟨hf.pool, fun other => ?_⟩
  rw [lookup_bind, hf.lookup]
  rfl

theorem Follows.narrow (hf : s.Follows h) (selector : Selector) :
    ({ s with pool := s.pool.filter (selector.holds k) } : Session k).Follows
      { h with narrowed := h.narrowed ++ [selector] } := by
  refine ⟨?_, hf.lookup⟩
  rw [h.remaining_narrowed, ← hf.pool]

theorem Follows.load (hf : s.Follows h) (rs : List k.Record) :
    ({ s with pool := rs } : Session k).Follows { h with loaded := rs, narrowed := [] } :=
  ⟨by simp [History.remaining], hf.lookup⟩

/-- A step goes on to a session that follows the next history, or there is none and it fails. -/
inductive Goes (s : Session k) (step : Step) : Option (History k) → Prop
  | on {next : Session k} {answer : Answer} {h : History k}
      (hstep : s.step step = .ok (next, answer)) (hf : next.Follows h) : Goes s step (some h)
  | refused {e : StepError} (hstep : s.step step = .error e) : Goes s step none

/-- A step that checks the fields of a selector first, and goes on when the kind has them all. -/
theorem goes_of_check {step : Step} {selector : Selector} {next : History k}
    (hok : selector.Supported k → s.Goes step (some next))
    (herror : ∀ e, selector.checkFields k = .error e → s.step step = .error (.selector e)) :
    s.Goes step (if selector.Supported k then some next else none) := by
  by_cases hs : selector.Supported k
  · rw [if_pos hs]
    exact hok hs
  · obtain ⟨e, he⟩ := Selector.checkFields_of_not_supported hs
    rw [if_neg hs]
    exact .refused (herror e he)

/-- A step that reads a selector, which may fail, and binds a name to it. -/
theorem Follows.goes_of_bind (hf : s.Follows h) {step : Step} {name : String}
    {read : Except SelectorError Selector}
    (hstep : s.step step = (read.mapError .selector).map fun selector =>
      (s.bind name selector, .bound selector)) :
    s.Goes step (read.toOption.map (h.bind name)) := by
  cases hr : read with
  | error e =>
      rw [hr] at hstep
      exact .refused hstep
  | ok selector =>
      rw [hr] at hstep
      exact .on hstep (hf.bind name selector)

/-- What a step does to a session it does to the history that the session follows. -/
theorem Follows.goes (hf : s.Follows h) (step : Step) : s.Goes step (h.next? step) := by
  cases step with
  | parse name texts => exact hf.goes_of_bind rfl
  | build name drafts => exact hf.goes_of_bind rfl
  | conjoin name left right =>
      have hboth : s.lookup left ++ s.lookup right = h.named left ++ h.named right := by
        rw [hf.lookup, hf.lookup]
      exact .on rfl (hboth ▸ hf.bind name _)
  | view name => exact .on rfl hf
  | compare left right => exact .on rfl hf
  | checkFields name =>
      apply goes_of_check
      · intro hs
        have hcheck := Selector.checkFields_of_supported hs
        exact .on (by simp only [Session.step, hf.lookup, hcheck]; rfl) hf
      · intro e he
        simp only [Session.step, hf.lookup, he]
        rfl
  | select name =>
      apply goes_of_check
      · intro hs
        have hpositions := Selector.positions_of_supported hs s.pool
        exact .on (by simp only [Session.step, hf.lookup, hpositions]; rfl) hf
      · intro e he
        have hpositions := Selector.positions_of_checkFields_error he s.pool
        simp only [Session.step, hf.lookup, hpositions]
        rfl
  | test name index =>
      cases hr : s.pool[index]? with
      | none =>
          have hindex : ¬index < h.remaining.length := by
            rw [← hf.pool]
            exact Nat.not_lt.mpr (List.getElem?_eq_none_iff.mp hr)
          rw [History.next?, if_neg fun hboth => hindex hboth.1]
          exact .refused (by simp only [Session.step, hr]; rfl)
      | some r =>
          have hindex : index < h.remaining.length := by
            rw [← hf.pool]
            exact (List.getElem?_eq_some_iff.mp hr).1
          simp only [History.next?, hindex, true_and]
          apply goes_of_check
          · intro hs
            have haccepts := Selector.accepts_of_supported hs r
            exact .on (by simp only [Session.step, hr, hf.lookup, haccepts]; rfl) hf
          · intro e he
            have haccepts := Selector.accepts_of_checkFields_error he r
            simp only [Session.step, hr, hf.lookup, haccepts]
            rfl
  | narrow name =>
      apply goes_of_check
      · intro hs
        have hfilter := Selector.filter_of_supported hs s.pool
        exact .on (by simp only [Session.step, hf.lookup, hfilter]; rfl) (hf.narrow _)
      · intro e he
        have hfilter := Selector.filter_of_checkFields_error he s.pool
        simp only [Session.step, hf.lookup, hfilter]
        rfl
  | load text =>
      cases hd : k.decodeText? text with
      | none =>
          rw [History.next?, hd]
          exact .refused (by simp only [Session.step, hd]; rfl)
      | some rs =>
          rw [History.next?, hd]
          exact .on (by simp only [Session.step, hd]; rfl) (hf.load rs)
  | render format =>
      cases hn : Format.ofName? format with
      | none =>
          rw [History.next?, hn]
          exact .refused (by simp only [Session.step, hn]; rfl)
      | some f =>
          rw [History.next?, hn]
          exact .on (by simp only [Session.step, hn]; rfl) hf

/-- A step of a run fails exactly when the history refuses it, and then it changes nothing. -/
theorem Follows.perform (hf : s.Follows h) (step : Step) :
    (s.perform step).1.Follows ((h.next? step).getD h) ∧
      ((∃ e, (s.perform step).2 = .error e) ↔ h.next? step = none) ∧
      (h.next? step = none → (s.perform step).1 = s) := by
  have hgoes := hf.goes step
  revert hgoes
  generalize h.next? step = next
  rintro (⟨hstep, hnext⟩ | hstep)
  · simp [Session.perform, hstep, hnext]
  · simp [Session.perform, hstep, hf]

theorem run_cons (s : Session k) (step : Step) (steps : List Step) :
    s.run (step :: steps) = (((s.perform step).1.run steps).1,
      (s.perform step).2 :: ((s.perform step).1.run steps).2) := rfl

theorem length_run (s : Session k) (steps : List Step) :
    (s.run steps).2.length = steps.length := by
  induction steps generalizing s with
  | nil => rfl
  | cons step steps ih => simp [run_cons, ih]

theorem Follows.run (hf : s.Follows h) (steps : List Step) :
    (s.run steps).1.Follows (h.after steps) := by
  induction steps generalizing s h with
  | nil => exact hf
  | cons step steps ih => exact ih (hf.perform step).1

/-- Each step of a run fails exactly when the history of the steps before it refuses it, and then
the session stays as it was. -/
theorem Follows.outcome (hf : s.Follows h) {steps : List Step} {i : Nat} {step : Step}
    (hi : steps[i]? = some step) : ∃ outcome, (s.run steps).2[i]? = some outcome ∧
      ((∃ e, outcome = .error e) ↔ (h.after (steps.take i)).next? step = none) ∧
      ((∃ e, outcome = .error e) →
        (s.run (steps.take (i + 1))).1 = (s.run (steps.take i)).1) := by
  induction steps generalizing s h i with
  | nil => simp at hi
  | cons first steps ih =>
      cases i with
      | zero =>
          obtain rfl : first = step := by simpa using hi
          obtain ⟨-, hrefused, hsame⟩ := hf.perform first
          exact ⟨_, rfl, hrefused, fun he => hsame (hrefused.mp he)⟩
      | succ i => exact ih (hf.perform first).1 (by simpa using hi)

/-- After any run the pool is what the selectors of the successful narrowings since the last
successful load leave of the records then loaded, each selector as its name was bound at that time,
and every name is bound as the history says. A step fails exactly when the history refuses it, and
then it changes neither the pool nor what a name is bound to. -/
theorem run_pool_eq_remaining (s : Session k) (steps : List Step) :
    let start : History k := ⟨s.pool, [], s.lookup⟩
    (s.run steps).1.pool = (start.after steps).remaining ∧
      (∀ name, (s.run steps).1.lookup name = (start.after steps).named name) ∧
      (s.run steps).2.length = steps.length ∧
      ∀ i step, steps[i]? = some step → ∃ outcome, (s.run steps).2[i]? = some outcome ∧
        ((∃ e, outcome = .error e) ↔ (start.after (steps.take i)).next? step = none) ∧
        ((∃ e, outcome = .error e) →
          (s.run (steps.take (i + 1))).1 = (s.run (steps.take i)).1) := by
  intro start
  have hf : s.Follows start := ⟨by simp [start, History.remaining], fun _ => rfl⟩
  exact ⟨(hf.run steps).pool, (hf.run steps).lookup, s.length_run steps,
    fun i step hi => hf.outcome hi⟩

/-- A name that is bound anew between two narrowings. A text that holds no records, a narrowing by
a field that containers lack and a selector that cannot be read fail on the way. -/
theorem run_pool_eq_remaining_rebound :
    let s : Session .container := ⟨[{ vmid := 1, status := some "running", tags := some "web" },
      { vmid := 2, tags := some "web" }, { vmid := 3, status := some "running" }], []⟩
    let steps : List Step := [.parse "a" ["status=running"], .narrow "a", .load "[1",
      .parse "a" ["size=1"], .narrow "a", .parse "a" ["tags=web"], .conjoin "b" "a" "unbound",
      .narrow "b", .parse "a" ["=web"]]
    let start : History .container := ⟨s.pool, [], s.lookup⟩
    (s.run steps).1.pool = (start.after steps).remaining ∧
      (start.after steps).remaining.map (·.vmid) = [1] ∧
      (s.run steps).1.lookup "a" = ⟨[⟨"tags", .equal "web"⟩]⟩ ∧
      steps[4]? = some (.narrow "a") ∧
      (∃ e, (s.run steps).2[4]? = some (.error e)) ∧
      (s.run (steps.take 5)).1 = (s.run (steps.take 4)).1 := by
  intro s steps start
  obtain ⟨hpool, hlookup, -, houtcome⟩ := run_pool_eq_remaining s steps
  have hnarrow : steps[4]? = some (.narrow "a") := rfl
  have hrefused : (start.after (steps.take 4)).next? (.narrow "a") = none :=
    Option.isNone_iff_eq_none.mp (by decide)
  obtain ⟨outcome, hout, herror, hsame⟩ := houtcome 4 _ hnarrow
  obtain ⟨e, rfl⟩ := herror.mpr hrefused
  refine ⟨hpool, by decide, ?_, hnarrow, ⟨e, hout⟩, hsame ⟨e, rfl⟩⟩
  rw [hlookup]
  decide

end Session

end ClusterQuery
