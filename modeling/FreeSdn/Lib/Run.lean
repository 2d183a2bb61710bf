import Mathlib.Data.List.Basic
import Mathlib.Data.List.Infix

/-! Runs of a system whose steps are labelled and may be disabled.  A run carries a condition that
each of its steps meets in the state where it is taken. -/

namespace FreeSdn.Lib

variable {σ α : Type*}

/-- From `s` the labels `as`, taken in order, lead to `t`, and each of them meets `ok` in the state
where it is taken. -/
inductive Runs (step : σ → α → Option σ) (ok : σ → α → Prop) : σ → List α → σ → Prop
  | nil (s : σ) : Runs step ok s [] s
  | snoc {s t u : σ} {as : List α} {a : α} :
      Runs step ok s as t → ok t a → step t a = some u → Runs step ok s (as ++ [a]) u

/-- The condition that every step meets. -/
def Free (_ : σ) (_ : α) : Prop := True

instance (s : σ) (a : α) : Decidable (Free s a) := inferInstanceAs (Decidable True)

/-- The state after the labels `as`, if each is enabled and meets `ok` in turn. -/
def exec (step : σ → α → Option σ) (ok : σ → α → Prop) [∀ s a, Decidable (ok s a)] :
    σ → List α → Option σ
  | s, [] => some s
  | s, a :: as => if ok s a then (step s a).bind fun t => exec step ok t as else none

/-- The state where the labels lead. -/
def after (step : σ → α → Option σ) (ok : σ → α → Prop) [∀ s a, Decidable (ok s a)] (s : σ)
    (as : List α) : σ := (exec step ok s as).getD s

namespace Runs

variable {step : σ → α → Option σ} {ok ok' : σ → α → Prop} {s t u : σ} {as bs : List α} {a : α}

theorem one (h : ok s a) (next : step s a = some t) : Runs step ok s [a] t :=
  snoc (nil s) h next

theorem append (first : Runs step ok s as t) (second : Runs step ok t bs u) :
    Runs step ok s (as ++ bs) u := by
  induction second with
  | nil => simpa using first
  | snoc _ h next ih =>
    rw [← List.append_assoc]
    exact snoc ih h next

theorem mono (run : Runs step ok s as t) (weaker : ∀ s a, ok s a → ok' s a) :
    Runs step ok' s as t := by
  induction run with
  | nil => exact nil _
  | snoc _ h next ih => exact snoc ih (weaker _ _ h) next

/-- A property of the labels so far and the state, kept by every step. -/
theorem traced {P : List α → σ → Prop} (run : Runs step ok s as t) (start : P [] s)
    (keep : ∀ as t a u, ok t a → step t a = some u → P as t → P (as ++ [a]) u) : P as t := by
  induction run with
  | nil => exact start
  | snoc _ h next ih => exact keep _ _ _ _ h next ih

theorem invariant {P : σ → Prop} (run : Runs step ok s as t) (start : P s)
    (keep : ∀ t a u, ok t a → step t a = some u → P t → P u) : P t :=
  traced (P := fun _ t => P t) run start fun _ t a u => keep t a u

/-- A run through `as ++ bs` passes through a state between the two. -/
theorem split (run : Runs step ok s (as ++ bs) u) :
    ∃ t, Runs step ok s as t ∧ Runs step ok t bs u := by
  suffices h : ∀ cs u, Runs step ok s cs u → ∀ bs, cs = as ++ bs →
      ∃ t, Runs step ok s as t ∧ Runs step ok t bs u from h _ _ run bs rfl
  intro cs u run
  induction run with
  | nil =>
    intro bs eq
    obtain ⟨rfl, rfl⟩ := List.nil_eq_append_iff.mp eq
    exact ⟨s, nil s, nil s⟩
  | @snoc t u cs a prior h next ih =>
    intro bs eq
    rcases List.eq_nil_or_concat bs with rfl | ⟨bs, b, rfl⟩
    · rw [List.append_nil] at eq
      subst eq
      exact ⟨u, snoc prior h next, nil u⟩
    · rw [List.concat_eq_append, ← List.append_assoc] at eq
      obtain ⟨rfl, same⟩ := List.append_inj' eq rfl
      obtain rfl := List.singleton_inj.mp same
      obtain ⟨m, first, second⟩ := ih bs rfl
      exact ⟨m, first, List.concat_eq_append ▸ snoc second h next⟩

theorem cons (h : ok s a) (next : step s a = some t) (rest : Runs step ok t as u) :
    Runs step ok s (a :: as) u :=
  (one h next).append rest

/-- The last step of a run. -/
theorem unsnoc (run : Runs step ok s (as ++ [a]) u) :
    ∃ t, Runs step ok s as t ∧ ok t a ∧ step t a = some u := by
  generalize hb : as ++ [a] = bs at run
  cases run with
  | nil => simp at hb
  | @snoc t _ cs b prior h next =>
    obtain ⟨rfl, same⟩ := List.append_inj' hb rfl
    obtain rfl := List.singleton_inj.mp same
    exact ⟨t, prior, h, next⟩

theorem of_nil (run : Runs step ok s [] t) : t = s := by
  generalize hb : ([] : List α) = bs at run
  cases run with
  | nil => rfl
  | snoc => simp at hb

/-- The first step of a run. -/
theorem uncons (run : Runs step ok s (a :: as) u) :
    ∃ t, ok s a ∧ step s a = some t ∧ Runs step ok t as u := by
  rw [← List.singleton_append] at run
  obtain ⟨t, first, rest⟩ := run.split
  rw [← List.nil_append [a]] at first
  obtain ⟨m, start, h, next⟩ := first.unsnoc
  obtain rfl := start.of_nil
  exact ⟨t, h, next, rest⟩

theorem of_exec [∀ s a, Decidable (ok s a)] (h : exec step ok s as = some t) :
    Runs step ok s as t := by
  induction as generalizing s with
  | nil =>
    obtain rfl := Option.some.inj h
    exact nil s
  | cons a as ih =>
    simp only [exec] at h
    split at h
    · rename_i met
      obtain ⟨m, next, rest⟩ := Option.bind_eq_some_iff.mp h
      exact cons met next (ih rest)
    · simp at h

/-- The labels that execute are a run. -/
theorem to_after [∀ s a, Decidable (ok s a)] (h : (exec step ok s as).isSome) :
    Runs step ok s as (after step ok s as) := by
  obtain ⟨t, ht⟩ := Option.isSome_iff_exists.mp h
  rw [after, ht]
  exact of_exec ht

end Runs

/-! ### Single steps of a run -/

/-- Among the labels `as`, taken from `s`, is the label `a`, taken in a state with `P`. -/
def Took (step : σ → α → Option σ) (ok : σ → α → Prop) (s : σ) (as : List α) (a : α)
    (P : σ → Prop) : Prop :=
  ∃ before after t, as = before ++ a :: after ∧ Runs step ok s before t ∧ P t

namespace Took

variable {step : σ → α → Option σ} {ok : σ → α → Prop} {s t : σ} {as : List α} {a : α}
  {P Q : σ → Prop}

theorem mono (took : Took step ok s as a P) (weaker : ∀ t, P t → Q t) : Took step ok s as a Q := by
  obtain ⟨before, after, t, same, run, h⟩ := took
  exact ⟨before, after, t, same, run, weaker t h⟩

theorem last (run : Runs step ok s as t) (h : P t) : Took step ok s (as ++ [a]) a P :=
  ⟨as, [], t, rfl, run, h⟩

theorem extend (took : Took step ok s as a P) (b : α) : Took step ok s (as ++ [b]) a P := by
  obtain ⟨before, after, t, rfl, run, h⟩ := took
  exact ⟨before, after ++ [b], t, by simp, run, h⟩

end Took

/-! ### Steps that are always enabled -/

/-- Every state of a run has a property exactly when every step keeps it, if a step from a state with
the property keeps it exactly under a condition. -/
theorem always_iff {step : σ → α → σ} {P : σ → Prop} {ok : σ → α → Prop}
    (each : ∀ s a, P s → (P (step s a) ↔ ok s a)) {s : σ} (start : P s) (as : List α) :
    (∀ before, before <+: as → P (before.foldl step s)) ↔
      ∀ before a, before ++ [a] <+: as → ok (before.foldl step s) a := by
  constructor
  · intro always before a taken
    have next := always (before ++ [a]) taken
    rw [List.foldl_append] at next
    exact (each _ a (always before ((List.prefix_append _ _).trans taken))).mp next
  · intro kept before
    induction before using List.reverseRecOn with
    | nil => exact fun _ => start
    | append_singleton before a ih =>
      intro taken
      rw [List.foldl_append]
      exact (each _ a (ih ((List.prefix_append _ _).trans taken))).mpr (kept before a taken)

end FreeSdn.Lib
