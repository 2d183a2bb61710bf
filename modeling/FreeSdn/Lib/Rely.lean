import FreeSdn.Lib.Program

/-! Programs that await a world which others change too.  What such a program knows is told by a state
of knowledge: others may move it on between two waits, and a wait that is answered moves it on as the
answer says.  What holds of a program under these rules holds whatever the others do. -/

namespace FreeSdn.Lib

/-- A program of waits, each answered by a value or refused. -/
abbrev Awaiting (ε κ : Type) (ρ : κ → Type) : Type → Type :=
  ExceptT ε (Prog κ fun k => Except ε (ρ k))

/-- `later` is what others may do; `may` is what a wait may answer, and what is known then. -/
structure Rely (κ : Type) (ρ : κ → Type) (σ : Type) where
  later : σ → σ → Prop
  refl : ∀ s, later s s
  trans : ∀ {s t u}, later s t → later t u → later s u
  may : σ → (k : κ) → ρ k → σ → Prop

section
variable {ε κ : Type} {ρ : κ → Type} {α β : Type}

def await (k : κ) : Awaiting ε κ ρ (ρ k) := ExceptT.mk (.call k .done)

/-- The program, with `f e` for each refusal `e`. -/
def refusing (f : ε → ε) (p : Awaiting ε κ ρ α) : Awaiting ε κ ρ α :=
  ExceptT.mk (p.run.bind fun r => .done (r.mapError f))

end

section
variable {ε κ : Type} {ρ : κ → Type} {σ α β : Type} {R : Rely κ ρ σ} {ok : σ → κ → Prop} {s t : σ}

/-- At each of its waits the program meets `ok`, and it ends as `Q` says.  A refusal tells nothing. -/
def Rely.Steady (R : Rely κ ρ σ) (ok : σ → κ → Prop) (Q : α → σ → Prop) :
    Prog κ (fun k => Except ε (ρ k)) α → σ → Prop
  | .done a, s => ∀ t, R.later s t → Q a t
  | .call k next, s => ∀ t, R.later s t →
      ok t k ∧ ∀ r u, (∀ a, r = .ok a → R.may t k a u) → R.Steady ok Q (next r) u

namespace Rely.Steady

variable {p : Prog κ (fun k => Except ε (ρ k)) α} {Q Q' : α → σ → Prop}

theorem later (steady : R.Steady ok Q p s) (moved : R.later s t) : R.Steady ok Q p t := by
  cases p with
  | done a => exact fun u next => steady u (R.trans moved next)
  | call k next => exact fun u more => steady u (R.trans moved more)

theorem mono (steady : R.Steady ok Q p s) (weaker : ∀ a s, Q a s → Q' a s) : R.Steady ok Q' p s := by
  induction p generalizing s with
  | done a => exact fun t moved => weaker a t (steady t moved)
  | call k next ih =>
    intro t moved
    refine ⟨(steady t moved).1, fun r u told => ?_⟩
    exact ih r ((steady t moved).2 r u told)

/-- What the program ends with stays as it is. -/
theorem stays (steady : R.Steady ok Q p s) :
    R.Steady ok (fun a s => ∀ t, R.later s t → Q a t) p s := by
  induction p generalizing s with
  | done a => exact fun t moved u next => steady u (R.trans moved next)
  | call k next ih =>
    intro t moved
    refine ⟨(steady t moved).1, fun r u told => ?_⟩
    exact ih r ((steady t moved).2 r u told)

theorem bind {f : α → Prog κ (fun k => Except ε (ρ k)) β} {Q : β → σ → Prop}
    (steady : R.Steady ok (fun a s => R.Steady ok Q (f a) s) p s) : R.Steady ok Q (p.bind f) s := by
  induction p generalizing s with
  | done a => exact steady s (R.refl s)
  | call k next ih =>
    intro t moved
    refine ⟨(steady t moved).1, fun r u told => ?_⟩
    exact ih r ((steady t moved).2 r u told)

end Rely.Steady

/-- The program returns as `Q` says, if it returns. -/
def Rely.Holds (R : Rely κ ρ σ) (ok : σ → κ → Prop) (p : Awaiting ε κ ρ α) (Q : α → σ → Prop) (s : σ) :
    Prop :=
  R.Steady ok (fun r s => ∀ a, r = .ok a → Q a s) p.run s

namespace Rely.Holds

variable {p : Awaiting ε κ ρ α} {Q : α → σ → Prop}

theorem later (holds : R.Holds ok p Q s) (moved : R.later s t) : R.Holds ok p Q t :=
  Steady.later holds moved

theorem mono {Q' : α → σ → Prop} (holds : R.Holds ok p Q s) (weaker : ∀ a s, Q a s → Q' a s) :
    R.Holds ok p Q' s :=
  Steady.mono holds fun _ _ found a same => weaker a _ (found a same)

/-- What the others do must not undo what the program returns. -/
theorem pure {a : α} (found : ∀ t, R.later s t → Q a t) : R.Holds ok (pure a : Awaiting ε κ ρ α) Q s := by
  rintro t moved _ same
  obtain rfl := Except.ok.inj same
  exact found t moved

theorem bind {f : α → Awaiting ε κ ρ β} {Q : β → σ → Prop}
    (holds : R.Holds ok p (fun a s => R.Holds ok (f a) Q s) s) : R.Holds ok (p >>= f) Q s := by
  apply Steady.bind
  refine Steady.mono holds fun r s rest => ?_
  cases r with
  | ok a => exact rest a rfl
  | error e =>
    rintro t - a same
    cases same

/-- A wait goes on from what is known when it is answered. -/
theorem waiting {k : κ} {f : ρ k → Awaiting ε κ ρ β} {Q : β → σ → Prop}
    (wait : ∀ t, R.later s t → ok t k ∧ ∀ a u, R.may t k a u → R.Holds ok (f a) Q u) :
    R.Holds ok (await k >>= f) Q s := by
  apply bind
  intro t moved
  refine ⟨(wait t moved).1, fun r u told v more a same => ?_⟩
  exact ((wait t moved).2 a u (told a same)).later more

theorem refusing {f : ε → ε} (holds : R.Holds ok p Q s) : R.Holds ok (refusing f p) Q s := by
  apply Steady.bind
  refine Steady.mono (Steady.stays holds) fun r s found => ?_
  intro t moved a same
  cases r with
  | ok b =>
    obtain rfl := Except.ok.inj same
    exact found t moved b rfl
  | error e => cases same

theorem lift {x : Except ε α} (found : ∀ a, x = .ok a → ∀ t, R.later s t → Q a t) :
    R.Holds ok (liftM x : Awaiting ε κ ρ α) Q s := by
  intro t moved a same
  exact found a same t moved

/-- What is lifted is decided without the others. -/
theorem lifting {x : Except ε α} {f : α → Awaiting ε κ ρ β} {Q : β → σ → Prop}
    (rest : ∀ a, x = .ok a → R.Holds ok (f a) Q s) : R.Holds ok (liftM x >>= f) Q s := by
  apply bind
  cases x with
  | ok a =>
    rintro t moved _ same
    obtain rfl := Except.ok.inj same
    exact (rest a rfl).later moved
  | error e =>
    rintro t - a same
    cases same

end Rely.Holds

end

end FreeSdn.Lib
