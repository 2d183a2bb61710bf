import FreeSdn.Lib.Except

/-! Programs that call a machine and go on with its answers.  A query leaves the state of the machine
as it is, and a change may not.  What else decides an answer is a choice of the machine's own, so what
holds of a program holds under every sequence of choices. -/

namespace FreeSdn.Lib

inductive Prog (κ : Type) (ρ : κ → Type) (α : Type)
  | done (a : α)
  | call (k : κ) (next : ρ k → Prog κ ρ α)

section
variable {κ : Type} {ρ : κ → Type} {α β : Type}

def Prog.bind : Prog κ ρ α → (α → Prog κ ρ β) → Prog κ ρ β
  | done a, f => f a
  | call k next, f => call k fun r => (next r).bind f

instance : Monad (Prog κ ρ) where
  pure := .done
  bind := .bind

end

/-- Queries `κ` and changes `μ`, each answered by a value or refused. -/
structure Machine (ε κ μ : Type) (ρ : κ ⊕ μ → Type) (σ χ : Type) where
  ask : σ → χ → (k : κ) → Except ε (ρ (.inl k))
  act : σ → χ → (k : μ) → Except ε (ρ (.inr k)) × σ

/-- A program of queries only. -/
abbrev Asking (ε κ μ : Type) (ρ : κ ⊕ μ → Type) : Type → Type :=
  ExceptT ε (Prog κ fun k => Except ε (ρ (.inl k)))

/-- A program of queries and changes with a state `τ` of its own, which an exception does not undo. -/
abbrev Method (ε τ κ μ : Type) (ρ : κ ⊕ μ → Type) : Type → Type :=
  ExceptT ε (StateT τ (Prog (κ ⊕ μ) fun k => Except ε (ρ k)))

section
variable {ε τ κ μ : Type} {ρ : κ ⊕ μ → Type} {α : Type}

def query (k : κ) : Asking ε κ μ ρ (ρ (.inl k)) := ExceptT.mk (.call k .done)

/-- Nothing instead of an exception that is caught. -/
def rescue (caught : ε → Bool) (p : Asking ε κ μ ρ α) : Asking ε κ μ ρ (Option α) :=
  ExceptT.mk (p.run.bind fun
    | .ok a => .done (.ok (some a))
    | .error e => .done (if caught e then .ok none else .error e))

/-- `last` runs whether or not `p` raises, and what it raises comes first. -/
def finish (p : Asking ε κ μ ρ α) (last : Asking ε κ μ ρ Unit) : Asking ε κ μ ρ α :=
  ExceptT.mk (p.run.bind fun r => last.run.bind fun
    | .ok _ => .done r
    | .error e => .done (.error e))

def change (k : μ) : Method ε τ κ μ ρ (ρ (.inr k)) :=
  ExceptT.mk fun t => .call (.inr k) fun r => .done (r, t)

/-- Queries as calls among others. -/
def Prog.widen : Prog κ (fun k => Except ε (ρ (.inl k))) α → Prog (κ ⊕ μ) (fun k => Except ε (ρ k)) α
  | .done a => .done a
  | .call k next => .call (.inl k) fun r => (next r).widen

def inquire (p : Asking ε κ μ ρ α) : Method ε τ κ μ ρ α :=
  ExceptT.mk fun t => p.run.widen.bind fun r => .done (r, t)

namespace Method

def finish (p : Method ε τ κ μ ρ α) (last : Asking ε κ μ ρ Unit) : Method ε τ κ μ ρ α :=
  ExceptT.mk fun t => (p.run t).bind fun (r, t) => last.run.widen.bind fun
    | .ok _ => .done (r, t)
    | .error e => .done (.error e, t)

/-- `mark` changes the own state when `p` raises. -/
def onRaise (mark : τ → τ) (p : Method ε τ κ μ ρ α) : Method ε τ κ μ ρ α :=
  ExceptT.mk fun t => (p.run t).bind fun
    | (.ok a, t) => .done (.ok a, t)
    | (.error e, t) => .done (.error e, mark t)

end Method

end

/-! ### Queries -/

section
variable {ε κ μ : Type} {ρ : κ ⊕ μ → Type} {σ χ α β : Type} {m : Machine ε κ μ ρ σ χ} {s : σ}

/-- The program can end with `b` in the state `s`. -/
def Machine.Yields (m : Machine ε κ μ ρ σ χ) (s : σ) :
    Prog κ (fun k => Except ε (ρ (.inl k))) α → α → Prop
  | .done a, b => b = a
  | .call k next, b => ∃ c, m.Yields s (next (m.ask s c k)) b

theorem Machine.yields_bind {p : Prog κ (fun k => Except ε (ρ (.inl k))) α}
    {f : α → Prog κ (fun k => Except ε (ρ (.inl k))) β} {b : β} :
    m.Yields s (p.bind f) b ↔ ∃ a, m.Yields s p a ∧ m.Yields s (f a) b := by
  induction p with
  | done a =>
    constructor
    · intro h
      exact ⟨a, rfl, h⟩
    · rintro ⟨_, rfl, h⟩
      exact h
  | call k next ih =>
    constructor
    · rintro ⟨c, h⟩
      obtain ⟨a, first, rest⟩ := (ih _).mp h
      exact ⟨a, ⟨c, first⟩, rest⟩
    · rintro ⟨a, ⟨c, first⟩, rest⟩
      exact ⟨c, (ih _).mpr ⟨a, first, rest⟩⟩

/-- An answer that the queries can lead to. -/
def Machine.Answers (m : Machine ε κ μ ρ σ χ) (s : σ) (p : Asking ε κ μ ρ α) (r : Except ε α) : Prop :=
  m.Yields s p.run r

namespace Machine.Answers

theorem pure {a b : α} (h : m.Answers s (pure a) (.ok b)) : b = a := Except.ok.inj h

theorem lift {x : Except ε α} {r : Except ε α} (h : m.Answers s (liftM x) r) : r = x := h

theorem query {k : κ} {r : Except ε (ρ (.inl k))} (h : m.Answers s (query k) r) :
    ∃ c, r = m.ask s c k := h

theorem bind {p : Asking ε κ μ ρ α} {f : α → Asking ε κ μ ρ β} {b : β}
    (h : m.Answers s (p >>= f) (.ok b)) :
    ∃ a, m.Answers s p (.ok a) ∧ m.Answers s (f a) (.ok b) := by
  obtain ⟨r, first, rest⟩ := Machine.yields_bind.mp h
  cases r with
  | ok a => exact ⟨a, first, rest⟩
  | error e => cases rest

theorem finish {p : Asking ε κ μ ρ α} {last : Asking ε κ μ ρ Unit} {a : α}
    (h : m.Answers s (finish p last) (.ok a)) : m.Answers s p (.ok a) := by
  obtain ⟨r, first, rest⟩ := Machine.yields_bind.mp h
  obtain ⟨q, -, rest⟩ := Machine.yields_bind.mp rest
  cases q with
  | ok _ => exact (show Except.ok a = r from rest) ▸ first
  | error e => cases rest

theorem rescue {caught : ε → Bool} {p : Asking ε κ μ ρ α} {found : Option α}
    (h : m.Answers s (rescue caught p) (.ok found)) :
    (∃ a, found = some a ∧ m.Answers s p (.ok a)) ∨
      ∃ e, caught e = true ∧ found = none ∧ m.Answers s p (.error e) := by
  obtain ⟨r, first, rest⟩ := Machine.yields_bind.mp h
  cases r with
  | ok a =>
    cases rest
    exact .inl ⟨a, rfl, first⟩
  | error e =>
    have rest : Except.ok found = if caught e then .ok none else .error e := rest
    split at rest
    · next caught =>
      cases rest
      exact .inr ⟨e, caught, rfl, first⟩
    · cases rest

end Machine.Answers

end

/-! ### Changes -/

section
variable {ε τ κ μ : Type} {ρ : κ ⊕ μ → Type} {σ χ α β : Type} {m : Machine ε κ μ ρ σ χ}
  {ok ok' : σ → μ → Prop}

/-- Every change that the program makes meets `ok` in the state where it is made, and the program ends
as `Q` says. -/
def Machine.Safe (m : Machine ε κ μ ρ σ χ) (ok : σ → μ → Prop) :
    Prog (κ ⊕ μ) (fun k => Except ε (ρ k)) α → (α → σ → Prop) → σ → Prop
  | .done a, Q, s => Q a s
  | .call (.inl k) next, Q, s => ∀ c, m.Safe ok (next (m.ask s c k)) Q s
  | .call (.inr k) next, Q, s =>
    ok s k ∧ ∀ c, m.Safe ok (next (m.act s c k).1) Q (m.act s c k).2

theorem Machine.Safe.mono {p : Prog (κ ⊕ μ) (fun k => Except ε (ρ k)) α} {Q Q' : α → σ → Prop} {s : σ}
    (h : m.Safe ok p Q s) (admits : ∀ s k, ok s k → ok' s k) (weaker : ∀ a s, Q a s → Q' a s) :
    m.Safe ok' p Q' s := by
  induction p generalizing s with
  | done a => exact weaker a s h
  | call k next ih =>
    cases k with
    | inl k =>
      intro c
      exact ih _ (h c)
    | inr k =>
      constructor
      · exact admits s k h.1
      · intro c
        exact ih _ (h.2 c)

theorem Machine.safe_bind {p : Prog (κ ⊕ μ) (fun k => Except ε (ρ k)) α}
    {f : α → Prog (κ ⊕ μ) (fun k => Except ε (ρ k)) β} {Q : β → σ → Prop} {s : σ} :
    m.Safe ok (p.bind f) Q s ↔ m.Safe ok p (fun a s => m.Safe ok (f a) Q s) s := by
  induction p generalizing s with
  | done a => rfl
  | call k next ih =>
    cases k with
    | inl k => exact forall_congr' fun c => ih _
    | inr k => exact and_congr_right fun _ => forall_congr' fun c => ih _

theorem Machine.safe_widen {p : Prog κ (fun k => Except ε (ρ (.inl k))) α} {Q : α → σ → Prop} {s : σ} :
    m.Safe ok p.widen Q s ↔ ∀ a, m.Yields s p a → Q a s := by
  induction p with
  | done a =>
    constructor
    · rintro h _ rfl
      exact h
    · intro h
      exact h a rfl
  | call k next ih =>
    constructor
    · rintro h a ⟨c, run⟩
      exact (ih _).mp (h c) a run
    · intro h c
      exact (ih _).mpr fun a run => h a ⟨c, run⟩

/-- The method, from its own state `t`, returns as `Q` says or raises as `E` says. -/
def Machine.Holds (m : Machine ε κ μ ρ σ χ) (ok : σ → μ → Prop) (p : Method ε τ κ μ ρ α)
    (Q : α → τ → σ → Prop) (E : τ → σ → Prop) (t : τ) (s : σ) : Prop :=
  m.Safe ok (p.run t) (fun r s => match r with
    | (.ok a, t) => Q a t s
    | (.error _, t) => E t s) s

namespace Machine.Holds

variable {p : Method ε τ κ μ ρ α} {Q Q' : α → τ → σ → Prop} {E : τ → σ → Prop} {t : τ} {s : σ}

theorem mono (h : m.Holds ok p Q E t s) (weaker : ∀ a t s, Q a t s → Q' a t s) : m.Holds ok p Q' E t s := by
  refine Machine.Safe.mono h (fun _ _ admitted => admitted) fun r s end_ => ?_
  obtain ⟨r, t⟩ := r
  cases r with
  | ok a => exact weaker a t s end_
  | error e => exact end_

theorem bind {f : α → Method ε τ κ μ ρ β} {Q : β → τ → σ → Prop}
    (h : m.Holds ok p (fun a t s => m.Holds ok (f a) Q E t s) E t s) : m.Holds ok (p >>= f) Q E t s := by
  apply Machine.safe_bind.mpr
  refine Machine.Safe.mono h (fun _ _ admitted => admitted) fun r s rest => ?_
  obtain ⟨r, t⟩ := r
  cases r with
  | ok a => exact rest
  | error e => exact rest

theorem pure {a : α} (h : Q a t s) : m.Holds ok (pure a) Q E t s := h

theorem get {Q : τ → τ → σ → Prop} (h : Q t t s) : m.Holds ok get Q E t s := h

theorem modify {f : τ → τ} {Q : PUnit → τ → σ → Prop} (h : Q ⟨⟩ (f t) s) :
    m.Holds ok (modify f) Q E t s := h

theorem lift {x : Except ε α} (h : ∀ a, x = .ok a → Q a t s) (failed : E t s) :
    m.Holds ok (liftM x) Q E t s := by
  cases x with
  | ok a => exact h a rfl
  | error e => exact failed

theorem inquire {p : Asking ε κ μ ρ α} (h : ∀ a, m.Answers s p (.ok a) → Q a t s) (failed : E t s) :
    m.Holds ok (inquire p) Q E t s := by
  apply Machine.safe_bind.mpr
  apply Machine.safe_widen.mpr
  intro r run
  cases r with
  | ok a => exact h a run
  | error e => exact failed

theorem change {k : μ} {Q : ρ (.inr k) → τ → σ → Prop} (admitted : ok s k)
    (h : ∀ c a, (m.act s c k).1 = .ok a → Q a t (m.act s c k).2)
    (failed : ∀ c e, (m.act s c k).1 = .error e → E t (m.act s c k).2) :
    m.Holds ok (change k) Q E t s := by
  constructor
  · exact admitted
  · intro c
    show m.Safe ok (.done ((m.act s c k).1, t)) _ _
    cases answer : (m.act s c k).1 with
    | ok a => exact h c a answer
    | error e => exact failed c e answer

theorem finish {last : Asking ε κ μ ρ Unit}
    (h : m.Holds ok p (fun a t s => Q a t s ∧ E t s) E t s) : m.Holds ok (p.finish last) Q E t s := by
  apply Machine.safe_bind.mpr
  refine Machine.Safe.mono h (fun _ _ admitted => admitted) fun r s end_ => ?_
  obtain ⟨r, t⟩ := r
  apply Machine.safe_bind.mpr
  apply Machine.safe_widen.mpr
  intro q _
  cases r with
  | ok a =>
    cases q with
    | ok _ => exact end_.1
    | error _ => exact end_.2
  | error e =>
    cases q with
    | ok _ => exact end_
    | error _ => exact end_

theorem onRaise {mark : τ → τ} (h : m.Holds ok p Q (fun t s => E (mark t) s) t s) :
    m.Holds ok (p.onRaise mark) Q E t s := by
  apply Machine.safe_bind.mpr
  refine Machine.Safe.mono h (fun _ _ admitted => admitted) fun r s end_ => ?_
  obtain ⟨r, t⟩ := r
  cases r with
  | ok a => exact end_
  | error e => exact end_

end Machine.Holds

end

end FreeSdn.Lib
