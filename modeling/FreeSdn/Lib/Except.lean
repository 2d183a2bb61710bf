import Mathlib.Data.List.Forall2

/-! Checks in sequence: what a passed sequence says about each of them. -/

namespace FreeSdn.Lib

theorem bind_ok {ε α β : Type} {x : Except ε α} {f : α → Except ε β} {b : β}
    (h : (x >>= f) = .ok b) : ∃ a, x = .ok a ∧ f a = .ok b := by
  cases x with
  | error e => simp [bind, Except.bind] at h
  | ok a => exact ⟨a, rfl, h⟩

theorem ok_bind {ε α β : Type} {x : Except ε α} {f : α → Except ε β} {a : α} (h : x = .ok a) :
    (x >>= f) = f a := by
  rw [h]
  rfl

theorem map_ok {ε α β : Type} {x : Except ε α} {f : α → β} {b : β} (h : x.map f = .ok b) :
    ∃ a, x = .ok a ∧ f a = b := by
  cases x with
  | error e => cases h
  | ok a => exact ⟨a, rfl, Except.ok.inj h⟩

theorem map_error {ε α β : Type} {x : Except ε α} {f : α → β} {e : ε} (h : x.map f = .error e) :
    x = .error e := by
  cases x with
  | error e' => exact congrArg _ (Except.error.inj h)
  | ok a => cases h

/-- Raises unless the condition holds. -/
def require {ε : Type} (condition : Bool) (e : ε) : Except ε Unit :=
  if condition then .ok () else .error e

theorem require_ok {ε : Type} {condition : Bool} {e : ε} {u : Unit}
    (h : require condition e = .ok u) : condition = true := by
  cases condition with
  | true => rfl
  | false => cases h

/-- A condition that was checked, without its form. -/
theorem ite_ok {ε : Type} {p : Prop} [Decidable p] {e : ε} {u : Unit}
    (h : (if p then .ok () else .error e : Except ε Unit) = .ok u) : p := by
  refine Decidable.byContradiction fun fails => ?_
  rw [if_neg fails] at h
  cases h

/-- A loop of checks that returns passed every one of them. -/
theorem forM_ok {ε α : Type} {f : α → Except ε PUnit} {xs : List α} {u : PUnit}
    (h : xs.forM f = .ok u) : ∀ x ∈ xs, f x = .ok () := by
  induction xs with
  | nil => simp
  | cons a xs ih =>
    have both : (f a >>= fun _ => xs.forM f) = .ok u := h
    obtain ⟨_, first, rest⟩ := bind_ok both
    intro x mem
    rcases List.mem_cons.mp mem with rfl | later
    · exact first
    · exact ih rest x later

theorem forM_ok_iff {ε α : Type} {f : α → Except ε PUnit} {xs : List α} :
    xs.forM f = .ok () ↔ ∀ x ∈ xs, f x = .ok () := by
  refine ⟨forM_ok, fun all => ?_⟩
  induction xs with
  | nil => rfl
  | cons x xs ih =>
    show (f x >>= fun _ => xs.forM f) = .ok ()
    rw [ok_bind (all x List.mem_cons_self)]
    exact ih fun y mem => all y (List.mem_cons_of_mem x mem)

theorem mapM_cons_eq {ε α β : Type} {f : α → Except ε β} {x : α} {xs : List α} {y : β} {ys : List β}
    (first : f x = .ok y) (rest : xs.mapM f = .ok ys) : (x :: xs).mapM f = .ok (y :: ys) := by
  rw [List.mapM_cons, first, ok_bind rfl, rest]
  rfl

/-- A loop that returns a result of each item. -/
theorem mapM_ok {ε α β : Type} {f : α → Except ε β} {xs : List α} {ys : List β}
    (h : xs.mapM f = .ok ys) : List.Forall₂ (fun x y => f x = .ok y) xs ys := by
  induction xs generalizing ys with
  | nil =>
    obtain rfl := Except.ok.inj h
    exact .nil
  | cons x xs ih =>
    rw [List.mapM_cons] at h
    obtain ⟨y, first, h⟩ := bind_ok h
    obtain ⟨ys', rest, h⟩ := bind_ok h
    obtain rfl := Except.ok.inj h
    exact .cons first (ih rest)

theorem mapM_eq {ε α β : Type} {f : α → Except ε β} {xs : List α} {ys : List β}
    (h : List.Forall₂ (fun x y => f x = .ok y) xs ys) : xs.mapM f = .ok ys := by
  induction h with
  | nil => rfl
  | cons first _ ih => exact mapM_cons_eq first ih

/-- Raises when there is nothing. -/
def orRaise {ε α : Type} (x : Option α) (e : ε) : Except ε α :=
  match x with
  | some a => .ok a
  | none => .error e

theorem orRaise_ok {ε α : Type} {x : Option α} {e : ε} {a : α} (h : orRaise x e = .ok a) :
    x = some a := by
  cases x with
  | none => cases h
  | some b =>
    cases h
    rfl

/-- Something that was found, in front of a computation. -/
theorem orRaise_bind {ε α β : Type} {x : Except ε (Option α)} {e : ε} {f : α → Except ε β} {b : β}
    (h : (x >>= fun found => orRaise found e >>= f) = .ok b) : ∃ a, x = .ok (some a) ∧ f a = .ok b := by
  obtain ⟨found, run, rest⟩ := bind_ok h
  obtain ⟨a, present, last⟩ := bind_ok rest
  rw [orRaise_ok present] at run
  exact ⟨a, run, last⟩

/-- A passed condition in front of a computation. -/
theorem require_bind {ε β : Type} {condition : Bool} {e : ε} {f : Unit → Except ε β} {b : β}
    (h : (require condition e >>= f) = .ok b) : condition = true ∧ f () = .ok b := by
  obtain ⟨u, passed, rest⟩ := bind_ok h
  exact ⟨require_ok passed, rest⟩

theorem bind_eq_ok {ε α β : Type} {x : Except ε α} {f : α → Except ε β} {b : β} :
    (x >>= f) = .ok b ↔ ∃ a, x = .ok a ∧ f a = .ok b :=
  ⟨bind_ok, fun ⟨_, first, rest⟩ => (ok_bind first).trans rest⟩

theorem foldlM_cons_ok {ε α β : Type} {f : β → α → Except ε β} {x : α} {xs : List α} {b b' : β} :
    (x :: xs).foldlM f b = .ok b' ↔ ∃ next, f b x = .ok next ∧ xs.foldlM f next = .ok b' := by
  rw [List.foldlM_cons]
  exact bind_eq_ok

theorem foldlM_append_ok {ε α β : Type} {f : β → α → Except ε β} {xs ys : List α} {b b' : β} :
    (xs ++ ys).foldlM f b = .ok b' ↔ ∃ next, xs.foldlM f b = .ok next ∧ ys.foldlM f next = .ok b' := by
  rw [List.foldlM_append]
  exact bind_eq_ok

/-- What raises in a condition with a computation behind it. -/
theorem require_error {ε β : Type} {condition : Bool} {e e' : ε} {f : Unit → Except ε β}
    (h : (require condition e >>= f) = .error e') :
    condition = false ∧ e' = e ∨ condition = true ∧ f () = .error e' := by
  cases condition with
  | false => exact Or.inl ⟨rfl, (Except.error.inj h).symm⟩
  | true => exact Or.inr ⟨rfl, h⟩

theorem bind_error {ε α β : Type} {x : Except ε α} {f : α → Except ε β} {e : ε}
    (h : (x >>= f) = .error e) : x = .error e ∨ ∃ a, x = .ok a ∧ f a = .error e := by
  cases x with
  | error e' => exact Or.inl (congrArg _ (Except.error.inj h))
  | ok a => exact Or.inr ⟨a, rfl, h⟩

/-- What every step keeps holds after a loop that returns. -/
theorem foldlM_ok {ε α β : Type} {f : β → α → Except ε β} {P : β → Prop} {xs : List α} {b b' : β}
    (step : ∀ b a b', P b → f b a = .ok b' → P b') (first : P b) (h : xs.foldlM f b = .ok b') :
    P b' := by
  induction xs generalizing b with
  | nil =>
    obtain rfl := Except.ok.inj h
    exact first
  | cons a xs ih =>
    rw [List.foldlM_cons] at h
    obtain ⟨next, one, rest⟩ := bind_ok h
    exact ih (step b a next first one) rest

/-- A loop whose steps pass or fail by their item alone: it passes when all of them do. -/
theorem foldlM_passes {ε α β : Type} {f : β → α → Except ε β} {g : β → α → β} {xs : List α}
    (passes : ∀ x ∈ xs, ∀ b, f b x = .ok (g b x)) (b : β) : xs.foldlM f b = .ok (xs.foldl g b) := by
  induction xs generalizing b with
  | nil => rfl
  | cons x xs ih =>
    rw [List.foldlM_cons, passes x List.mem_cons_self b, List.foldl_cons]
    exact ih (fun y mem => passes y (List.mem_cons_of_mem x mem)) (g b x)

/-- It fails with an error of the first item that does not. -/
theorem foldlM_fails {ε α β : Type} {f : β → α → Except ε β} {xs : List α} {P : ε → Prop}
    (each : ∀ x ∈ xs, (∀ b, ∃ b', f b x = .ok b') ∨ ∀ b, ∃ e, P e ∧ f b x = .error e)
    (one : ∃ x ∈ xs, ∀ b, ∃ e, P e ∧ f b x = .error e) (b : β) :
    ∃ e, P e ∧ xs.foldlM f b = .error e := by
  induction xs generalizing b with
  | nil => simp at one
  | cons x xs ih =>
    rw [List.foldlM_cons]
    rcases each x List.mem_cons_self with passes | fails
    · obtain ⟨next, first⟩ := passes b
      obtain ⟨y, mem, bad⟩ := one
      have later : y ∈ xs := by
        rcases List.mem_cons.mp mem with rfl | later
        · obtain ⟨e, -, raised⟩ := bad b
          rw [first] at raised
          cases raised
        · exact later
      rw [first]
      exact ih (fun z inside => each z (List.mem_cons_of_mem x inside)) ⟨y, later, bad⟩ next
    · obtain ⟨e, right, raised⟩ := fails b
      exact ⟨e, right, by rw [raised]; rfl⟩

/-! ### Errors that a computation never raises -/

/-- The computation raises none of the errors. -/
def Avoids {ε α : Type} (errors : List ε) (x : Except ε α) : Prop := ∀ e ∈ errors, x ≠ .error e

section

variable {ε α β : Type} {errors : List ε} {e : ε} {x : Except ε α}

theorem avoids_ok {a : α} : Avoids errors (.ok a : Except ε α) := fun _ _ same => by cases same

theorem avoids_error (other : e ∉ errors) : Avoids errors (.error e : Except ε α) := by
  rintro e' mem same
  exact other (Except.error.inj same ▸ mem)

theorem avoids_require {condition : Bool} (other : e ∉ errors) : Avoids errors (require condition e) := by
  unfold require
  split
  · exact avoids_ok
  · exact avoids_error other

theorem avoids_orRaise {found : Option α} (other : e ∉ errors) : Avoids errors (orRaise found e) := by
  cases found with
  | none => exact avoids_error other
  | some a => exact avoids_ok

theorem Avoids.bind {f : α → Except ε β} (first : Avoids errors x) (next : ∀ a, Avoids errors (f a)) :
    Avoids errors (x >>= f) := by
  intro e mem raised
  rcases bind_error raised with early | ⟨a, -, late⟩
  · exact first e mem early
  · exact next a e mem late

theorem Avoids.map {f : α → β} (first : Avoids errors x) : Avoids errors (x.map f) :=
  fun e mem raised => first e mem (map_error raised)

theorem avoids_foldlM {f : β → α → Except ε β} (each : ∀ b a, Avoids errors (f b a)) (xs : List α)
    (b : β) : Avoids errors (xs.foldlM f b) := by
  induction xs generalizing b with
  | nil => exact avoids_ok
  | cons a xs ih =>
    rw [List.foldlM_cons]
    exact (each b a).bind fun next => ih next

theorem avoids_mapM {f : α → Except ε β} (each : ∀ a, Avoids errors (f a)) (xs : List α) :
    Avoids errors (xs.mapM f) := by
  induction xs with
  | nil => exact avoids_ok
  | cons a xs ih =>
    rw [List.mapM_cons]
    exact (each a).bind fun _ => ih.bind fun _ => avoids_ok

theorem avoids_forM {f : α → Except ε PUnit} (each : ∀ a, Avoids errors (f a)) (xs : List α) :
    Avoids errors (xs.forM f) := by
  induction xs with
  | nil => exact avoids_ok
  | cons a xs ih => exact (each a).bind fun _ => ih

end

end FreeSdn.Lib
