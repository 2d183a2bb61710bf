import FreeSdn.Lib.Except

/-! Two computations side by side: both raise, or both return with related results, unless the second
is stopped by an error that the first does not know. -/

namespace FreeSdn.Lib

variable {ε α β γ δ ι : Type} {stop : ε → Prop} {R : α → β → Prop} {S : γ → δ → Prop}

def Lockstep (stop : ε → Prop) (R : α → β → Prop) : Except ε α → Except ε β → Prop
  | .ok a, .ok b => R a b
  | .error _, .error _ => True
  | .ok _, .error e => stop e
  | .error _, .ok _ => False

/-- An error that stops the second computation wherever the first one is. -/
theorem Lockstep.stopped {x : Except ε α} {y : Except ε β} {e : ε} (raised : y = .error e)
    (stops : stop e) : Lockstep stop R x y := by
  subst raised
  cases x with
  | ok a => exact stops
  | error e' => trivial

theorem Lockstep.bind {x : Except ε α} {y : Except ε β} {f : α → Except ε γ} {g : β → Except ε δ}
    (h : Lockstep stop R x y)
    (next : ∀ a b, x = .ok a → y = .ok b → R a b → Lockstep stop S (f a) (g b)) :
    Lockstep stop S (x >>= f) (y >>= g) := by
  cases x with
  | ok a =>
    cases y with
    | ok b => exact next a b rfl rfl h
    | error e => exact .stopped rfl h
  | error e =>
    cases y with
    | ok b => exact h.elim
    | error e' => trivial

/-- A last check of the second computation, which stops it when it fails. -/
theorem Lockstep.checked {x : Except ε α} {f : Unit → Except ε β} {condition : Bool} {e : ε}
    (stops : stop e) (passed : condition = true → Lockstep stop R x (f ())) :
    Lockstep stop R x (require condition e >>= f) := by
  cases condition with
  | true => exact passed rfl
  | false => exact .stopped rfl stops

/-- The same computation on both sides. -/
theorem Lockstep.of_eq {x y : Except ε α} (same : x = y) : Lockstep stop (fun a b => a = b) x y := by
  subst same
  cases x with
  | ok a => exact rfl
  | error e => trivial

theorem Lockstep.mono {x : Except ε α} {y : Except ε β} {T : α → β → Prop} (h : Lockstep stop R x y)
    (weaker : ∀ a b, R a b → T a b) : Lockstep stop T x y := by
  cases x with
  | ok a =>
    cases y with
    | ok b => exact weaker a b h
    | error e => exact h
  | error e =>
    cases y with
    | ok b => exact h.elim
    | error e' => trivial

theorem Lockstep.error_iff {x : Except ε α} {y : Except ε β} (h : Lockstep stop R x y)
    (unstopped : ∀ e, y = .error e → ¬ stop e) : (∃ e, x = .error e) ↔ ∃ e, y = .error e := by
  cases x with
  | ok a =>
    cases y with
    | ok b => simp
    | error e => exact absurd h (unstopped e rfl)
  | error e =>
    cases y with
    | ok b => exact h.elim
    | error e' => simp

/-- Two loops over the same list, related by what they have gone through. -/
theorem foldlM_lockstep {f : α → ι → Except ε α} {g : β → ι → Except ε β}
    {R : List ι → α → β → Prop} {xs : List ι} {a : α} {b : β}
    (step : ∀ pre x post a b, xs = pre ++ x :: post → R pre a b →
      Lockstep stop (R (pre ++ [x])) (f a x) (g b x))
    (first : R [] a b) : Lockstep stop (R xs) (xs.foldlM f a) (xs.foldlM g b) := by
  suffices run : ∀ pre post a b, xs = pre ++ post → R pre a b →
      Lockstep stop (R xs) (post.foldlM f a) (post.foldlM g b) from run [] xs a b rfl first
  intro pre post
  induction post generalizing pre with
  | nil =>
    intro a b whole related
    rw [List.append_nil] at whole
    subst whole
    exact related
  | cons x post ih =>
    intro a b whole related
    rw [List.foldlM_cons, List.foldlM_cons]
    refine (step pre x post a b whole related).bind fun a' b' _ _ related' => ?_
    exact ih (pre ++ [x]) a' b' (by rw [whole, List.append_assoc, List.singleton_append]) related'

end FreeSdn.Lib
