import Mathlib.Algebra.Order.Group.Int
import Mathlib.Tactic.SplitIfs

/-! Time zones as `zoneinfo` reads them: an offset before the first transition and one from each
transition on.  Instants and wall times are microseconds, counted from the midnight before day zero
in UTC and on the wall. -/

namespace FreeSdn.Lib

def dayLength : Int := 86400000000

def hours (n : Int) : Int := n * 3600000000

/-- The transitions behind an offset: every offset is less than a day, clocks are set by at most
twelve hours, and three days lie between two transitions. -/
def Steps : Int → List (Int × Int) → Prop
  | _, [] => True
  | before, (instant, offset) :: rest =>
    (-dayLength < offset ∧ offset < dayLength) ∧
      (offset - before ≤ hours 12 ∧ before - offset ≤ hours 12) ∧
      (∀ next ∈ rest.head?, instant + 3 * dayLength ≤ next.1) ∧ Steps offset rest

structure Zone where
  initial : Int
  transitions : List (Int × Int)
  bounded : -dayLength < initial ∧ initial < dayLength
  steps : Steps initial transitions

/-- The offset in force at an instant. -/
def offsetFrom (before : Int) : List (Int × Int) → Int → Int
  | [], _ => before
  | (instant, offset) :: rest, x => if instant ≤ x then offsetFrom offset rest x else before

/-- The offset of a wall time with `fold=0`: a transition counts from where the later of its two wall
times is reached. -/
def wallOffsetFrom (before : Int) : List (Int × Int) → Int → Int
  | [], _ => before
  | (instant, offset) :: rest, w =>
    if instant + max before offset ≤ w then wallOffsetFrom offset rest w else before

namespace Zone

def offsetAt (z : Zone) (x : Int) : Int := offsetFrom z.initial z.transitions x

def wallOffset (z : Zone) (w : Int) : Int := wallOffsetFrom z.initial z.transitions w

/-- `x.astimezone(zone).date()`. -/
def localDay (z : Zone) (x : Int) : Int := (x + z.offsetAt x) / dayLength

/-- `datetime.combine(day, clock, zone).replace(fold=0).astimezone(UTC)`. -/
def utc (z : Zone) (day clock : Int) : Int :=
  day * dayLength + clock - z.wallOffset (day * dayLength + clock)

end Zone

variable {before : Int} {transitions : List (Int × Int)} {z : Zone}

/-! ### Bounds -/

theorem offsetFrom_bounds (h : -dayLength < before ∧ before < dayLength)
    (steps : Steps before transitions) (x : Int) :
    -dayLength < offsetFrom before transitions x ∧ offsetFrom before transitions x < dayLength := by
  induction transitions generalizing before with
  | nil => exact h
  | cons t rest ih =>
    obtain ⟨instant, offset⟩ := t
    rw [offsetFrom]
    split_ifs
    · exact ih steps.1 steps.2.2.2
    · exact h

theorem wallOffsetFrom_bounds (h : -dayLength < before ∧ before < dayLength)
    (steps : Steps before transitions) (w : Int) :
    -dayLength < wallOffsetFrom before transitions w ∧
      wallOffsetFrom before transitions w < dayLength := by
  induction transitions generalizing before with
  | nil => exact h
  | cons t rest ih =>
    obtain ⟨instant, offset⟩ := t
    rw [wallOffsetFrom]
    split_ifs
    · exact ih steps.1 steps.2.2.2
    · exact h

/-- The local day is within a day of the day in UTC. -/
theorem Zone.localDay_bounds (z : Zone) (x : Int) :
    z.localDay x * dayLength < x + dayLength ∧ x < (z.localDay x + 2) * dayLength := by
  have := offsetFrom_bounds z.bounded z.steps x
  unfold Zone.localDay Zone.offsetAt
  unfold dayLength at *
  omega

theorem Zone.utc_bounds (z : Zone) (day clock : Int) :
    day * dayLength + clock - dayLength < z.utc day clock ∧
      z.utc day clock < day * dayLength + clock + dayLength := by
  have := wallOffsetFrom_bounds z.bounded z.steps (day * dayLength + clock)
  unfold Zone.utc Zone.wallOffset
  omega

/-! ### Later wall times -/

/-- A wall time a day later is a later instant: within three days there is one transition at most. -/
theorem wallOffsetFrom_lt (h : -dayLength < before ∧ before < dayLength)
    (steps : Steps before transitions) {v w : Int} (later : v + dayLength ≤ w) :
    v - wallOffsetFrom before transitions v < w - wallOffsetFrom before transitions w := by
  induction transitions generalizing before with
  | nil =>
    have : 0 < dayLength := by decide
    simp only [wallOffsetFrom]
    omega
  | cons t rest ih =>
    obtain ⟨instant, offset⟩ := t
    obtain ⟨small, near, spaced, rest_⟩ := steps
    rw [wallOffsetFrom, wallOffsetFrom]
    by_cases reached : instant + max before offset ≤ v
    · rw [if_pos reached, if_pos (by unfold dayLength at later; omega)]
      exact ih small rest_
    · rw [if_neg reached]
      by_cases passed : instant + max before offset ≤ w
      · rw [if_pos passed]
        cases rest with
        | nil =>
          simp only [wallOffsetFrom]
          unfold hours at near
          unfold dayLength at *
          omega
        | cons next rest =>
          have bounds := wallOffsetFrom_bounds small rest_ w
          obtain ⟨second, third⟩ := next
          have apart := spaced (second, third) (by simp)
          rw [wallOffsetFrom] at bounds ⊢
          unfold hours at near
          unfold dayLength at *
          split_ifs at bounds ⊢ <;> omega
      · rw [if_neg passed]
        unfold dayLength at *
        omega

theorem Zone.utc_lt (z : Zone) {d e : Int} (h : d < e) (clock : Int) :
    z.utc d clock < z.utc e clock := by
  apply wallOffsetFrom_lt z.bounded z.steps
  unfold dayLength
  omega

/-! ### After the last transition -/

theorem offsets_settle (before : Int) (transitions : List (Int × Int)) :
    ∃ last final, ∀ x, last ≤ x → offsetFrom before transitions x = final ∧
      wallOffsetFrom before transitions x = final := by
  induction transitions generalizing before with
  | nil => exact ⟨0, before, fun _ _ => ⟨rfl, rfl⟩⟩
  | cons t rest ih =>
    obtain ⟨instant, offset⟩ := t
    obtain ⟨last, final, settled⟩ := ih offset
    refine ⟨max last (max instant (instant + max before offset)), final, fun x h => ?_⟩
    rw [offsetFrom, wallOffsetFrom, if_pos (by omega), if_pos (by omega)]
    exact settled x (by omega)

/-- From some day on, wall times and instants correspond. -/
theorem Zone.settles (z : Zone) : ∃ first : Int, ∀ day clock, first ≤ day → 0 ≤ clock →
    clock < dayLength → z.localDay (z.utc day clock) = day ∧
      ∀ x, z.utc day clock ≤ x → day ≤ z.localDay x := by
  obtain ⟨last, final, settled⟩ := offsets_settle z.initial z.transitions
  refine ⟨last.natAbs + 2, fun day clock late low high => ?_⟩
  have bounds := z.utc_bounds day clock
  have wall := (settled (day * dayLength + clock) (by unfold dayLength at *; omega)).2
  have equal : z.utc day clock = day * dayLength + clock - final := by
    rw [← wall]
    rfl
  have later : ∀ x, z.utc day clock ≤ x → z.offsetAt x = final := by
    intro x after
    refine (settled x ?_).1
    unfold dayLength at *
    omega
  constructor
  · unfold Zone.localDay
    rw [later _ (le_refl _), equal]
    unfold dayLength at *
    omega
  · intro x after
    unfold Zone.localDay
    rw [later x after]
    unfold dayLength at *
    omega

end FreeSdn.Lib
