import Mathlib.Data.List.TakeWhile
import Mathlib.Data.Nat.Log
import Mathlib.Tactic.Linarith

/-! Decimal numbers as the `decimal` module has them: a coefficient and a number of places, read
exactly from a text, and products that are rounded, half to even, to a number of digits. -/

namespace FreeSdn.Lib

/-- The number `coefficient / 10 ^ scale`. -/
structure Decimal where
  coefficient : Nat
  scale : Nat
  deriving DecidableEq, Repr

/-- The value of a text of digits. -/
def digitsValue (cs : List Char) : Nat := Nat.ofDigitChars 10 cs 0

/-- `[0-9]+(?:\.[0-9]+)?`. -/
def Decimal.read (cs : List Char) : Option Decimal :=
  let whole := cs.takeWhile Char.isDigit
  match cs.dropWhile Char.isDigit with
  | [] => if whole.isEmpty then none else some ⟨digitsValue whole, 0⟩
  | point :: fraction =>
    if point = '.' && !whole.isEmpty && !fraction.isEmpty && fraction.all Char.isDigit then
      some ⟨digitsValue (whole ++ fraction), fraction.length⟩
    else none

/-- `n / k`, rounded half to even. -/
def roundHalfEven (n k : Nat) : Nat :=
  if k < 2 * (n % k) || (2 * (n % k) = k && n / k % 2 = 1) then n / k + 1 else n / k

/-- The digits of `n` beyond the precision. -/
def excess (precision n : Nat) : Nat := Nat.log 10 n + 1 - precision

/-- `n` with as many digits as the precision allows. -/
def toPrecision (precision n : Nat) : Nat :=
  roundHalfEven n (10 ^ excess precision n) * 10 ^ excess precision n

theorem Decimal.read_digits {cs : List Char} (digits : ∀ c ∈ cs, c.isDigit = true) (h : cs ≠ []) :
    Decimal.read cs = some ⟨digitsValue cs, 0⟩ := by
  have whole : cs.takeWhile Char.isDigit = cs := List.takeWhile_eq_self_iff.mpr digits
  have rest : cs.dropWhile Char.isDigit = [] := List.dropWhile_eq_nil_iff.mpr digits
  unfold Decimal.read
  simp only [whole, rest]
  rw [if_neg (by simpa using h)]

/-- A number without a point is whole. -/
theorem Decimal.read_scale {cs : List Char} {x : Decimal} (h : Decimal.read cs = some x)
    (pointless : '.' ∉ cs) : x.scale = 0 := by
  unfold Decimal.read at h
  simp only at h
  split at h
  · split at h
    · cases h
    · obtain rfl := Option.some.inj h
      rfl
  · rename_i point fraction rest
    split at h
    · rename_i shape
      simp only [Bool.and_eq_true, decide_eq_true_eq] at shape
      have mem : point ∈ cs.dropWhile Char.isDigit := by
        rw [rest]
        exact List.mem_cons_self
      rw [shape.1.1.1] at mem
      exact absurd ((List.dropWhile_sublist _).subset mem) pointless
    · cases h

variable {precision n m k d : Nat}

theorem roundHalfEven_exact (positive : 0 < k) (h : k ∣ n) : roundHalfEven n k = n / k := by
  rw [roundHalfEven, Nat.mod_eq_zero_of_dvd h, if_neg]
  simp
  omega

/-- A rounded quotient is off by half a unit at most. -/
theorem roundHalfEven_near (positive : 0 < k) :
    2 * (roundHalfEven n k * k) ≤ 2 * n + k ∧ 2 * n ≤ 2 * (roundHalfEven n k * k) + k := by
  have whole := Nat.div_add_mod n k
  have rest := Nat.mod_lt n positive
  have swap : n / k * k = k * (n / k) := Nat.mul_comm _ _
  unfold roundHalfEven
  split
  · rename_i up
    simp only [Bool.or_eq_true, Bool.and_eq_true, decide_eq_true_eq] at up
    rw [Nat.add_mul, Nat.one_mul]
    omega
  · rename_i down
    simp only [Bool.or_eq_true, Bool.and_eq_true, decide_eq_true_eq, not_or] at down
    omega

theorem toPrecision_near (precision n : Nat) :
    2 * toPrecision precision n ≤ 2 * n + 10 ^ excess precision n ∧
      2 * n ≤ 2 * toPrecision precision n + 10 ^ excess precision n :=
  roundHalfEven_near (Nat.pow_pos (by decide))

/-- A number with so few digits is not rounded. -/
theorem toPrecision_exact (h : 10 ^ excess precision n ∣ n) : toPrecision precision n = n := by
  rw [toPrecision, roundHalfEven_exact (Nat.pow_pos (by decide)) h, Nat.div_mul_cancel h]

theorem log_lt_of_lt_pow (positive : n ≠ 0) (h : n < 10 ^ k) : Nat.log 10 n < k :=
  (Nat.log_lt_iff_lt_pow (by decide) positive).mpr h

theorem toPrecision_small (h : n < 10 ^ precision) : toPrecision precision n = n := by
  apply toPrecision_exact
  by_cases zero : n = 0
  · rw [zero]
    exact Nat.dvd_zero _
  · have short := log_lt_of_lt_pow zero h
    have none : excess precision n = 0 := by
      unfold excess
      omega
    rw [none, Nat.pow_zero]
    exact Nat.one_dvd n

/-- Zeros at the end are not rounded away. -/
theorem toPrecision_shift (h : n < 10 ^ precision) (d : Nat) :
    toPrecision precision (n * 10 ^ d) = n * 10 ^ d := by
  apply toPrecision_exact
  by_cases zero : n = 0
  · rw [zero, Nat.zero_mul]
    exact Nat.dvd_zero _
  · have bound : n * 10 ^ d < 10 ^ (precision + d) := by
      rw [Nat.pow_add]
      exact Nat.mul_lt_mul_of_pos_right h (Nat.pow_pos (by decide))
    have positive : n * 10 ^ d ≠ 0 :=
      Nat.mul_ne_zero zero (Nat.ne_of_gt (Nat.pow_pos (by decide)))
    have short := log_lt_of_lt_pow positive bound
    have few : excess precision (n * 10 ^ d) ≤ d := by
      unfold excess
      omega
    exact Nat.dvd_trans (Nat.pow_dvd_pow 10 few) (Nat.dvd_mul_left _ _)

/-- The unit of the last digit is small beside a number that is rounded. -/
theorem excess_small (positive : 0 < precision) (h : 10 ^ precision ≤ n) :
    10 ^ (precision - 1) * 10 ^ excess precision n ≤ n := by
  have zero : n ≠ 0 := Nat.ne_of_gt (Nat.lt_of_lt_of_le (Nat.pow_pos (by decide)) h)
  have long : precision ≤ Nat.log 10 n := (Nat.le_log_iff_pow_le (by decide) zero).mpr h
  rw [← Nat.pow_add]
  unfold excess
  rw [show precision - 1 + (Nat.log 10 n + 1 - precision) = Nat.log 10 n by omega]
  exact Nat.pow_log_le_self 10 zero

end FreeSdn.Lib
