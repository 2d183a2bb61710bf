import Mathlib.Tactic.IntervalCases

/-! Dates of the proleptic Gregorian calendar as day numbers, and months as numbers that run through
the years: month `12 * y + k` is the month `k + 1` of the year `y`. -/

namespace FreeSdn.Lib.Gregorian

def isLeap (y : Int) : Bool := y % 4 == 0 && (y % 100 != 0 || y % 400 == 0)

/-- The day number of the first day of a year, as `date.toordinal` counts: the first day of the year
one is one. -/
def yearStart (y : Int) : Int := 365 * (y - 1) + (y - 1) / 4 - (y - 1) / 100 + (y - 1) / 400 + 1

/-- The days of a common year before its months. -/
def daysBefore : List Int := [0, 31, 59, 90, 120, 151, 181, 212, 243, 273, 304, 334]

/-- The first day of a month. -/
def monthStart (m : Int) : Int :=
  yearStart (m / 12) + (daysBefore[(m % 12).toNat]?).getD 0 +
    if 2 ≤ m % 12 && isLeap (m / 12) then 1 else 0

/-- The month of a day: about 4800 months have 146097 days, and the estimate is off by one at most. -/
def monthOf (d : Int) : Int :=
  let m := 4800 * (d - 1) / 146097 + 12
  if monthStart (m + 1) ≤ d then m + 1 else if monthStart m ≤ d then m else m - 1

def year (d : Int) : Int := monthOf d / 12

/-- The month in its year, from 1. -/
def month (d : Int) : Int := monthOf d % 12 + 1

/-- The day in its month, from 1. -/
def dayOfMonth (d : Int) : Int := d - monthStart (monthOf d) + 1

/-- `calendar.monthrange(...)[1]`. -/
def monthLength (m : Int) : Int := monthStart (m + 1) - monthStart m

/-- Monday is zero. -/
def weekday (d : Int) : Int := (d + 6) % 7

example : monthStart (12 * 2026 + 1) = 739648 ∧ monthOf 739648 = 12 * 2026 + 1 ∧
    dayOfMonth 739650 = 3 ∧ weekday 739648 = 6 := by decide

theorem yearStart_succ (y : Int) : yearStart (y + 1) = yearStart y + 365 + if isLeap y then 1 else 0 := by
  unfold yearStart isLeap
  by_cases four : y % 4 = 0 <;> by_cases hundred : y % 100 = 0 <;> by_cases all : y % 400 = 0 <;>
    simp [four, hundred, all] <;> omega

theorem monthStart_eq {y k : Int} (low : 0 ≤ k) (high : k < 12) : monthStart (12 * y + k) =
    yearStart y + (daysBefore[k.toNat]?).getD 0 + if 2 ≤ k && isLeap y then 1 else 0 := by
  have quotient : (12 * y + k) / 12 = y := by omega
  have rest : (12 * y + k) % 12 = k := by omega
  rw [monthStart, quotient, rest]

/-- Every month is a month of some year. -/
theorem month_cases (m : Int) : ∃ y k : Int, m = 12 * y + k ∧ 0 ≤ k ∧ k < 12 :=
  ⟨m / 12, m % 12, by omega, by omega, by omega⟩

theorem monthStart_succ (m : Int) :
    monthStart m + 28 ≤ monthStart (m + 1) ∧ monthStart (m + 1) ≤ monthStart m + 31 := by
  obtain ⟨y, k, rfl, low, high⟩ := month_cases m
  rw [monthStart_eq low high]
  by_cases last : k = 11
  · have next := yearStart_succ y
    rw [show 12 * y + k + 1 = 12 * (y + 1) + 0 by omega, monthStart_eq (by omega) (by omega), next, last]
    cases isLeap y <;> simp [daysBefore] <;> omega
  · rw [show 12 * y + k + 1 = 12 * y + (k + 1) by omega, monthStart_eq (by omega) (by omega)]
    have early : k < 11 := by omega
    interval_cases k <;> cases isLeap y <;> simp [daysBefore] <;> omega

theorem monthStart_add (m : Int) (n : Nat) :
    monthStart m + 28 * n ≤ monthStart (m + n) ∧ monthStart (m + n) ≤ monthStart m + 31 * n := by
  induction n with
  | zero => simp
  | succ n ih =>
    have step := monthStart_succ (m + n)
    rw [show m + (n + 1 : Nat) = m + n + 1 by omega]
    omega

theorem monthStart_lt {a b : Int} (h : a < b) :
    monthStart a + 28 * (b - a) ≤ monthStart b ∧ monthStart b ≤ monthStart a + 31 * (b - a) := by
  have both := monthStart_add a (b - a).toNat
  rw [show a + ((b - a).toNat : Int) = b by omega] at both
  omega

/-- Months start within four days of where months of equal length would. -/
theorem monthStart_linear (m : Int) :
    146097 * (m - 12) - 19200 ≤ 4800 * (monthStart m - 1) ∧
      4800 * (monthStart m - 1) ≤ 146097 * (m - 12) + 19200 := by
  obtain ⟨y, k, rfl, low, high⟩ := month_cases m
  rw [monthStart_eq low high]
  unfold yearStart
  interval_cases k <;> cases isLeap y <;> simp [daysBefore] <;> omega

theorem monthOf_spec (d : Int) : monthStart (monthOf d) ≤ d ∧ d < monthStart (monthOf d + 1) := by
  have estimate : ∃ m, 4800 * (d - 1) / 146097 + 12 = m := ⟨_, rfl⟩
  obtain ⟨m, here⟩ := estimate
  have above := (monthStart_linear (m + 2)).1
  have below := (monthStart_linear (m - 1)).2
  unfold monthOf
  dsimp only
  rw [here]
  split_ifs with later now
  · rw [show m + 1 + 1 = m + 2 by omega]
    omega
  · omega
  · rw [show m - 1 + 1 = m by omega]
    omega

theorem monthOf_eq {d m : Int} (low : monthStart m ≤ d) (high : d < monthStart (m + 1)) :
    monthOf d = m := by
  obtain ⟨start, stop⟩ := monthOf_spec d
  rcases lt_trichotomy (monthOf d) m with earlier | same | later
  · rcases eq_or_lt_of_le (show monthOf d + 1 ≤ m by omega) with next | next
    · rw [next] at stop
      omega
    · have := monthStart_lt next
      omega
  · exact same
  · rcases eq_or_lt_of_le (show m + 1 ≤ monthOf d by omega) with next | next
    · rw [next] at high
      omega
    · have := monthStart_lt next
      omega

end FreeSdn.Lib.Gregorian
