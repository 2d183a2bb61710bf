import FreeSdn.Sla.Calendar
import Mathlib.Order.Bounds.Defs

/-! Which run `next_run` and `report_period` find (`services/sla_calendar.py`).  Both look through the days
from the local day of the reference in one direction, so they miss a run that a change of the clocks
carries across that day. -/

namespace FreeSdn.Sla

open FreeSdn.Lib FreeSdn.Lib.Gregorian

namespace ReportCalendar

variable {c : ReportCalendar}

/-! ### What the search finds -/

/-- The latest run is the last one on a day up to the local day that has passed. -/
theorem latest_found (t : Int) : ∃ p, c.occurrence t false = some (c.run p) ∧
    c.dueDay p ≤ c.localDay t ∧ c.run p ≤ t ∧
      ∀ q, p < q → c.dueDay q ≤ c.localDay t → t < c.run q := by
  obtain ⟨p, until_, beyond⟩ := @exists_dueDay c (c.localDay t)
  have day := @localDay_bounds c t
  have here := @dueDay_succ c p
  by_cases passed : c.run p ≤ t
  · have future : ∀ q, p < q → c.dueDay q ≤ c.localDay t → t < c.run q := by
      intro q later there
      rcases eq_or_lt_of_le (show p + 1 ≤ q by omega) with rfl | late
      · omega
      · have := @dueDay_lt c (p + 1) q late
        omega
    exact ⟨p, latest_eq until_ (by omega) passed future, until_, passed, future⟩
  · have back := @dueDay_succ c (p - 1)
    have run := @run_bounds c (p - 1)
    rw [Int.sub_add_cancel] at back
    have future : ∀ q, p - 1 < q → c.dueDay q ≤ c.localDay t → t < c.run q := by
      intro q later there
      rcases eq_or_lt_of_le (show p ≤ q by omega) with rfl | late
      · omega
      · rcases eq_or_lt_of_le (show p + 1 ≤ q by omega) with rfl | late
        · omega
        · have := @dueDay_lt c (p + 1) q late
          omega
    unfold dayLength at day run
    exact ⟨p - 1, latest_eq (by omega) (by omega) (by omega) future, by omega, by omega, future⟩

/-! ### What it should find -/

variable (c)

/-- The occurrences of the calendar: the run of every matching day. -/
def Occurs (x : Int) : Prop := ∃ day, c.Matches day = true ∧ c.utc day c.clock = x

/-- The next run is the earliest occurrence behind the instant, and the latest due run is the last one up
to it. -/
def Earliest (t : Int) : Prop :=
  (∃ r, c.nextRun t = some r ∧ IsLeast {x | c.Occurs x ∧ t < x} r) ∧
    ∃ r, c.occurrence t false = some r ∧ IsGreatest {x | c.Occurs x ∧ x ≤ t} r

/-- No occurrence is carried across the local day of the instant: those of the days before it have
passed, and those of the days behind it are still to come. -/
def InOrder (t : Int) : Prop :=
  ∀ day, c.Matches day = true → (day < c.localDay t → c.utc day c.clock ≤ t) ∧
    (c.localDay t < day → t < c.utc day c.clock)

variable {c}

theorem occurs_iff {x : Int} : c.Occurs x ↔ ∃ p, c.run p = x := by
  constructor
  · rintro ⟨day, matched, rfl⟩
    obtain ⟨p, rfl⟩ := matches_iff.mp matched
    exact ⟨p, rfl⟩
  · rintro ⟨p, rfl⟩
    exact ⟨c.dueDay p, matches_iff.mpr ⟨p, rfl⟩, rfl⟩

theorem run_le {p q : Int} (h : c.run p ≤ c.run q) : p ≤ q := by
  by_contra after
  have := @run_lt c q p (by omega)
  omega

theorem inOrder_iff {t : Int} : c.InOrder t ↔ ∀ p, (c.dueDay p < c.localDay t → c.run p ≤ t) ∧
    (c.localDay t < c.dueDay p → t < c.run p) := by
  constructor
  · exact fun inOrder p => inOrder (c.dueDay p) (matches_iff.mpr ⟨p, rfl⟩)
  · rintro each day matched
    obtain ⟨p, rfl⟩ := matches_iff.mp matched
    exact each p

theorem earliest_of_inOrder {t : Int} (inOrder : c.InOrder t) : c.Earliest t := by
  rw [inOrder_iff] at inOrder
  obtain ⟨p, next, -, later, first⟩ := @nextRun_found c t
  obtain ⟨l, latest, -, past, last⟩ := @latest_found c t
  refine ⟨⟨c.run p, next, ⟨occurs_iff.mpr ⟨p, rfl⟩, later⟩, ?_⟩,
    ⟨c.run l, latest, ⟨occurs_iff.mpr ⟨l, rfl⟩, past⟩, ?_⟩⟩
  · rintro x ⟨occurs, behind⟩
    obtain ⟨q, rfl⟩ := occurs_iff.mp occurs
    by_contra smaller
    have before : q < p := by
      by_contra after
      rcases eq_or_lt_of_le (not_lt.mp after) with rfl | after
      · omega
      · have := @run_lt c p q after
        omega
    by_cases from_ : c.localDay t ≤ c.dueDay q
    · have := first q before from_
      omega
    · have := (inOrder q).1 (by omega)
      omega
  · rintro x ⟨occurs, upTo⟩
    obtain ⟨q, rfl⟩ := occurs_iff.mp occurs
    by_contra larger
    have after : l < q := by
      by_contra before
      rcases eq_or_lt_of_le (not_lt.mp before) with rfl | before
      · omega
      · have := @run_lt c q l before
        omega
    by_cases until_ : c.dueDay q ≤ c.localDay t
    · have := last q after until_
      omega
    · have := (inOrder q).2 (by omega)
      omega

theorem inOrder_of_earliest {t : Int} (earliest : c.Earliest t) : c.InOrder t := by
  obtain ⟨⟨r, next, -, least⟩, ⟨g, latest, -, greatest⟩⟩ := earliest
  obtain ⟨p, found, from_, -, -⟩ := @nextRun_found c t
  obtain rfl := Option.some.inj (next.symm.trans found)
  obtain ⟨l, found, until_, -, -⟩ := @latest_found c t
  obtain rfl := Option.some.inj (latest.symm.trans found)
  rw [inOrder_iff]
  intro q
  constructor
  · intro before
    by_contra future
    have notBefore := run_le (least ⟨occurs_iff.mpr ⟨q, rfl⟩, not_le.mp future⟩)
    rcases eq_or_lt_of_le notBefore with rfl | after
    · omega
    · have := @dueDay_lt c p q after
      omega
  · intro after
    by_contra past
    have notAfter := run_le (greatest ⟨occurs_iff.mpr ⟨q, rfl⟩, not_lt.mp past⟩)
    rcases eq_or_lt_of_le notAfter with rfl | before
    · omega
    · have := @dueDay_lt c q l before
      omega

/-- The next and the latest run are the earliest occurrence behind an instant and the last one up to it,
exactly if no occurrence is carried across the local day of the instant. -/
theorem nextRun_earliest_iff (c : ReportCalendar) (t : Int) : c.Earliest t ↔ c.InOrder t :=
  ⟨inOrder_of_earliest, earliest_of_inOrder⟩

end ReportCalendar

/-! ### A run behind midnight -/

/-- Five minutes behind midnight the run of Friday 23:45 is still ten minutes off, but the next run is
that of the Friday after it. -/
theorem run_behind_midnight_missed :
    ¬ ReportCalendar.Earliest fridays (736818 * dayLength + hours 15 + 300000000) := by
  intro earliest
  have inOrder := ReportCalendar.inOrder_of_earliest earliest 736818 (by decide +kernel)
  exact absurd (inOrder.1 (by decide +kernel)) (by decide +kernel)

end FreeSdn.Sla
