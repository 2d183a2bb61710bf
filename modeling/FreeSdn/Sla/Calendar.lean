import FreeSdn.Lib.Gregorian
import FreeSdn.Lib.Zone
import Mathlib.Data.List.Range
import Mathlib.Data.Int.LeastGreatest

/-! The calendar of SLA reports (`services/sla_calendar.py`): when a report is due, and the window
that a due report covers. -/

namespace FreeSdn.Sla

open FreeSdn.Lib FreeSdn.Lib.Gregorian

inductive Frequency
  | weekly | monthly | quarterly
  deriving DecidableEq, Repr

/-- `ReportCalendar`, with what `from_schedule` checks. -/
structure ReportCalendar where
  frequency : Frequency
  timezone : Zone
  clock : Int
  weekday : Int
  monthday : Int
  clockValid : 0 ≤ clock ∧ clock < dayLength
  weekdayValid : 0 ≤ weekday ∧ weekday ≤ 6
  monthdayValid : 1 ≤ monthday ∧ monthday ≤ 31

namespace ReportCalendar

variable (c : ReportCalendar)

/-- `_matches`. -/
def Matches (day : Int) : Bool :=
  match c.frequency with
  | .weekly => Gregorian.weekday day == c.weekday
  | .monthly => dayOfMonth day == min c.monthday (monthLength (monthOf day))
  | .quarterly =>
    month day ∈ [1, 4, 7, 10] && dayOfMonth day == min c.monthday (monthLength (monthOf day))

/-- `_utc`. -/
def utc (day clock : Int) : Int := c.timezone.utc day clock

def localDay (x : Int) : Int := c.timezone.localDay x

/-- The candidate of a day, if it matches and lies on the right side of the reference. -/
def candidate (reference : Int) (forward : Bool) (day : Int) : Option Int :=
  if c.Matches day then
    let run := c.utc day c.clock
    if (forward && reference < run) || (!forward && run ≤ reference) then some run else none
  else none

/-- `_occurrence`; `none` is `ScheduleTimingError`. -/
def occurrence (reference : Int) (forward : Bool) : Option Int :=
  (List.range 370).findSome? fun (offset : Nat) =>
    c.candidate reference forward
      (c.localDay reference + if forward then (offset : Int) else -(offset : Int))

def nextRun (after : Int) : Option Int := c.occurrence after true

/-- The days on which the window of a report due on the day `due` starts and ends. -/
def window (due : Int) : Int × Int :=
  match c.frequency with
  | .weekly => (due - 7, due)
  | .monthly =>
    let previous := year due * 12 + month due - 1 - 1
    (monthStart (12 * (previous / 12) + previous % 12), monthStart (12 * year due + month due - 1))
  | .quarterly =>
    let first := (month due - 1) / 3 * 3 + 1
    let previous := year due * 12 + first - 1 - 3
    (monthStart (12 * (previous / 12) + previous % 12), monthStart (12 * year due + first - 1))

def reportPeriod (now : Int) : Option (Int × Int) :=
  (c.occurrence now false).map fun run =>
    let days := c.window (c.localDay run)
    (c.utc days.1 0, c.utc days.2 0)

/-! ### The days of the calendar

They are numbered through by their week, month or quarter. -/

/-- The matching day of a period. -/
def dueDay (p : Int) : Int :=
  match c.frequency with
  | .weekly => 7 * p + c.weekday + 1
  | .monthly => monthStart p + min c.monthday (monthLength p) - 1
  | .quarterly => monthStart (3 * p) + min c.monthday (monthLength (3 * p)) - 1

/-- The number of the window of a report due on a day. -/
def index (due : Int) : Int :=
  match c.frequency with
  | .weekly => due
  | .monthly => monthOf due
  | .quarterly => monthOf due / 3

/-- The day on which a window ends. -/
def endDay (i : Int) : Int :=
  match c.frequency with
  | .weekly => i
  | .monthly => monthStart i
  | .quarterly => monthStart (3 * i)

/-- From a window to the next one. -/
def stride : Int :=
  match c.frequency with
  | .weekly => 7
  | .monthly => 1
  | .quarterly => 1

variable {c}

/-- The matching day of a month is in the month. -/
theorem monthOf_due {m : Int} {monthday : Int} (valid : 1 ≤ monthday) :
    monthOf (monthStart m + min monthday (monthLength m) - 1) = m := by
  have length := monthStart_succ m
  apply monthOf_eq <;> unfold monthLength <;> omega

theorem due_iff {day monthday : Int} (valid : 1 ≤ monthday) :
    dayOfMonth day = min monthday (monthLength (monthOf day)) ↔
      ∃ m, monthStart m + min monthday (monthLength m) - 1 = day := by
  constructor
  · intro same
    refine ⟨monthOf day, ?_⟩
    rw [← same, dayOfMonth]
    omega
  · rintro ⟨m, rfl⟩
    rw [dayOfMonth, monthOf_due valid]
    omega

theorem matches_iff {day : Int} : c.Matches day = true ↔ ∃ p, c.dueDay p = day := by
  have valid := c.monthdayValid.1
  have week := c.weekdayValid
  unfold Matches dueDay
  cases c.frequency with
  | weekly =>
    simp only [beq_iff_eq, Gregorian.weekday]
    constructor
    · intro same
      exact ⟨(day - c.weekday - 1) / 7, by omega⟩
    · rintro ⟨p, rfl⟩
      omega
  | monthly =>
    simp only [beq_iff_eq]
    exact due_iff valid
  | quarterly =>
    simp only [Bool.and_eq_true, decide_eq_true_eq, beq_iff_eq, List.mem_cons, List.not_mem_nil,
      or_false]
    constructor
    · rintro ⟨quarter, same⟩
      refine ⟨monthOf day / 3, ?_⟩
      have first : 3 * (monthOf day / 3) = monthOf day := by
        unfold month at quarter
        omega
      rw [first, ← same, dayOfMonth]
      omega
    · rintro ⟨p, rfl⟩
      refine ⟨?_, (due_iff valid).mpr ⟨3 * p, rfl⟩⟩
      rw [month, monthOf_due valid]
      omega

/-- At least a week lies between two due days, and at most a hundred days. -/
theorem dueDay_succ (p : Int) : c.dueDay p + 7 ≤ c.dueDay (p + 1) ∧ c.dueDay (p + 1) ≤ c.dueDay p + 100 := by
  have valid := c.monthdayValid.1
  unfold dueDay
  cases c.frequency with
  | weekly =>
    dsimp only
    omega
  | monthly =>
    have first := monthStart_succ p
    have second := monthStart_succ (p + 1)
    dsimp only
    unfold monthLength
    omega
  | quarterly =>
    have first := monthStart_succ (3 * p)
    have third := monthStart_succ (3 * (p + 1))
    have both := @monthStart_lt (3 * p) (3 * (p + 1)) (by omega)
    dsimp only
    unfold monthLength
    omega

theorem index_dueDay_succ (p : Int) : c.index (c.dueDay (p + 1)) = c.index (c.dueDay p) + c.stride := by
  have valid := c.monthdayValid.1
  unfold index dueDay stride
  cases c.frequency with
  | weekly =>
    dsimp only
    omega
  | monthly =>
    dsimp only
    rw [monthOf_due valid, monthOf_due valid]
  | quarterly =>
    dsimp only
    rw [monthOf_due valid, monthOf_due valid]
    omega

theorem endDay_lt {i j : Int} (h : i < j) : c.endDay i < c.endDay j := by
  unfold endDay
  cases c.frequency with
  | weekly => exact h
  | monthly =>
    have := monthStart_lt h
    dsimp only
    omega
  | quarterly =>
    have := @monthStart_lt (3 * i) (3 * j) (by omega)
    dsimp only
    omega

/-- A window ends where the next one starts. -/
theorem window_eq (due : Int) :
    c.window due = (c.endDay (c.index due - c.stride), c.endDay (c.index due)) := by
  unfold window endDay index stride
  cases c.frequency with
  | weekly => rfl
  | monthly =>
    dsimp only
    congr 2 <;> unfold year month <;> omega
  | quarterly =>
    dsimp only
    congr 2 <;> unfold year month <;> omega

theorem dueDay_lt {p q : Int} (h : p < q) : c.dueDay p + 7 ≤ c.dueDay q := by
  obtain ⟨n, rfl⟩ : ∃ n : Nat, q = p + 1 + n := ⟨(q - p - 1).toNat, by omega⟩
  induction n with
  | zero => simpa using (dueDay_succ p).1
  | succ n ih =>
    have step := (@dueDay_succ c (p + 1 + n)).1
    have before := ih (by omega)
    rw [show p + 1 + ((n + 1 : Nat) : Int) = p + 1 + n + 1 by omega]
    omega

theorem exists_dueDay (day : Int) : ∃ p, c.dueDay p ≤ day ∧ day < c.dueDay (p + 1) := by
  have far : ∀ n : Nat, c.dueDay 0 + n ≤ c.dueDay n ∧ c.dueDay (-n) ≤ c.dueDay 0 - n := by
    intro n
    induction n with
    | zero => simp
    | succ n ih =>
      have up := (@dueDay_succ c n).1
      have down := (@dueDay_succ c (-n - 1)).1
      rw [show -(n : Int) - 1 + 1 = -n by omega] at down
      rw [show -((n + 1 : Nat) : Int) = -n - 1 by omega]
      push_cast
      omega
  have bounded : ∀ p, c.dueDay p ≤ day → p ≤ (day - c.dueDay 0).toNat := by
    intro p low
    by_contra above
    have step := @dueDay_lt c ((day - c.dueDay 0).toNat) p (by omega)
    have := (far (day - c.dueDay 0).toNat).1
    omega
  have inhabited : c.dueDay (-((c.dueDay 0 - day).toNat : Int)) ≤ day := by
    have := (far (c.dueDay 0 - day).toNat).2
    omega
  obtain ⟨p, low, greatest⟩ := @Int.exists_greatest_of_bdd (fun p => c.dueDay p ≤ day) ⟨_, bounded⟩
    ⟨_, inhabited⟩
  refine ⟨p, low, ?_⟩
  by_contra above
  have := greatest (p + 1) (by omega)
  omega

/-! ### Runs -/

variable (c) in
/-- The run of a period. -/
def run (p : Int) : Int := c.utc (c.dueDay p) c.clock

theorem run_bounds (p : Int) :
    (c.dueDay p - 1) * dayLength < c.run p ∧ c.run p < (c.dueDay p + 2) * dayLength := by
  have valid := c.clockValid
  have := c.timezone.utc_bounds (c.dueDay p) c.clock
  unfold run utc
  unfold dayLength at *
  omega

theorem run_lt {p q : Int} (h : p < q) : c.run p < c.run q := by
  have apart := @dueDay_lt c p q h
  have low := (@run_bounds c q).1
  have high := (@run_bounds c p).2
  unfold dayLength at *
  omega

theorem localDay_bounds (x : Int) :
    c.localDay x * dayLength < x + dayLength ∧ x < (c.localDay x + 2) * dayLength :=
  c.timezone.localDay_bounds x

/-- The loop over the days returns at the first one that has a candidate. -/
theorem findSome_range {α : Type} {f : Nat → Option α} {n k : Nat} {a : α} (h : k < n)
    (found : f k = some a) (none_ : ∀ j < k, f j = none) : (List.range n).findSome? f = some a := by
  obtain ⟨m, rfl⟩ : ∃ m, n = k + 1 + m := ⟨n - k - 1, by omega⟩
  rw [List.range_eq_range', ← List.range'_append_1, List.findSome?_append, List.range'_1_concat,
    List.findSome?_append, List.findSome?_eq_none_iff.mpr]
  · simp [found]
  · intro j mem
    exact none_ j (by simpa using mem)

theorem candidate_eq {reference p : Int} {forward : Bool} :
    c.candidate reference forward (c.dueDay p) =
      if (forward && reference < c.run p) || (!forward && c.run p ≤ reference) then some (c.run p)
      else none := by
  rw [candidate, if_pos (matches_iff.mpr ⟨p, rfl⟩)]
  rfl

theorem candidate_none {reference day : Int} {forward : Bool}
    (h : ∀ p, c.dueDay p = day → c.candidate reference forward (c.dueDay p) = none) :
    c.candidate reference forward day = none := by
  by_cases matched : c.Matches day = true
  · obtain ⟨p, rfl⟩ := matches_iff.mp matched
    exact h p rfl
  · rw [candidate, if_neg matched]

theorem nextRun_eq {t p : Int} (from_ : c.localDay t ≤ c.dueDay p)
    (soon : c.dueDay p < c.localDay t + 370) (later : t < c.run p)
    (first : ∀ q < p, c.localDay t ≤ c.dueDay q → c.run q ≤ t) : c.nextRun t = some (c.run p) := by
  have here : c.localDay t + ((c.dueDay p - c.localDay t).toNat : Int) = c.dueDay p := by omega
  have inside : (c.dueDay p - c.localDay t).toNat < 370 := by omega
  unfold nextRun occurrence
  refine findSome_range inside ?_ ?_
  · simp only [if_true]
    rw [here, candidate_eq]
    simp [later]
  · intro j before
    apply candidate_none
    intro q same
    have earlier : q < p := by
      by_contra after
      rcases eq_or_lt_of_le (not_lt.mp after) with rfl | after
      · simp only [if_true] at same
        omega
      · have := @dueDay_lt c p q after
        simp only [if_true] at same
        omega
    have passed := first q earlier (by simp only [if_true] at same; omega)
    rw [candidate_eq]
    simp [passed]

theorem latest_eq {x p : Int} (until_ : c.dueDay p ≤ c.localDay x)
    (soon : c.localDay x < c.dueDay p + 370) (past : c.run p ≤ x)
    (last : ∀ q, p < q → c.dueDay q ≤ c.localDay x → x < c.run q) :
    c.occurrence x false = some (c.run p) := by
  have here : c.localDay x + -((c.localDay x - c.dueDay p).toNat : Int) = c.dueDay p := by omega
  have inside : (c.localDay x - c.dueDay p).toNat < 370 := by omega
  unfold occurrence
  refine findSome_range inside ?_ ?_
  · simp only [Bool.false_eq_true, if_false]
    rw [here, candidate_eq]
    simp [past]
  · intro j before
    apply candidate_none
    intro q same
    simp only [Bool.false_eq_true, if_false] at same
    have after : p < q := by
      by_contra earlier
      rcases eq_or_lt_of_le (not_lt.mp earlier) with rfl | earlier
      · omega
      · have := @dueDay_lt c q p earlier
        omega
    have future := last q after (by omega)
    rw [candidate_eq]
    simp [future]

/-- The run behind a run is that of the next period. -/
theorem nextRun_run (p : Int) : c.nextRun (c.run p) = some (c.run (p + 1)) := by
  have run := @run_bounds c p
  have day := @localDay_bounds c (c.run p)
  have next := @dueDay_succ c p
  unfold dayLength at run day
  apply nextRun_eq
  · omega
  · omega
  · exact run_lt (by omega)
  · intro q before from_
    rcases eq_or_lt_of_le (show q ≤ p by omega) with rfl | earlier
    · exact le_refl _
    · exact (run_lt earlier).le

/-- Every run is the next one after some instant. -/
theorem nextRun_before (p : Int) : c.nextRun ((c.dueDay p - 3) * dayLength) = some (c.run p) := by
  have run := @run_bounds c p
  have day := @localDay_bounds c ((c.dueDay p - 3) * dayLength)
  unfold dayLength at *
  apply nextRun_eq
  · omega
  · omega
  · omega
  · intro q before from_
    have := @dueDay_lt c q p before
    omega

/-- The next run is the first one on a day from the local day on that is still to come. -/
theorem nextRun_found (t : Int) : ∃ p, c.nextRun t = some (c.run p) ∧ c.localDay t ≤ c.dueDay p ∧
    t < c.run p ∧ ∀ q < p, c.localDay t ≤ c.dueDay q → c.run q ≤ t := by
  obtain ⟨p, before, from_⟩ := @exists_dueDay c (c.localDay t - 1)
  have day := @localDay_bounds c t
  have first := @dueDay_succ c p
  have second := @dueDay_succ c (p + 1)
  by_cases later : t < c.run (p + 1)
  · have passed : ∀ q < p + 1, c.localDay t ≤ c.dueDay q → c.run q ≤ t := by
      intro q earlier there
      rcases eq_or_lt_of_le (show q ≤ p by omega) with rfl | early
      · omega
      · have := @dueDay_lt c q p early
        omega
    exact ⟨p + 1, nextRun_eq (by omega) (by omega) later passed, by omega, later, passed⟩
  · have run := @run_bounds c (p + 1 + 1)
    have passed : ∀ q < p + 1 + 1, c.localDay t ≤ c.dueDay q → c.run q ≤ t := by
      intro q earlier there
      rcases eq_or_lt_of_le (show q ≤ p + 1 by omega) with rfl | early
      · omega
      · rcases eq_or_lt_of_le (show q ≤ p by omega) with rfl | early
        · omega
        · have := @dueDay_lt c q p early
          omega
    unfold dayLength at day run
    exact ⟨p + 1 + 1, nextRun_eq (by omega) (by omega) (by omega) passed, by omega, by omega, passed⟩

/-- After every instant there is a next run. -/
theorem exists_nextRun (t : Int) : ∃ p, c.nextRun t = some (c.run p) := by
  obtain ⟨p, next, -⟩ := @nextRun_found c t
  exact ⟨p, next⟩

/-! ### Periods -/

variable (c) in
/-- The window of the number `i`, as instants. -/
def span (i : Int) : Int × Int := (c.utc (c.endDay (i - c.stride)) 0, c.utc (c.endDay i) 0)

variable (c) in
/-- The window that the run of a period reports on. -/
def reported (p : Int) : Int := c.index (c.localDay (c.run p))

theorem reportPeriod_eq {x p : Int} (h : c.occurrence x false = some (c.run p)) :
    c.reportPeriod x = some (c.span (c.reported p)) := by
  rw [reportPeriod, h, Option.map_some, window_eq]
  rfl

theorem end_lt {i j : Int} (h : i < j) : (c.span i).2 < (c.span j).2 :=
  c.timezone.utc_lt (endDay_lt h) 0

theorem span_end {i j : Int} (h : (c.span i).2 = (c.span j).2) : i = j := by
  rcases lt_trichotomy i j with less | same | greater
  · have := @end_lt c i j less
    omega
  · exact same
  · have := @end_lt c j i greater
    omega

/-- Between two runs the first one is the latest, if its day has come. -/
theorem latest_here {x p : Int} (after : c.run p ≤ x) (before : x < c.run (p + 1))
    (come : c.dueDay p ≤ c.localDay x) : c.occurrence x false = some (c.run p) := by
  have run := @run_bounds c (p + 1)
  have day := @localDay_bounds c x
  have next := @dueDay_succ c p
  unfold dayLength at *
  apply latest_eq come (by omega) after
  intro q later there
  rcases eq_or_lt_of_le (show p + 1 ≤ q by omega) with rfl | later
  · exact before
  · exact lt_trans before (run_lt later)

/-- The clocks were set back behind the run, to a day before its own: the run before it is found. -/
theorem latest_before {x p : Int} (after : c.run (p + 1) ≤ x) (gone : c.localDay x < c.dueDay (p + 1)) :
    c.occurrence x false = some (c.run p) := by
  have run := @run_bounds c (p + 1)
  have earlier := @run_lt c p (p + 1) (by omega)
  have day := @localDay_bounds c x
  have next := @dueDay_succ c p
  unfold dayLength at *
  apply latest_eq (by omega) (by omega) (by omega)
  intro q later there
  rcases eq_or_lt_of_le (show p + 1 ≤ q by omega) with rfl | later
  · omega
  · have := @dueDay_lt c (p + 1) q later
    omega

/-- Three days behind the due day the run of the period is the latest. -/
theorem latest_middle (p : Int) : ∃ x, c.run p ≤ x ∧ x < c.run (p + 1) ∧
    c.occurrence x false = some (c.run p) := by
  have run := @run_bounds c p
  have later := @run_bounds c (p + 1)
  have next := @dueDay_succ c p
  have day := @localDay_bounds c ((c.dueDay p + 3) * dayLength)
  unfold dayLength at *
  refine ⟨(c.dueDay p + 3) * 86400000000, by omega, by omega, ?_⟩
  exact latest_here (by omega) (by omega) (by omega)

/-! ### Tiling -/

variable (c) in
/-- From every instant on, the window of the next run ends where that of the run behind it starts, and
stays the reported one until then. -/
def Tiles : Prop :=
  ∀ t, ∃ r₁ r₂ start stop stop', c.nextRun t = some r₁ ∧ c.nextRun r₁ = some r₂ ∧
    c.reportPeriod r₁ = some (start, stop) ∧ c.reportPeriod r₂ = some (stop, stop') ∧
      ∀ x, r₁ ≤ x → x < r₂ → c.reportPeriod x = some (start, stop)

/-- The run of a matching day falls into the window of the day, and no later instant is on a day before
it. -/
def Steady (c : ReportCalendar) (day : Int) : Prop :=
  c.index (c.localDay (c.utc day c.clock)) = c.index day ∧
    ∀ x, c.utc day c.clock ≤ x → day ≤ c.localDay x

theorem tiles_of_steady (steady : ∀ day, c.Matches day = true → Steady c day) : c.Tiles := by
  intro t
  obtain ⟨p, next⟩ := @exists_nextRun c t
  have known : ∀ p x, c.run p ≤ x → x < c.run (p + 1) →
      c.reportPeriod x = some (c.span (c.index (c.dueDay p))) := by
    intro p x after before
    obtain ⟨same, come⟩ := steady (c.dueDay p) (matches_iff.mpr ⟨p, rfl⟩)
    rw [reportPeriod_eq (latest_here after before (come x after)), reported, run, same]
  refine ⟨c.run p, c.run (p + 1), _, _, (c.span (c.index (c.dueDay (p + 1)))).2, next, nextRun_run p,
    known p _ (le_refl _) (run_lt (by omega)), ?_, known p⟩
  rw [known (p + 1) _ (le_refl _) (run_lt (by omega)), span, index_dueDay_succ]
  simp

/-- A tiling reports between two runs what the first of them reports. -/
theorem reportPeriod_of_tiles (tiles : c.Tiles) {p x : Int} (after : c.run p ≤ x)
    (before : x < c.run (p + 1)) : c.reportPeriod x = some (c.span (c.reported p)) := by
  obtain ⟨r₁, r₂, start, stop, stop', first, second, -, -, all⟩ := tiles ((c.dueDay p - 3) * dayLength)
  rw [nextRun_before] at first
  obtain rfl := Option.some.inj first
  rw [nextRun_run] at second
  obtain rfl := Option.some.inj second
  obtain ⟨middle, low, high, latest⟩ := @latest_middle c p
  rw [all x after before, ← all middle low high, reportPeriod_eq latest]

theorem reported_succ (tiles : c.Tiles) (p : Int) : c.reported (p + 1) = c.reported p + c.stride := by
  obtain ⟨r₁, r₂, start, stop, stop', first, second, here, there, -⟩ :=
    tiles ((c.dueDay p - 3) * dayLength)
  rw [nextRun_before] at first
  obtain rfl := Option.some.inj first
  rw [nextRun_run] at second
  obtain rfl := Option.some.inj second
  rw [reportPeriod_of_tiles tiles (le_refl _) (run_lt (by omega))] at here there
  have ends : (c.span (c.reported p)).2 = stop := congrArg Prod.snd (Option.some.inj here)
  have starts : (c.span (c.reported (p + 1))).1 = stop := congrArg Prod.fst (Option.some.inj there)
  have same : (c.span (c.reported (p + 1) - c.stride)).2 = (c.span (c.reported p)).2 := by
    rw [ends, ← starts]
    rfl
  have := span_end same
  omega

/-- Behind the last transition every run reports on its own window; a tiling carries that back. -/
theorem reported_of_tiles (tiles : c.Tiles) (p : Int) : c.reported p = c.index (c.dueDay p) := by
  obtain ⟨first, settled⟩ := c.timezone.settles
  obtain ⟨q, -, late⟩ := @exists_dueDay c first
  have behind : ∀ n : Nat, c.reported p - c.index (c.dueDay p) =
      c.reported (p + n) - c.index (c.dueDay (p + n)) := by
    intro n
    induction n with
    | zero => simp
    | succ n ih =>
      have one := reported_succ tiles (p + n)
      have two := @index_dueDay_succ c (p + n)
      rw [show p + ((n + 1 : Nat) : Int) = p + n + 1 by omega]
      omega
  have large : first ≤ c.dueDay (p + (q + 1 - p).toNat) := by
    rcases eq_or_lt_of_le (show q + 1 ≤ p + (q + 1 - p).toNat by omega) with same | more
    · rw [← same]
      exact late.le
    · have := @dueDay_lt c _ _ more
      omega
  have exact_ := (settled _ c.clock large c.clockValid.1 c.clockValid.2).1
  have final := behind (q + 1 - p).toNat
  have own : c.reported (p + (q + 1 - p).toNat) = c.index (c.dueDay (p + (q + 1 - p).toNat)) := by
    unfold reported
    exact congrArg c.index exact_
  omega

theorem steady_of_tiles (tiles : c.Tiles) {day : Int} (matched : c.Matches day = true) :
    Steady c day := by
  obtain ⟨p, rfl⟩ := matches_iff.mp matched
  refine ⟨reported_of_tiles tiles p, ?_⟩
  intro x after
  by_contra gone
  obtain ⟨q, rfl⟩ : ∃ q, p = q + 1 := ⟨p - 1, by omega⟩
  have before : x < c.run (q + 1 + 1) := by
    have day := @localDay_bounds c x
    have run := @run_bounds c (q + 1 + 1)
    have next := @dueDay_succ c (q + 1)
    unfold dayLength at *
    omega
  have here := reportPeriod_of_tiles tiles after before
  rw [reportPeriod_eq (latest_before after (not_le.mp gone))] at here
  have same := span_end (congrArg Prod.snd (Option.some.inj here))
  have step := reported_succ tiles q
  have positive : 0 < c.stride := by
    unfold stride
    cases c.frequency <;> decide
  omega

/-- Windows tile exactly when no run is carried out of its window by a gap, and no clock is set back
behind a run to a day before the run's own. -/
theorem report_windows_tile (c : ReportCalendar) :
    c.Tiles ↔ ∀ day, c.Matches day = true → Steady c day :=
  ⟨fun tiles _ matched => steady_of_tiles tiles matched, tiles_of_steady⟩

end ReportCalendar

/-! ### A gap before midnight -/

/-- Half past eight hours, nine hours from the fourth of May 2018, 15:00 UTC on. -/
def pyongyang : Zone :=
  { initial := 30600000000
    transitions := [(736818 * dayLength + hours 15, hours 9)]
    bounded := by decide
    steps := by
      refine ⟨by decide, by decide, ?_, trivial⟩
      simp }

/-- Fridays at 23:45. -/
def fridays : ReportCalendar :=
  { frequency := .weekly, timezone := pyongyang, clock := 85500000000, weekday := 4, monthday := 1
    clockValid := by decide, weekdayValid := by decide, monthdayValid := by decide }

/-- The run of the gap falls on Saturday, and its window starts a day behind the end of the last one. -/
theorem gap_before_midnight : fridays.nextRun (736809 * dayLength) =
      some (736811 * dayLength + hours 15 + 900000000) ∧
    fridays.nextRun (736811 * dayLength + hours 15 + 900000000) =
      some (736818 * dayLength + hours 15 + 900000000) ∧
    (fridays.reportPeriod (736811 * dayLength + hours 15 + 900000000)).map Prod.snd ≠
      (fridays.reportPeriod (736818 * dayLength + hours 15 + 900000000)).map Prod.fst := by
  decide +kernel

end FreeSdn.Sla
