import Mathlib.Data.List.Lex
import Mathlib.Order.Lattice
import Mathlib.Tactic.Ring

/-! Instants in UTC by their calendar fields, and the text that `datetime.isoformat` writes for
them. -/

namespace FreeSdn.Lib

/-! ### Digits of a fixed width -/

def digitChar (d : Nat) : Char := Char.ofNat (48 + d)

/-- The last `w` decimal digits of `n`. -/
def pad : Nat → Nat → List Char
  | 0, _ => []
  | w + 1, n => digitChar (n / 10 ^ w % 10) :: pad w n

/-- Reads `w` digits behind the value `acc`. -/
def readDigits : Nat → Nat → List Char → Option (Nat × List Char)
  | 0, acc, cs => some (acc, cs)
  | w + 1, acc, c :: cs =>
    if c.isDigit then readDigits w (acc * 10 + (c.toNat - 48)) cs else none
  | _ + 1, _, [] => none

theorem digitChar_digit : ∀ d < 10, (digitChar d).isDigit = true ∧ (digitChar d).toNat - 48 = d := by
  decide

theorem readDigits_pad (w acc n : Nat) (rest : List Char) :
    readDigits w acc (pad w n ++ rest) = some (acc * 10 ^ w + n % 10 ^ w, rest) := by
  induction w generalizing acc with
  | zero => simp [readDigits, pad, Nat.mod_one]
  | succ w ih =>
    obtain ⟨digit, value⟩ := digitChar_digit (n / 10 ^ w % 10) (Nat.mod_lt _ (by decide))
    rw [pad, List.cons_append, readDigits, if_pos digit, value, ih, Nat.mod_pow_succ]
    congr 2
    ring

theorem length_pad (w n : Nat) : (pad w n).length = w := by
  induction w with
  | zero => rfl
  | succ w ih => rw [pad, List.length_cons, ih]

theorem pad_digits (w n : Nat) : ∀ c ∈ pad w n, c.isDigit = true := by
  induction w with
  | zero => simp [pad]
  | succ w ih =>
    intro c mem
    rcases List.mem_cons.mp mem with rfl | later
    · exact (digitChar_digit _ (Nat.mod_lt _ (by decide))).1
    · exact ih c later

/-! ### Instants -/

def isLeap (year : Nat) : Bool := year % 4 == 0 && (year % 100 != 0 || year % 400 == 0)

def daysIn (year month : Nat) : Nat :=
  if month = 2 then if isLeap year then 29 else 28
  else if month ∈ [4, 6, 9, 11] then 30
  else 31

/-- The calendar fields, down to the microsecond. -/
structure Fields where
  year : Nat
  month : Nat
  day : Nat
  hour : Nat
  minute : Nat
  second : Nat
  micro : Nat
  deriving DecidableEq

def Fields.valid (f : Fields) : Bool :=
  1 ≤ f.year && f.year ≤ 9999 && 1 ≤ f.month && f.month ≤ 12 && 1 ≤ f.day &&
    f.day ≤ daysIn f.year f.month && f.hour < 24 && f.minute < 60 && f.second < 60 &&
    f.micro < 1000000

/-- An aware `datetime` in UTC. -/
structure Stamp where
  fields : Fields
  valid : fields.valid = true
  deriving DecidableEq

namespace Stamp

/-- The fields from the coarsest, which order the instants. -/
def parts (s : Stamp) : List Nat :=
  [s.fields.year, s.fields.month, s.fields.day, s.fields.hour, s.fields.minute, s.fields.second,
    s.fields.micro]

theorem parts_injective : Function.Injective parts := by
  rintro ⟨⟨⟩, _⟩ ⟨⟨⟩, _⟩ same
  simp only [parts, List.cons.injEq, and_true] at same
  obtain ⟨rfl, rfl, rfl, rfl, rfl, rfl, rfl⟩ := same
  rfl

instance : LinearOrder Stamp := LinearOrder.lift' parts parts_injective

/-- `isoformat`, whose fraction is left out when it is zero. -/
def isoformat (s : Stamp) : List Char :=
  pad 4 s.fields.year ++ '-' :: (pad 2 s.fields.month ++ '-' :: (pad 2 s.fields.day ++
    'T' :: (pad 2 s.fields.hour ++ ':' :: (pad 2 s.fields.minute ++ ':' ::
      (pad 2 s.fields.second ++ ((if s.fields.micro = 0 then [] else '.' :: pad 6 s.fields.micro) ++
        ['+', '0', '0', ':', '0', '0']))))))

/-- A field, after its separator. -/
def readField (separator : Char) (w : Nat) : List Char → Option (Nat × List Char)
  | c :: cs => if c = separator then readDigits w 0 cs else none
  | [] => none

def readFraction (cs : List Char) : Option (Nat × List Char) :=
  if cs.head? = some '.' then readField '.' 6 cs else some (0, cs)

/-- `fromisoformat`, on the texts of `isoformat`. -/
def fromisoformat (cs : List Char) : Option Stamp := do
  let (year, cs) ← readDigits 4 0 cs
  let (month, cs) ← readField '-' 2 cs
  let (day, cs) ← readField '-' 2 cs
  let (hour, cs) ← readField 'T' 2 cs
  let (minute, cs) ← readField ':' 2 cs
  let (second, cs) ← readField ':' 2 cs
  let (micro, cs) ← readFraction cs
  let fields : Fields := ⟨year, month, day, hour, minute, second, micro⟩
  if h : fields.valid = true then
    if cs = ['+', '0', '0', ':', '0', '0'] then some ⟨fields, h⟩ else none
  else none

theorem readField_pad (separator : Char) (w n : Nat) (rest : List Char) (small : n < 10 ^ w) :
    readField separator w (separator :: (pad w n ++ rest)) = some (n, rest) := by
  simp [readField, readDigits_pad, Nat.mod_eq_of_lt small]

theorem daysIn_le (year month : Nat) : daysIn year month ≤ 31 := by
  unfold daysIn
  split
  · split <;> decide
  · split <;> decide

theorem fields_small (s : Stamp) : s.fields.year < 10000 ∧ s.fields.month < 100 ∧
    s.fields.day < 100 ∧ s.fields.hour < 100 ∧ s.fields.minute < 100 ∧ s.fields.second < 100 ∧
    s.fields.micro < 1000000 := by
  have valid := s.valid
  have days := daysIn_le s.fields.year s.fields.month
  simp only [Fields.valid, Bool.and_eq_true, decide_eq_true_eq] at valid
  omega

theorem fromisoformat_isoformat (s : Stamp) : fromisoformat s.isoformat = some s := by
  obtain ⟨year, month, day, hour, minute, second, micro⟩ := s.fields_small
  have first (rest : List Char) :
      readDigits 4 0 (pad 4 s.fields.year ++ rest) = some (s.fields.year, rest) := by
    rw [readDigits_pad, Nat.mod_eq_of_lt (show s.fields.year < 10 ^ 4 from year)]
    simp
  have fraction : readFraction ((if s.fields.micro = 0 then [] else '.' :: pad 6 s.fields.micro) ++
      ['+', '0', '0', ':', '0', '0']) = some (s.fields.micro, ['+', '0', '0', ':', '0', '0']) := by
    split
    · rename_i zero
      simp [readFraction, zero]
    · rw [List.cons_append, readFraction, List.head?_cons, if_pos rfl]
      exact readField_pad '.' 6 _ _ micro
  simp only [fromisoformat, isoformat, first, readField_pad _ 2 _ _ month,
    readField_pad _ 2 _ _ day, readField_pad _ 2 _ _ hour, readField_pad _ 2 _ _ minute,
    readField_pad _ 2 _ _ second, fraction, Option.bind_eq_bind, Option.bind_some]
  rw [dif_pos s.valid, if_pos trivial]

theorem isoformat_injective : Function.Injective isoformat := by
  intro s t same
  have read := fromisoformat_isoformat s
  rw [same, fromisoformat_isoformat] at read
  exact (Option.some.inj read).symm

end Stamp

end FreeSdn.Lib
