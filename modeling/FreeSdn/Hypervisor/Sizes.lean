import FreeSdn.Lib.Decimal
import FreeSdn.Lib.Text
import FreeSdn.Staging.Change
import Mathlib.Data.List.Infix

/-! Sizes of disks (`hypervisor_guest_changes.py`): a decimal number with a unit, taken as a whole
number of bytes.  The product of number and unit is rounded to 28 digits before it is checked. -/

namespace FreeSdn.Hypervisor

open FreeSdn.Lib FreeSdn.Staging

/-- `_UNITS`. -/
def unitBytes : Char → Option Nat
  | 'K' => some 1024
  | 'M' => some (1024 ^ 2)
  | 'G' => some (1024 ^ 3)
  | 'T' => some (1024 ^ 4)
  | _ => none

/-- `_MAX_BYTES`. -/
def maxBytes : Nat := 2 ^ 53 - 1

/-- The bytes that a text `([0-9]+(?:\.[0-9]+)?)([KMGT]?)` denotes; without unit it counts GiB. -/
def exactSize (value : String) : Option Decimal :=
  match value.toList.getLast?.bind unitBytes with
  | some unit =>
    (Decimal.read value.toList.dropLast).map fun x => ⟨x.coefficient * unit, x.scale⟩
  | none => (Decimal.read value.toList).map fun x => ⟨x.coefficient * 1024 ^ 3, x.scale⟩

/-- `size_bytes`. -/
def sizeBytes (value : String) : Except HttpError Nat :=
  match exactSize value with
  | none => .error ⟨400, "Invalid disk size"⟩
  | some x =>
    let result := toPrecision 28 x.coefficient
    if 10 ^ x.scale ∣ result ∧ 0 < result ∧ result ≤ maxBytes * 10 ^ x.scale then
      .ok (result / 10 ^ x.scale)
    else .error ⟨400, "Disk size is outside the supported range"⟩

/-- The text under `size=` in the settings of a disk. -/
def sizeText (value : String) : Option String :=
  (splitChars ',' value.toList).findSome? fun field =>
    if "size=".toList.isPrefixOf field && 5 < field.length then some (String.ofList (field.drop 5))
    else none

/-- `"media=cdrom" in value`. -/
def isCdrom (value : String) : Bool := decide ("media=cdrom".toList <:+: value.toList)

/-- `disk_bytes`. -/
def diskBytes (config : Dict) (disk : String) : Except HttpError Nat :=
  match config.lookup disk with
  | some (.str value) =>
    if isCdrom value then .error ⟨400, "Selected disk is unavailable or not resizable"⟩
    else
      match sizeText value with
      | some text => sizeBytes text
      | none => .error ⟨400, "Selected disk has no verifiable size"⟩
  | _ => .error ⟨400, "Selected disk is unavailable or not resizable"⟩

variable {value : String} {x : Decimal} {n d : Nat} {cs : List Char}

theorem sizeBytes_ok_iff :
    sizeBytes value = .ok n ↔ ∃ x, exactSize value = some x ∧
      toPrecision 28 x.coefficient = n * 10 ^ x.scale ∧ 0 < n ∧ n ≤ maxBytes := by
  unfold sizeBytes
  cases exactSize value with
  | none => simp
  | some x =>
    have unit : 0 < 10 ^ x.scale := Nat.pow_pos (by decide)
    simp only [Option.some.injEq, exists_eq_left']
    constructor
    · intro h
      split at h
      · rename_i met
        obtain rfl := Except.ok.inj h
        refine ⟨(Nat.div_mul_cancel met.1).symm, Nat.div_pos (Nat.le_of_dvd met.2.1 met.1) unit, ?_⟩
        exact Nat.div_le_of_le_mul (by rw [Nat.mul_comm]; exact met.2.2)
      · cases h
    · rintro ⟨eq, positive, bound⟩
      rw [eq, if_pos, Nat.mul_div_cancel n unit]
      exact ⟨Nat.dvd_mul_left _ _, Nat.mul_pos positive unit, Nat.mul_le_mul_right _ bound⟩

/-! ### Texts -/

theorem ofDigitChars_lt (digits : ∀ c ∈ cs, c.isDigit = true) (start : Nat) :
    Nat.ofDigitChars 10 cs start < (start + 1) * 10 ^ cs.length := by
  induction cs generalizing start with
  | nil => simp
  | cons c cs ih =>
    obtain ⟨first, rest⟩ := List.forall_mem_cons.mp digits
    have small : c.toNat - '0'.toNat ≤ 9 := by
      simp only [Char.isDigit, Bool.and_eq_true, decide_eq_true_eq] at first
      have high : c.toNat ≤ '9'.toNat := first.2
      have : '9'.toNat = 57 := rfl
      have : '0'.toNat = 48 := rfl
      omega
    rw [Nat.ofDigitChars_cons, List.length_cons]
    calc Nat.ofDigitChars 10 cs (10 * start + (c.toNat - '0'.toNat))
        < (10 * start + (c.toNat - '0'.toNat) + 1) * 10 ^ cs.length := ih rest _
      _ ≤ (start + 1) * 10 * 10 ^ cs.length := Nat.mul_le_mul_right _ (by omega)
      _ = (start + 1) * 10 ^ (cs.length + 1) := by
        rw [Nat.pow_succ, Nat.mul_assoc, Nat.mul_comm 10]

theorem digitsValue_lt (digits : ∀ c ∈ cs, c.isDigit = true) : digitsValue cs < 10 ^ cs.length := by
  simpa [digitsValue] using ofDigitChars_lt digits 0

theorem takeWhile_digits (cs : List Char) : ∀ c ∈ cs.takeWhile Char.isDigit, c.isDigit = true :=
  List.all_eq_true.mp List.all_takeWhile

/-- How large a number is that a text spells: the point takes the place of a digit. -/
theorem read_bounds (h : Decimal.read cs = some x) :
    x.scale = 0 ∧ x.coefficient < 10 ^ cs.length ∨
      x.scale + 2 ≤ cs.length ∧ x.coefficient < 10 ^ (cs.length - 1) := by
  have split := List.takeWhile_append_dropWhile (p := Char.isDigit) (l := cs)
  have size : cs.length
      = (cs.takeWhile Char.isDigit).length + (cs.dropWhile Char.isDigit).length := by
    rw [← List.length_append, split]
  unfold Decimal.read at h
  simp only at h
  split at h
  · rename_i none
    split at h
    · cases h
    · obtain rfl := Option.some.inj h
      refine .inl ⟨rfl, ?_⟩
      have whole : cs.length = (cs.takeWhile Char.isDigit).length := by
        rw [size, none, List.length_nil, Nat.add_zero]
      rw [whole]
      exact digitsValue_lt (takeWhile_digits cs)
  · rename_i point fraction rest
    split at h
    · rename_i shape
      obtain rfl := Option.some.inj h
      simp only [Bool.and_eq_true, Bool.not_eq_true', List.isEmpty_eq_false_iff, List.all_eq_true]
        at shape
      have some : 0 < (cs.takeWhile Char.isDigit).length := List.length_pos_of_ne_nil shape.1.1.2
      rw [rest, List.length_cons] at size
      refine .inr ⟨by simp only; omega, ?_⟩
      have long : (cs.takeWhile Char.isDigit ++ fraction).length = cs.length - 1 := by
        rw [List.length_append, size]
        omega
      rw [← long]
      apply digitsValue_lt
      intro c mem
      rcases List.mem_append.mp mem with h | h
      · exact takeWhile_digits cs c h
      · exact shape.2 c h
    · cases h

/-- A number of GiB of 20 characters, at most 1048576, is rounded to whole bytes only if it denotes
whole bytes. -/
theorem gibibytes_exact (short : d = 0 ∨ d ≤ 18 ∧ n < 10 ^ 19) (bound : n ≤ 1048576 * 10 ^ d)
    (whole : 10 ^ d ∣ toPrecision 28 (n * 1024 ^ 3)) :
    toPrecision 28 (n * 1024 ^ 3) = n * 1024 ^ 3 := by
  by_cases small : n * 1024 ^ 3 < 10 ^ 28
  · exact toPrecision_small small
  · have places : 13 ≤ d ∧ n < 10 ^ 19 := by
      have few : d ≤ 12 → False := by
        intro few
        have : 10 ^ d ≤ 10 ^ 12 := Nat.pow_le_pow_right (by decide) few
        omega
      rcases short with zero | ⟨-, digits⟩
      · exact (few (by omega)).elim
      · exact ⟨Nat.lt_of_not_le few, digits⟩
    -- One digit is too many, and the powers of two in the unit are not lost with it.
    have one : excess 28 (n * 1024 ^ 3) ≤ 1 := by
      have log := log_lt_of_lt_pow (n := n * 1024 ^ 3) (k := 29) (by omega) (by omega)
      unfold excess
      omega
    have last : 10 ^ excess 28 (n * 1024 ^ 3) ≤ 10 := by
      have := Nat.pow_le_pow_right (n := 10) (by decide) one
      omega
    obtain ⟨high, low⟩ := toPrecision_near 28 (n * 1024 ^ 3)
    have even : 2 ^ 13 ∣ 10 ^ d := by
      refine Nat.dvd_trans ?_ (Nat.pow_dvd_pow 10 places.1)
      decide
    obtain ⟨a, ha⟩ := Nat.dvd_trans even whole
    omega

end FreeSdn.Hypervisor
