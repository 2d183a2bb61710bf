import FreeSdn.Lib.Utf8
import Mathlib.Algebra.Ring.Int.Defs
import Mathlib.Algebra.Ring.Nat
import Mathlib.Tactic.Ring

/-! The basic encoding rules with definite lengths: which octets write a length, a field with its
identifier octet, a number and an object identifier, and what stands at an offset of some data. -/

namespace FreeSdn.Lib.Ber

abbrev Octets := List UInt8

/-! ### What stands at an offset -/

section

variable {α : Type} {data xs ys : List α} {x : α} {i : Nat}

/-- The data has `xs` at offset `i`. -/
def At (data : List α) (i : Nat) (xs : List α) : Prop := xs <+: data.drop i

theorem At.nil : At data i [] := List.nil_prefix

theorem At.cons : At data i (x :: xs) ↔ data[i]? = some x ∧ At data (i + 1) xs := by
  unfold At
  rw [← List.tail_drop, ← List.head?_drop]
  cases data.drop i with
  | nil => simp
  | cons y rest =>
    rw [List.cons_prefix_cons, List.head?_cons, List.tail_cons]
    exact and_congr_left fun _ => ⟨fun h => by rw [h], fun h => (Option.some.inj h).symm⟩

theorem At.append : At data i (xs ++ ys) ↔ At data i xs ∧ At data (i + xs.length) ys := by
  induction xs generalizing i with
  | nil => exact ⟨fun h => ⟨.nil, h⟩, fun h => h.2⟩
  | cons x xs ih =>
    have shift : i + (x :: xs).length = i + 1 + xs.length := by
      rw [List.length_cons]
      omega
    rw [List.cons_append, At.cons, At.cons, ih, shift, and_assoc]

theorem At.take (h : At data i xs) : (data.drop i).take xs.length = xs :=
  (List.prefix_iff_eq_take.mp h).symm

theorem At.bound (h : At data i xs) (some : xs ≠ []) : i + xs.length ≤ data.length := by
  have size : xs.length ≤ data.length - i := by
    have := h.length_le
    rwa [List.length_drop] at this
  have positive := List.length_pos_iff.mpr some
  omega

theorem At.self : At data 0 data := List.prefix_rfl

end

/-! ### Numbers -/

/-- The number that octets write, the most significant first. -/
def number (bs : Octets) : Nat := bs.foldl (fun n b => 256 * n + b.toNat) 0

/-- `v` is the number that octets write in two's complement. -/
structure Signed (v : Int) (bs : Octets) : Prop where
  some : bs ≠ []
  low : -((256 ^ bs.length : Nat) : Int) ≤ 2 * v
  high : 2 * v < ((256 ^ bs.length : Nat) : Int)
  value : ((number bs : Nat) : Int) = v % ((256 ^ bs.length : Nat) : Int)

/-! ### Fields -/

/-- The octets before `size` octets of contents: the short form, or a long form, which may have
zeros in front. -/
inductive Length : Nat → Octets → Prop
  | short (size : Nat) (small : size < 128) : Length size [UInt8.ofNat size]
  | long (digits : Octets) (some : digits ≠ []) (few : digits.length < 127) :
    Length (number digits) (UInt8.ofNat (128 + digits.length) :: digits)

/-- A field: its identifier octet, the length and the contents. -/
inductive Field (tag : UInt8) (contents : Octets) : Octets → Prop
  | mk {length : Octets} (size : Length contents.length length) :
    Field tag contents (tag :: (length ++ contents))

theorem Length.ne_nil {size : Nat} {bs : Octets} (h : Length size bs) : bs ≠ [] := by
  cases h with
  | short => exact List.cons_ne_nil _ _
  | long => exact List.cons_ne_nil _ _

theorem Field.short {tag : UInt8} {contents : Octets} (small : contents.length < 128) :
    Field tag contents (tag :: UInt8.ofNat contents.length :: contents) :=
  .mk (.short contents.length small)

theorem Field.ne_nil {tag : UInt8} {contents bs : Octets} (h : Field tag contents bs) :
    bs ≠ [] := by
  cases h with
  | mk => exact List.cons_ne_nil _ _

/-! ### Object identifiers -/

/-- The digits of a subidentifier above its last, each with the continuation bit. -/
def upperDigits (n : Nat) : Octets :=
  if n = 0 then [] else upperDigits (n / 128) ++ [UInt8.ofNat (128 + n % 128)]

def subidentifier (n : Nat) : Octets := upperDigits (n / 128) ++ [UInt8.ofNat (n % 128)]

/-- At least two arcs, of which the second is below 40 unless the first is 2. -/
structure Identifier where
  first : Nat
  second : Nat
  later : List Nat
  valid : first < 2 ∧ second < 40 ∨ first = 2

def Identifier.arcs (o : Identifier) : List Nat := o.first :: o.second :: o.later

/-- The first two arcs share a subidentifier. -/
def Identifier.subidentifiers (o : Identifier) : List Nat := (40 * o.first + o.second) :: o.later

def Identifier.contents (o : Identifier) : Octets := o.subidentifiers.flatMap subidentifier

theorem subidentifier_small {n : Nat} (small : n < 128) : subidentifier n = [UInt8.ofNat n] := by
  have zero : n / 128 = 0 := by omega
  have mod : n % 128 = n := by omega
  rw [subidentifier, zero, mod, upperDigits, if_pos rfl, List.nil_append]

/-- A subidentifier of more than one digit starts with the continuation bit, on a digit that is not
zero. -/
theorem subidentifier_large {n : Nat} (large : 128 ≤ n) :
    ∃ b rest, subidentifier n = b :: rest ∧ 128 < b.toNat := by
  suffices upper : ∀ m, m ≠ 0 → ∃ b rest, upperDigits m = b :: rest ∧ 128 < b.toNat by
    obtain ⟨b, rest, digits, continued⟩ := upper (n / 128) (by omega)
    exact ⟨b, rest ++ [UInt8.ofNat (n % 128)], by rw [subidentifier, digits]; rfl, continued⟩
  intro m
  induction m using Nat.strongRecOn with
  | ind m ih =>
    intro positive
    rw [upperDigits, if_neg positive]
    by_cases single : m / 128 = 0
    · refine ⟨UInt8.ofNat (128 + m % 128), [], ?_, ?_⟩
      · rw [single, upperDigits, if_pos rfl, List.nil_append]
      · rw [UInt8.toNat_ofNat']
        omega
    · obtain ⟨b, rest, digits, continued⟩ := ih (m / 128) (by omega) single
      exact ⟨b, rest ++ [UInt8.ofNat (128 + m % 128)], by rw [digits]; rfl, continued⟩

theorem Identifier.contents_small {o : Identifier} (small : 40 * o.first + o.second < 128) :
    o.contents = UInt8.ofNat (40 * o.first + o.second) :: o.later.flatMap subidentifier := by
  rw [Identifier.contents, Identifier.subidentifiers, List.flatMap_cons, subidentifier_small small]
  rfl

theorem Identifier.contents_ne_nil (o : Identifier) : o.contents ≠ [] := by
  simp [Identifier.contents, Identifier.subidentifiers, subidentifier]

end FreeSdn.Lib.Ber
