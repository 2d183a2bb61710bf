import Mathlib.Algebra.Order.Ring.Nat
import Mathlib.Data.Nat.Basic
import Mathlib.Data.Set.Basic

/-! Blocks of numbers whose size is a power of two and whose first number is a multiple of the size:
of two blocks that meet, one lies in the other. -/

namespace FreeSdn.Lib

variable {a b j k : Nat}

/-- The `2 ^ k` numbers from `first` on. -/
def block (first k : Nat) : Set Nat := {x | first ≤ x ∧ x < first + 2 ^ k}

theorem mem_block {x : Nat} : x ∈ block a j ↔ a ≤ x ∧ x < a + 2 ^ j := Iff.rfl

theorem first_mem_block : a ∈ block a j := ⟨Nat.le_refl a, Nat.lt_add_of_pos_right (Nat.two_pow_pos j)⟩

theorem last_mem_block : a + (2 ^ j - 1) ∈ block a j := by
  have size := Nat.two_pow_pos j
  rw [mem_block]
  omega

/-- Blocks lie in each other as their ends do. -/
theorem block_subset_iff : block a j ⊆ block b k ↔ b ≤ a ∧ a + (2 ^ j - 1) ≤ b + (2 ^ k - 1) := by
  have small := Nat.two_pow_pos j
  have large := Nat.two_pow_pos k
  constructor
  · intro inside
    have first := mem_block.mp (inside first_mem_block)
    have last := mem_block.mp (inside last_mem_block)
    omega
  · rintro ⟨first, last⟩ x mem
    rw [mem_block] at mem ⊢
    omega

/-- A block determines its first number and its size. -/
theorem block_eq_iff : block a j = block b k ↔ a = b ∧ j = k := by
  have small := Nat.two_pow_pos j
  have large := Nat.two_pow_pos k
  constructor
  · intro same
    have there := block_subset_iff.mp same.subset
    have back := block_subset_iff.mp same.symm.subset
    have first : a = b := by omega
    have size : 2 ^ j = 2 ^ k := by omega
    exact ⟨first, Nat.pow_right_injective (Nat.le_refl 2) size⟩
  · rintro ⟨rfl, rfl⟩
    rfl

/-- Blocks meet where an end of one is in the other. -/
theorem meet_iff : (block a j ∩ block b k).Nonempty ↔ a ∈ block b k ∨ a + (2 ^ j - 1) ∈ block b k ∨
    b ∈ block a j ∨ b + (2 ^ k - 1) ∈ block a j := by
  constructor
  · rintro ⟨x, here, there⟩
    simp only [mem_block] at here there ⊢
    omega
  · rintro (mem | mem | mem | mem)
    · exact ⟨a, first_mem_block, mem⟩
    · exact ⟨_, last_mem_block, mem⟩
    · exact ⟨b, mem, first_mem_block⟩
    · exact ⟨_, mem, last_mem_block⟩

/-- The smaller of two aligned blocks that meet lies in the larger one. -/
theorem block_subset_of_meet (here : 2 ^ j ∣ a) (there : 2 ^ k ∣ b) (smaller : j ≤ k)
    (meet : (block a j ∩ block b k).Nonempty) : block a j ⊆ block b k := by
  obtain ⟨m, rfl⟩ := here
  obtain ⟨n, rfl⟩ := (Nat.pow_dvd_pow 2 smaller).trans there
  obtain ⟨x, ⟨low, high⟩, low', high'⟩ := meet
  have size : 2 ^ k = 2 ^ j * 2 ^ (k - j) := by rw [← Nat.pow_add, Nat.add_sub_cancel' smaller]
  have positive := Nat.two_pow_pos j
  have first : n < m + 1 := by
    apply Nat.lt_of_mul_lt_mul_left (a := 2 ^ j)
    rw [Nat.mul_succ]
    omega
  have last : m < n + 2 ^ (k - j) := by
    apply Nat.lt_of_mul_lt_mul_left (a := 2 ^ j)
    rw [Nat.mul_add, ← size]
    omega
  have start : 2 ^ j * n ≤ 2 ^ j * m := Nat.mul_le_mul_left _ (Nat.le_of_lt_succ first)
  have stop : 2 ^ j * (m + 1) ≤ 2 ^ j * (n + 2 ^ (k - j)) := Nat.mul_le_mul_left _ last
  rw [Nat.mul_succ, Nat.mul_add, ← size] at stop
  rw [block_subset_iff]
  omega

/-- Aligned blocks that meet are nested. -/
theorem nested_of_meet (here : 2 ^ j ∣ a) (there : 2 ^ k ∣ b)
    (meet : (block a j ∩ block b k).Nonempty) : block a j ⊆ block b k ∨ block b k ⊆ block a j := by
  rcases Nat.le_total j k with smaller | larger
  · exact .inl (block_subset_of_meet here there smaller meet)
  · rw [Set.inter_comm] at meet
    exact .inr (block_subset_of_meet there here larger meet)

end FreeSdn.Lib
