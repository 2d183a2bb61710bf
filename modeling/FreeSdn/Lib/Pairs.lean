import Mathlib.Data.List.Forall2
import Mathlib.Data.List.Range
import Mathlib.Data.List.Nodup

/-! The pairs of the members of a list at different positions, as `itertools.combinations(l, 2)` lists
them. -/

namespace FreeSdn.Lib

variable {α β γ : Type} {l : List α}

/-- Every member with every later one. -/
def pairs : List α → List (α × α)
  | [] => []
  | x :: xs => xs.map (fun y => (x, y)) ++ pairs xs

theorem pairs_map (f : α → β) : pairs (l.map f) = (pairs l).map (Prod.map f f) := by
  induction l with
  | nil => rfl
  | cons x xs ih =>
    rw [List.map_cons, pairs, pairs, List.map_append, ih, List.map_map, List.map_map]
    rfl

/-- The pairs of what a function finds. -/
theorem pairs_filterMap (f : α → Option β) : pairs (l.filterMap f) =
    (pairs l).filterMap fun p => (f p.1).bind fun a => (f p.2).map fun b => (a, b) := by
  induction l with
  | nil => rfl
  | cons x xs ih =>
    rw [pairs, List.filterMap_append, List.filterMap_map, ← ih]
    cases found : f x with
    | none =>
      have nothing : xs.filterMap ((fun p => (f p.1).bind fun a => (f p.2).map fun b => (a, b)) ∘
          fun y => (x, y)) = [] := by simp [found]
      rw [List.filterMap_cons_none found, nothing, List.nil_append]
    | some a =>
      have firsts : xs.filterMap ((fun p => (f p.1).bind fun a => (f p.2).map fun b => (a, b)) ∘
          fun y => (x, y)) = (xs.filterMap f).map fun b => (a, b) := by
        rw [List.map_filterMap]
        apply List.filterMap_congr
        intro y _
        simp [found]
      rw [List.filterMap_cons_some found, firsts, pairs]

theorem mem_of_mem_pairs {p : α × α} (mem : p ∈ pairs l) : p.1 ∈ l ∧ p.2 ∈ l := by
  induction l with
  | nil => cases mem
  | cons x xs ih =>
    rcases List.mem_append.mp mem with first | later
    · obtain ⟨y, here, rfl⟩ := List.mem_map.mp first
      exact ⟨List.mem_cons_self, List.mem_cons_of_mem x here⟩
    · exact ⟨List.mem_cons_of_mem x (ih later).1, List.mem_cons_of_mem x (ih later).2⟩

theorem nodup_pairs (distinct : l.Nodup) : (pairs l).Nodup := by
  induction l with
  | nil => exact List.nodup_nil
  | cons x xs ih =>
    rw [List.nodup_cons] at distinct
    refine List.nodup_append.mpr ⟨distinct.2.map fun a b same => (Prod.mk.inj same).2, ih distinct.2, ?_⟩
    rintro p first q later rfl
    obtain ⟨y, -, rfl⟩ := List.mem_map.mp first
    exact distinct.1 (mem_of_mem_pairs later).1

/-- The pairs of the members with their positions. -/
theorem mem_pairs_zipIdx {x y : α} {i j start : Nat} : ((x, i), (y, j)) ∈ pairs (l.zipIdx start) ↔
    start ≤ i ∧ i < j ∧ l[i - start]? = some x ∧ l[j - start]? = some y := by
  induction l generalizing start with
  | nil => simp [pairs]
  | cons z l ih =>
    have behind (k : Nat) (later : start + 1 ≤ k) : (z :: l)[k - start]? = l[k - (start + 1)]? := by
      rw [show k - start = k - (start + 1) + 1 by omega, List.getElem?_cons_succ]
    rw [List.zipIdx_cons, pairs, List.mem_append, ih, List.mem_map]
    constructor
    · rintro (⟨⟨b, k⟩, mem, same⟩ | ⟨first, order, here, there⟩)
      · obtain ⟨⟨rfl, rfl⟩, rfl, rfl⟩ : (z = x ∧ start = i) ∧ b = y ∧ k = j := by simpa using same
        obtain ⟨later, found⟩ := List.mk_mem_zipIdx_iff_le_and_getElem?_sub.mp mem
        refine ⟨Nat.le_refl start, later, by simp, ?_⟩
        rw [behind k later]
        exact found
      · rw [behind i first, behind j (by omega)]
        exact ⟨by omega, order, here, there⟩
    · rintro ⟨first, order, here, there⟩
      rw [behind j (by omega)] at there
      rcases Nat.eq_or_lt_of_le first with rfl | later
      · left
        rw [Nat.sub_self, List.getElem?_cons_zero] at here
        obtain rfl := Option.some.inj here
        exact ⟨(y, j), List.mk_mem_zipIdx_iff_le_and_getElem?_sub.mpr ⟨order, there⟩, rfl⟩
      · rw [behind i later] at here
        exact .inr ⟨later, order, here, there⟩

/-- What is found for some members of a list, beside those members. -/
theorem forall₂_filterMap {R : β → γ → Prop} {g : α → Option γ} {h : α → β}
    (each : ∀ x ∈ l, ∀ c, g x = some c → R (h x) c) :
    List.Forall₂ R ((l.filter fun x => (g x).isSome).map h) (l.filterMap g) := by
  induction l with
  | nil => exact .nil
  | cons x xs ih =>
    have rest := ih fun y mem => each y (List.mem_cons_of_mem x mem)
    cases found : g x with
    | none =>
      rw [List.filterMap_cons_none found, List.filter_cons_of_neg (by simp [found])]
      exact rest
    | some c =>
      rw [List.filterMap_cons_some found, List.filter_cons_of_pos (by simp [found]), List.map_cons]
      exact .cons (each x List.mem_cons_self c found) rest

end FreeSdn.Lib
