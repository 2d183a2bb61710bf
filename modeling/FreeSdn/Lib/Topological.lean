import Mathlib.Data.List.Sort
import Mathlib.Data.Set.Finite.Basic
import Mathlib.Logic.Relation
import Mathlib.Order.WellFounded
import Mathlib.Data.Finite.Defs
import Mathlib.Order.Fin.Basic

/-! Orders of the nodes of a directed graph in which each node stands behind those that it depends on,
and the cycles that leave no such order. -/

namespace FreeSdn.Lib

variable {α : Type*} {deps : α → List α} {order : List α} {x : α}

/-- The order puts every node behind its dependencies. -/
def Ordered (deps : α → List α) (order : List α) : Prop :=
  ∀ before x after, order = before ++ x :: after → ∀ d ∈ deps x, d ∈ before

/-- Some chain of dependencies leads from a node back to it. -/
def Cyclic (deps : α → List α) : Prop := ∃ x, Relation.TransGen (fun d x => d ∈ deps x) x x

theorem Ordered.nil : Ordered deps [] := by
  intro before x after same
  simp at same

theorem Ordered.concat (ordered : Ordered deps order) (met : ∀ d ∈ deps x, d ∈ order) :
    Ordered deps (order ++ [x]) := by
  intro before y after same
  rcases List.eq_nil_or_concat after with rfl | ⟨after, z, rfl⟩
  · obtain ⟨rfl, last⟩ := List.append_inj' same rfl
    obtain rfl := List.singleton_inj.mp last
    exact met
  · rw [List.concat_eq_append, ← List.cons_append, ← List.append_assoc] at same
    obtain ⟨rfl, -⟩ := List.append_inj' same rfl
    exact ordered before y after rfl

/-- A node of an ordered list stands behind every node that it depends on, also through others. -/
theorem Ordered.before_of_transGen (ordered : Ordered deps order) {d x : α}
    (chain : Relation.TransGen (fun d x => d ∈ deps x) d x) {before after : List α}
    (same : order = before ++ x :: after) : d ∈ before := by
  induction chain generalizing before after with
  | single direct => exact ordered before _ after same _ direct
  | tail _ direct ih =>
    obtain ⟨first, rest, rfl⟩ := List.append_of_mem (ordered before _ after same _ direct)
    have early := @ih first (rest ++ _ :: after) (by simpa using same)
    exact List.mem_append_left _ early

/-- Nodes that can be ordered have no cycle. -/
theorem Ordered.acyclic (ordered : Ordered deps order) (distinct : order.Nodup)
    (all : ∀ x, deps x ≠ [] → x ∈ order) : ¬ Cyclic deps := by
  rintro ⟨x, cycle⟩
  have inside : x ∈ order := by
    obtain ⟨d, -, direct⟩ := Relation.TransGen.tail'_iff.mp cycle
    exact all x (List.ne_nil_of_mem direct)
  obtain ⟨before, after, rfl⟩ := List.append_of_mem inside
  have early := ordered.before_of_transGen cycle rfl
  rw [List.nodup_append] at distinct
  exact distinct.2.2 x early x List.mem_cons_self rfl

/-- Among finitely many nodes that all wait for one another there is a cycle. -/
theorem cyclic_of_waiting {waiting : List α} (some_ : waiting ≠ [])
    (each : ∀ x ∈ waiting, ∃ d ∈ deps x, d ∈ waiting) : Cyclic deps := by
  by_contra acyclic
  let behind : {x // x ∈ waiting} → {x // x ∈ waiting} → Prop :=
    fun d x => Relation.TransGen (fun d x => d ∈ deps x) d.val x.val
  have : IsTrans _ behind := ⟨fun _ _ _ => Relation.TransGen.trans⟩
  have : Std.Irrefl behind := ⟨fun x cycle => acyclic ⟨x.val, cycle⟩⟩
  have : Finite {x // x ∈ waiting} := List.finite_toSet waiting
  obtain ⟨first, mem⟩ := List.exists_mem_of_ne_nil waiting some_
  obtain ⟨least, -, minimal⟩ := (Finite.wellFounded_of_trans_of_irrefl behind).has_min Set.univ
    ⟨⟨first, mem⟩, trivial⟩
  obtain ⟨d, direct, here⟩ := each least.val least.property
  exact minimal ⟨d, here⟩ trivial (Relation.TransGen.single direct)

end FreeSdn.Lib
