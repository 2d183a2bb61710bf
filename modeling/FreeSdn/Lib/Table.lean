import Mathlib.Data.List.Nodup

/-! Tables: lists of rows with a key, which the primary key keeps distinct. -/

namespace FreeSdn.Lib

/-- Rows that a primary key identifies. -/
class Keyed (ρ : Type*) (κ : outParam Type*) where
  key : ρ → κ

namespace Table

variable {ρ κ : Type*} [Keyed ρ κ] [DecidableEq κ] {rows : List ρ} {k l : κ} {f : ρ → ρ} {r s : ρ}

open Keyed

/-- The row with key `k`. -/
def lookup (rows : List ρ) (k : κ) : Option ρ := rows.find? fun r => key r = k

/-- The rows, with `f` applied to the one with key `k`. -/
def update (rows : List ρ) (k : κ) (f : ρ → ρ) : List ρ :=
  rows.map fun r => if key r = k then f r else r

/-- The rows without the one with key `k`. -/
def remove (rows : List ρ) (k : κ) : List ρ := rows.filter fun r => key r ≠ k

/-- No two rows share a key. -/
def Unique (rows : List ρ) : Prop := (rows.map key).Nodup

instance : Decidable (Unique rows) := inferInstanceAs (Decidable (List.Nodup _))

theorem lookup_mem (h : lookup rows k = some r) : r ∈ rows := List.mem_of_find?_eq_some h

theorem lookup_key (h : lookup rows k = some r) : key r = k := by
  have := List.find?_some h
  simpa using this

omit [DecidableEq κ] in
theorem unique_nil : Unique ([] : List ρ) := by simp [Unique]

omit [DecidableEq κ] in
theorem unique_cons : Unique (r :: rows) ↔ (∀ s ∈ rows, key s ≠ key r) ∧ Unique rows := by
  simp only [Unique, List.map_cons, List.nodup_cons, List.mem_map, not_exists, not_and]

theorem Unique.lookup (unique : Unique rows) (mem : r ∈ rows) : lookup rows (key r) = some r := by
  induction rows with
  | nil => simp at mem
  | cons s rows ih =>
    obtain ⟨fresh, rest⟩ := unique_cons.mp unique
    rcases List.mem_cons.mp mem with rfl | mem
    · simp [Table.lookup]
    · have other : key s ≠ key r := (fresh r mem).symm
      simpa [Table.lookup, other] using ih rest mem

theorem Unique.eq (unique : Unique rows) (hr : r ∈ rows) (hs : s ∈ rows) (same : key r = key s) :
    r = s := by
  have first := unique.lookup hr
  rw [same, unique.lookup hs] at first
  exact (Option.some.inj first).symm

theorem lookup_none : lookup rows k = none ↔ ∀ r ∈ rows, key r ≠ k := by
  simp [lookup, List.find?_eq_none]

theorem mem_update : r ∈ update rows k f ↔ ∃ s ∈ rows, r = if key s = k then f s else s := by
  simp only [update, List.mem_map, eq_comm]

omit [DecidableEq κ] in
theorem Unique.map (unique : Unique rows) (keeps : ∀ r ∈ rows, key (f r) = key r) :
    Unique (rows.map f) := by
  have same : (rows.map f).map key = rows.map key := by
    rw [List.map_map]
    exact List.map_congr_left keeps
  rw [Unique, same]
  exact unique

theorem lookup_map (keeps : ∀ r ∈ rows, key (f r) = key r) :
    lookup (rows.map f) k = (lookup rows k).map f := by
  induction rows with
  | nil => rfl
  | cons s rows ih =>
    have rest := ih fun r mem => keeps r (List.mem_cons_of_mem s mem)
    have first := keeps s List.mem_cons_self
    by_cases here : key s = k
    · simp [lookup, first, here]
    · simpa [lookup, first, here] using rest

omit [DecidableEq κ] in
/-- At most one row meets a condition that leaves only one key. -/
theorem Unique.length_filter_le_one (unique : Unique rows) {p : ρ → Bool}
    (one : ∀ r ∈ rows, ∀ s ∈ rows, p r = true → p s = true → key r = key s) :
    (rows.filter p).length ≤ 1 := by
  have kept : ((rows.filter p).map key).Nodup :=
    List.Nodup.sublist (List.Sublist.map key List.filter_sublist) unique
  match found : rows.filter p with
  | [] => simp
  | [_] => simp
  | r :: s :: rest =>
    have inside {q : ρ} (mem : q ∈ r :: s :: rest) : q ∈ rows ∧ p q = true := by
      rw [← found] at mem
      exact List.mem_filter.mp mem
    obtain ⟨hr, pr⟩ := inside (q := r) (by simp)
    obtain ⟨hs, ps⟩ := inside (q := s) (by simp)
    rw [found] at kept
    have same := one r hr s hs pr ps
    simp [same] at kept

/-- An update keeps the keys when it does so on the row it changes. -/
theorem update_keeps (keeps : ∀ r ∈ rows, key r = k → key (f r) = k) :
    ∀ r ∈ rows, key (if key r = k then f r else r) = key r := by
  intro r mem
  by_cases here : key r = k
  · rw [if_pos here, keeps r mem here, here]
  · rw [if_neg here]

omit [DecidableEq κ] in
theorem Unique.append (unique : Unique rows) (fresh : ∀ s ∈ rows, key s ≠ key r) :
    Unique (rows ++ [r]) := by
  simp only [Unique, List.map_append, List.map_cons, List.map_nil]
  refine List.nodup_append.mpr ⟨unique, by simp, ?_⟩
  rintro a old b last rfl
  obtain ⟨s, mem, rfl⟩ := List.mem_map.mp old
  simp only [List.mem_singleton] at last
  exact fresh s mem last

theorem Unique.remove (unique : Unique rows) : Unique (remove rows k) :=
  List.Nodup.sublist (List.Sublist.map key List.filter_sublist) unique

/-- An update changes one row in its place. -/
theorem Unique.update_split (unique : Unique rows) (h : Table.lookup rows k = some r) :
    ∃ a b, rows = a ++ r :: b ∧ update rows k f = a ++ f r :: b := by
  induction rows with
  | nil => simp [Table.lookup] at h
  | cons s rows ih =>
    obtain ⟨fresh, rest⟩ := unique_cons.mp unique
    by_cases here : key s = k
    · simp only [Table.lookup, List.find?_cons, here, decide_true, Option.some.injEq] at h
      subst h
      have others : update rows k f = rows := by
        refine (List.map_congr_left fun q mem => ?_).trans (List.map_id rows)
        have other : key q ≠ k := here ▸ fresh q mem
        simp [other]
      exact ⟨[], rows, rfl, by simp [update, here]; exact others⟩
    · have found : Table.lookup rows k = some r := by simpa [Table.lookup, here] using h
      obtain ⟨a, b, rfl, changed⟩ := ih rest found
      refine ⟨s :: a, b, rfl, ?_⟩
      rw [List.cons_append, ← changed]
      simp [update, here]

/-- Two updates of the same row. -/
theorem update_update {g : ρ → ρ} (keeps : ∀ r, key (f r) = key r) :
    update (update rows k f) k g = update rows k (g ∘ f) := by
  unfold update
  rw [List.map_map]
  refine List.map_congr_left fun r _ => ?_
  by_cases here : key r = k
  · simp [here, keeps]
  · simp [here]

/-- The rows after an update: the changed one, and the others. -/
theorem Unique.mem_update (unique : Unique rows) (found : Table.lookup rows k = some r) :
    s ∈ update rows k f ↔ s = f r ∨ (s ∈ rows ∧ key s ≠ k) := by
  rw [Table.mem_update]
  constructor
  · rintro ⟨q, mem, rfl⟩
    by_cases here : key q = k
    · have same : q = r := unique.eq mem (lookup_mem found) (here.trans (lookup_key found).symm)
      exact .inl (by rw [if_pos here, same])
    · exact .inr (by simpa [if_neg here] using ⟨mem, here⟩)
  · rintro (rfl | ⟨mem, other⟩)
    · exact ⟨r, lookup_mem found, by rw [if_pos (lookup_key found)]⟩
    · exact ⟨s, mem, by rw [if_neg other]⟩

/-- A row and the others. -/
theorem Unique.remove_perm (unique : Unique rows) (h : Table.lookup rows k = some r) :
    rows.Perm (r :: Table.remove rows k) := by
  induction rows with
  | nil => simp [Table.lookup] at h
  | cons s rows ih =>
    obtain ⟨fresh, rest⟩ := unique_cons.mp unique
    by_cases here : key s = k
    · simp only [Table.lookup, List.find?_cons, here, decide_true, Option.some.injEq] at h
      subst h
      have others : Table.remove rows k = rows :=
        List.filter_eq_self.mpr fun q mem => decide_eq_true (here ▸ fresh q mem)
      have gone : Table.remove (s :: rows) k = rows := by
        simp only [Table.remove, List.filter_cons, here, ne_eq, not_true_eq_false, decide_false]
        exact others
      rw [gone]
    · have found : Table.lookup rows k = some r := by simpa [Table.lookup, here] using h
      have kept : Table.remove (s :: rows) k = s :: Table.remove rows k := by
        simp [Table.remove, here]
      rw [kept]
      exact ((ih rest found).cons s).trans (.swap r s _)

theorem mem_remove : r ∈ remove rows k ↔ r ∈ rows ∧ key r ≠ k := by
  simp [remove]

end Table

end FreeSdn.Lib
