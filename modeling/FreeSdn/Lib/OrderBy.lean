import Mathlib.Data.List.Dedup
import Mathlib.Data.List.MinMax
import Mathlib.Data.List.Sort
import Mathlib.Order.Defs.LinearOrder

/-! Rows in the order of a key, as `ORDER BY` returns them. -/

namespace FreeSdn.Lib

variable {ρ κ : Type*} [LinearOrder κ] {key : ρ → κ} {rows first rest : List ρ} {r : ρ}

/-- The rows by ascending key. -/
def orderBy (key : ρ → κ) (rows : List ρ) : List ρ :=
  rows.insertionSort fun a b => key a ≤ key b

/-- Equal keys mean equal rows. -/
def Distinct (key : ρ → κ) (rows : List ρ) : Prop :=
  ∀ a ∈ rows, ∀ b ∈ rows, key a = key b → a = b

theorem orderBy_perm (key : ρ → κ) (rows : List ρ) : (orderBy key rows).Perm rows :=
  List.perm_insertionSort _ rows

theorem mem_orderBy : r ∈ orderBy key rows ↔ r ∈ rows := (orderBy_perm key rows).mem_iff

theorem length_orderBy : (orderBy key rows).length = rows.length := (orderBy_perm key rows).length_eq

theorem orderBy_sorted (key : ρ → κ) (rows : List ρ) :
    (orderBy key rows).Pairwise fun a b => key a ≤ key b := by
  have : Std.Total fun a b : ρ => key a ≤ key b := ⟨fun a b => le_total (key a) (key b)⟩
  have : IsTrans ρ fun a b : ρ => key a ≤ key b := ⟨fun _ _ _ => le_trans⟩
  exact List.pairwise_insertionSort _ rows

/-- Any sorted arrangement of the rows is the order. -/
theorem orderBy_eq (distinct : Distinct key rows) (perm : first.Perm rows)
    (sorted : first.Pairwise fun a b => key a ≤ key b) : orderBy key rows = first := by
  refine List.Perm.eq_of_pairwise ?_ (orderBy_sorted key rows) sorted
    ((orderBy_perm key rows).trans perm.symm)
  intro a b ha hb ab ba
  exact distinct a (mem_orderBy.mp ha) b (perm.mem_iff.mp hb) (le_antisymm ab ba)

/-- Distinct rows are strictly ordered. -/
theorem orderBy_strict (distinct : Distinct key rows) (nodup : rows.Nodup) :
    (orderBy key rows).Pairwise fun a b => key a < key b := by
  have different : (orderBy key rows).Nodup := (orderBy_perm key rows).nodup_iff.mpr nodup
  refine ((orderBy_sorted key rows).and different).imp_of_mem ?_
  rintro a b ha hb ⟨le, ne⟩
  refine lt_of_le_of_ne le fun same => ne ?_
  exact distinct a (mem_orderBy.mp ha) b (mem_orderBy.mp hb) same

/-- The first row has the least key. -/
theorem orderBy_head (h : orderBy key rows = r :: rest) {a : ρ} (mem : a ∈ rows) : key r ≤ key a := by
  have sorted := orderBy_sorted key rows
  rw [h, List.pairwise_cons] at sorted
  have here : a ∈ orderBy key rows := mem_orderBy.mpr mem
  rw [h] at here
  rcases List.mem_cons.mp here with rfl | later
  · exact le_refl _
  · exact sorted.1 a later

/-- The last row has the greatest key. -/
theorem orderBy_last (h : (orderBy key rows).getLast? = some r) :
    r ∈ rows ∧ ∀ a ∈ rows, key a ≤ key r := by
  obtain ⟨before, eq⟩ := List.getLast?_eq_some_iff.mp h
  have sorted := orderBy_sorted key rows
  rw [eq, List.pairwise_append] at sorted
  refine ⟨mem_orderBy.mp (List.mem_of_getLast? h), ?_⟩
  intro a mem
  have here : a ∈ orderBy key rows := mem_orderBy.mpr mem
  rw [eq] at here
  rcases List.mem_append.mp here with first | last
  · exact sorted.2.2 a first r (List.mem_singleton_self r)
  · rw [List.mem_singleton.mp last]

/-- Among rows with different keys, `argmin` finds the one of the least key. -/
theorem argmin_eq_some (distinct : Distinct key rows) :
    rows.argmin key = some r ↔ r ∈ rows ∧ ∀ a ∈ rows, key r ≤ key a := by
  constructor
  · exact fun h => ⟨List.argmin_mem h, fun a mem => List.le_of_mem_argmin mem h⟩
  · rintro ⟨mem, least⟩
    cases found : rows.argmin key with
    | none => exact absurd mem (by simp [List.argmin_eq_none.mp found])
    | some a =>
      have here := List.argmin_mem found
      rw [distinct a here r mem (le_antisymm (List.le_of_mem_argmin mem found) (least a here))]

/-- The least row depends on the rows alone, not on their arrangement. -/
theorem argmin_congr (distinct : Distinct key rows) (same : ∀ a, a ∈ rows ↔ a ∈ first) :
    first.argmin key = rows.argmin key := by
  have other : Distinct key first :=
    fun a ha b hb eq => distinct a ((same a).mpr ha) b ((same b).mpr hb) eq
  cases found : rows.argmin key with
  | none =>
    rw [List.argmin_eq_none, List.eq_nil_iff_forall_not_mem]
    intro a mem
    have here := (same a).mpr mem
    rw [List.argmin_eq_none.mp found] at here
    exact List.not_mem_nil here
  | some r =>
    obtain ⟨mem, least⟩ := (argmin_eq_some distinct).mp found
    exact (argmin_eq_some other).mpr ⟨(same r).mp mem, fun a ha => least a ((same a).mpr ha)⟩

/-- A row above all others comes last. -/
theorem orderBy_snoc (distinct : Distinct key rows) (above : ∀ a ∈ rows, key a < key r) :
    orderBy key (rows ++ [r]) = orderBy key rows ++ [r] := by
  refine orderBy_eq ?_ ((orderBy_perm key rows).append_right [r]) ?_
  · intro a ha b hb same
    rcases List.mem_append.mp ha with old | last <;> rcases List.mem_append.mp hb with old' | last'
    · exact distinct a old b old' same
    · rw [List.mem_singleton.mp last'] at same
      exact absurd same (above a old).ne
    · rw [List.mem_singleton.mp last] at same
      exact absurd same (above b old').ne'
    · rw [List.mem_singleton.mp last, List.mem_singleton.mp last']
  · refine List.pairwise_append.mpr ⟨orderBy_sorted key rows, by simp, ?_⟩
    intro a ha b hb
    obtain rfl := List.mem_singleton.mp hb
    exact (above a (mem_orderBy.mp ha)).le

/-- Without the rows of a prefix, the order is the rest. -/
theorem orderBy_filter (distinct : Distinct key rows) (order : orderBy key rows = first ++ rest)
    {keep : ρ → Bool} (drops : ∀ a ∈ first, keep a = false) (keeps : ∀ a ∈ rest, keep a = true) :
    orderBy key (rows.filter keep) = rest := by
  have sorted := orderBy_sorted key rows
  rw [order] at sorted
  refine orderBy_eq ?_ ?_ (List.pairwise_append.mp sorted).2.1
  · intro a ha b hb
    exact distinct a (List.mem_filter.mp ha).1 b (List.mem_filter.mp hb).1
  · have perm := (orderBy_perm key rows).filter keep
    rw [order, List.filter_append, List.filter_eq_nil_iff.mpr (fun a ha => by simp [drops a ha]),
      List.filter_eq_self.mpr keeps, List.nil_append] at perm
    exact perm

/-- Choosing rows and ordering them commute. -/
theorem orderBy_filter_comm (distinct : Distinct key rows) (keep : ρ → Bool) :
    orderBy key (rows.filter keep) = (orderBy key rows).filter keep := by
  apply orderBy_eq
  · intro a ha b hb
    exact distinct a (List.mem_filter.mp ha).1 b (List.mem_filter.mp hb).1
  · exact (orderBy_perm key rows).filter keep
  · exact (orderBy_sorted key rows).filter keep

/-! ### Groups -/

variable {keys : List κ} {k : κ}

/-- The rows of each key in turn, by ascending key: each group keeps its order. -/
def grouped (key : ρ → κ) (rows : List ρ) : List ρ :=
  ((rows.map key).dedup.insertionSort (· ≤ ·)).flatMap fun k => rows.filter (key · = k)

/-- Sorted rows begin with those of a least key. -/
theorem filter_least (sorted : rows.Pairwise fun a b => key a ≤ key b)
    (least : ∀ a ∈ rows, k ≤ key a) :
    rows.filter (key · = k) ++ rows.filter (key · ≠ k) = rows := by
  induction rows with
  | nil => rfl
  | cons r rows ih =>
    obtain ⟨first, rest⟩ := List.pairwise_cons.mp sorted
    by_cases own : key r = k
    · have later := ih rest fun a mem => least a (List.mem_cons_of_mem r mem)
      simp only [ne_eq, decide_not] at later
      simp [own, later]
    · have above : ∀ a ∈ r :: rows, key a ≠ k := by
        have lt : k < key r := lt_of_le_of_ne (least r List.mem_cons_self) (Ne.symm own)
        refine List.forall_mem_cons.mpr ⟨own, fun a mem => ?_⟩
        exact (lt_of_lt_of_le lt (first a mem)).ne'
      rw [List.filter_eq_nil_iff.mpr fun a mem => by simpa using above a mem,
        List.filter_eq_self.mpr fun a mem => by simpa using above a mem, List.nil_append]

theorem flatMap_groups (strict : keys.Pairwise (· < ·))
    (sorted : rows.Pairwise fun a b => key a ≤ key b) (all : ∀ a ∈ rows, key a ∈ keys) :
    (keys.flatMap fun k => rows.filter (key · = k)) = rows := by
  induction keys generalizing rows with
  | nil => rw [List.eq_nil_iff_forall_not_mem.mpr fun a mem => List.not_mem_nil (all a mem)]; rfl
  | cons k keys ih =>
    obtain ⟨above, strict⟩ := List.pairwise_cons.mp strict
    have least : ∀ a ∈ rows, k ≤ key a := by
      intro a mem
      rcases List.mem_cons.mp (all a mem) with same | later
      · exact same.ge
      · exact (above _ later).le
    have rest := ih strict (sorted.filter (key · ≠ k)) (by
      intro a mem
      obtain ⟨mem, other⟩ := List.mem_filter.mp mem
      exact (List.mem_cons.mp (all a mem)).resolve_left (of_decide_eq_true other))
    have groups : (keys.flatMap fun j => (rows.filter (key · ≠ k)).filter (key · = j)) =
        keys.flatMap fun j => rows.filter (key · = j) := by
      refine List.flatMap_congr fun j mem => ?_
      rw [List.filter_filter]
      refine List.filter_congr fun a _ => ?_
      by_cases own : key a = j
      · simp [own, (above j mem).ne']
      · simp [own]
    rw [groups] at rest
    rw [List.flatMap_cons, rest]
    exact filter_least sorted least

/-- Sorted rows are in the order of their groups. -/
theorem grouped_sorted (sorted : rows.Pairwise fun a b => key a ≤ key b) :
    grouped key rows = rows := by
  refine flatMap_groups ?_ sorted fun a mem => ?_
  · have ordered : (orderBy id (rows.map key).dedup).Pairwise fun a b => id a < id b :=
      orderBy_strict (fun a _ b _ same => same) (List.nodup_dedup _)
    exact ordered
  · rw [List.mem_insertionSort, List.mem_dedup]
    exact List.mem_map_of_mem mem

end FreeSdn.Lib
