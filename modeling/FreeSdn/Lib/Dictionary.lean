import Mathlib.Data.List.Nodup

/-! Dictionaries as lists of their members in the order of insertion: assignment keeps the place of
a key that is there and puts a new one last. -/

namespace FreeSdn.Lib.Dictionary

variable {κ β : Type} [DecidableEq κ] {d e : List (κ × β)} {k j : κ} {v : β} {m : κ × β}

/-- `d[k] = v`. -/
def setItem (d : List (κ × β)) (k : κ) (v : β) : List (κ × β) :=
  if d.any (·.1 = k) then d.map fun m => if m.1 = k then (k, v) else m else d ++ [(k, v)]

/-- `d.pop(k, None)`. -/
def pop (d : List (κ × β)) (k : κ) : List (κ × β) := d.filter (·.1 ≠ k)

/-- `d.update(e)`. -/
def update (d e : List (κ × β)) : List (κ × β) := e.foldl (fun d m => setItem d m.1 m.2) d

@[simp] theorem update_nil (d : List (κ × β)) : update d [] = d := rfl

@[simp] theorem update_cons (d : List (κ × β)) (m : κ × β) (e : List (κ × β)) :
    update d (m :: e) = update (setItem d m.1 m.2) e := rfl

theorem update_append (d e f : List (κ × β)) : update d (e ++ f) = update (update d e) f :=
  List.foldl_append

theorem mem_setItem (h : m ∈ setItem d k v) : m = (k, v) ∨ m.1 ≠ k ∧ m ∈ d := by
  unfold setItem at h
  split at h
  · obtain ⟨n, mem, eq⟩ := List.mem_map.mp h
    split at eq
    · exact .inl eq.symm
    · subst eq
      exact .inr ⟨‹_›, mem⟩
  · rename_i missing
    rcases List.mem_append.mp h with mem | last
    · refine .inr ⟨fun same => missing ?_, mem⟩
      exact List.any_eq_true.mpr ⟨m, mem, by simpa using same⟩
    · exact .inl (List.mem_singleton.mp last)

/-- A member after an update is a new one, or an old one that was not assigned. -/
theorem mem_update (h : m ∈ update d e) : m ∈ e ∨ m ∈ d ∧ ∀ n ∈ e, n.1 ≠ m.1 := by
  induction e generalizing d with
  | nil => exact .inr ⟨h, by simp⟩
  | cons n e ih =>
    rcases ih h with later | ⟨first, others⟩
    · exact .inl (List.mem_cons_of_mem n later)
    · rcases mem_setItem first with rfl | ⟨other, old⟩
      · exact .inl List.mem_cons_self
      · exact .inr ⟨old, List.forall_mem_cons.mpr ⟨Ne.symm other, others⟩⟩

/-- A new key comes last. -/
theorem setItem_new (new : ∀ m ∈ d, m.1 ≠ k) : setItem d k v = d ++ [(k, v)] := by
  rw [setItem, if_neg]
  simpa using fun b mem => new (k, b) mem rfl

/-- Assigning what is there changes nothing. -/
theorem setItem_same (here : ∃ m ∈ d, m.1 = k) (same : ∀ m ∈ d, m.1 = k → m.2 = v) :
    setItem d k v = d := by
  obtain ⟨m, mem, eq⟩ := here
  rw [setItem, if_pos (List.any_eq_true.mpr ⟨m, mem, by simpa using eq⟩)]
  conv => rhs; rw [← List.map_id d]
  apply List.map_congr_left
  intro n hn
  split
  · rename_i named
    rw [← named, ← same n hn named]
    rfl
  · rfl

/-- Assigning the first key. -/
theorem setItem_cons_self {w : β} (distinct : k ∉ d.map Prod.fst) :
    setItem ((k, w) :: d) k v = (k, v) :: d := by
  have others : (d.map fun m => if m.1 = k then (k, v) else m) = d := by
    conv => rhs; rw [← List.map_id d]
    apply List.map_congr_left
    intro m mem
    exact if_neg fun named => distinct (List.mem_map.mpr ⟨m, mem, named⟩)
  rw [setItem, if_pos (by simp), List.map_cons, if_pos rfl, others]

/-- Assigning another key passes the first by. -/
theorem setItem_cons_ne {w : β} (other : j ≠ k) :
    setItem ((j, w) :: d) k v = (j, w) :: setItem d k v := by
  have here : ((j, w) :: d).any (·.1 = k) = d.any (·.1 = k) := by simp [other]
  unfold setItem
  rw [here]
  split
  · rw [List.map_cons, if_neg other]
  · rfl

theorem lookup_append_ne (other : j ≠ k) :
    (d ++ [(k, v)]).lookup j = d.lookup j := by
  rw [List.lookup_append, List.lookup_cons, beq_false_of_ne other]
  simp

theorem lookup_map_ne (other : j ≠ k) :
    (d.map fun m => if m.1 = k then (k, v) else m).lookup j = d.lookup j := by
  induction d with
  | nil => rfl
  | cons m d ih =>
    obtain ⟨l, w⟩ := m
    rw [List.map_cons]
    by_cases named : l = k
    · rw [if_pos named, List.lookup_cons, List.lookup_cons, beq_false_of_ne other,
        beq_false_of_ne (named ▸ other)]
      exact ih
    · rw [if_neg named, List.lookup_cons, List.lookup_cons, ih]

/-- Other keys keep their values. -/
theorem lookup_setItem_ne (other : j ≠ k) : (setItem d k v).lookup j = d.lookup j := by
  unfold setItem
  split
  · exact lookup_map_ne other
  · exact lookup_append_ne other

theorem lookup_setItem_self : (setItem d k v).lookup k = some v := by
  unfold setItem
  split
  · rename_i here
    induction d with
    | nil => simp at here
    | cons m d ih =>
      obtain ⟨l, w⟩ := m
      by_cases named : l = k
      · simp [named]
      · have later : d.any (·.1 = k) = true := by simpa [named] using here
        rw [List.map_cons, if_neg named, List.lookup_cons, beq_false_of_ne (Ne.symm named)]
        exact ih later
  · rename_i missing
    have none : d.lookup k = none := by
      rw [List.lookup_eq_none_iff]
      intro m mem
      refine bne_iff_ne.mpr fun same => missing ?_
      exact List.any_eq_true.mpr ⟨m, mem, by simpa using same.symm⟩
    rw [List.lookup_append, none, Option.none_or]
    exact List.lookup_cons_self

/-- Keys that are not assigned keep their values. -/
theorem lookup_update_other (other : ∀ m ∈ e, m.1 ≠ j) : (update d e).lookup j = d.lookup j := by
  induction e generalizing d with
  | nil => rfl
  | cons m e ih =>
    rw [update_cons, ih fun n mem => other n (List.mem_cons_of_mem m mem),
      lookup_setItem_ne (Ne.symm (other m List.mem_cons_self))]

theorem mem_of_lookup (h : d.lookup k = some v) : (k, v) ∈ d := by
  obtain ⟨before, after, rfl, -⟩ := List.lookup_eq_some_iff.mp h
  exact List.mem_append_right _ List.mem_cons_self

/-- A key is found after an update that assigns it or finds it. -/
theorem isSome_lookup_update (h : (d.lookup k).isSome ∨ ∃ m ∈ e, m.1 = k) :
    ((update d e).lookup k).isSome := by
  induction e generalizing d with
  | nil => simpa using h
  | cons m e ih =>
    rw [update_cons]
    apply ih
    by_cases here : m.1 = k
    · left
      rw [here, lookup_setItem_self]
      rfl
    · rw [lookup_setItem_ne (Ne.symm here)]
      simpa [here] using h

/-- An update assigns the value under a key that it always gives the same value. -/
theorem lookup_update_const (here : ∃ m ∈ e, m.1 = k) (same : ∀ m ∈ e, m.1 = k → m.2 = v) :
    (update d e).lookup k = some v := by
  obtain ⟨w, found⟩ := Option.isSome_iff_exists.mp (isSome_lookup_update (d := d) (.inr here))
  rcases mem_update (mem_of_lookup found) with new | ⟨-, others⟩
  · rw [found]
    exact congrArg some (same _ new rfl)
  · obtain ⟨n, mem, eq⟩ := here
    exact absurd eq (others n mem)

theorem keys_map (d : List (κ × β)) (k : κ) (v : β) :
    (d.map fun m => if m.1 = k then (k, v) else m).map Prod.fst = d.map Prod.fst := by
  rw [List.map_map]
  apply List.map_congr_left
  intro m _
  show (if m.1 = k then (k, v) else m).1 = m.1
  split
  · exact Eq.symm ‹_›
  · rfl

/-- Assignment to a key that is there keeps the keys. -/
theorem keys_setItem (here : (d.lookup k).isSome) :
    (setItem d k v).map Prod.fst = d.map Prod.fst := by
  obtain ⟨w, found⟩ := Option.isSome_iff_exists.mp here
  have named : d.any (·.1 = k) = true :=
    List.any_eq_true.mpr ⟨_, mem_of_lookup found, decide_eq_true rfl⟩
  rw [setItem, if_pos named, keys_map]

theorem lookup_of_mem (distinct : (d.map Prod.fst).Nodup) (h : (k, v) ∈ d) :
    d.lookup k = some v := by
  cases found : d.lookup k with
  | none => exact absurd (List.lookup_eq_none_iff.mp found _ h) (by simp)
  | some w =>
    have same := List.inj_on_of_nodup_map distinct h (mem_of_lookup found) rfl
    rw [(Prod.mk.inj same).2]

/-- Assignment keeps the keys distinct. -/
theorem nodup_setItem (distinct : (d.map Prod.fst).Nodup) :
    ((setItem d k v).map Prod.fst).Nodup := by
  unfold setItem
  split
  · rw [keys_map]
    exact distinct
  · rename_i missing
    rw [List.map_append]
    refine List.nodup_append.mpr ⟨distinct, by simp, ?_⟩
    rintro j mem _ last rfl
    obtain rfl := List.mem_singleton.mp last
    obtain ⟨m, here, eq⟩ := List.mem_map.mp mem
    exact missing (List.any_eq_true.mpr ⟨m, here, by simpa using eq⟩)

theorem lookup_pop_self : (pop d k).lookup k = none :=
  List.lookup_eq_none_iff.mpr fun m mem => by
    simpa using fun same : k = m.1 => of_decide_eq_true (List.mem_filter.mp mem).2 same.symm

/-- Other keys stay. -/
theorem lookup_pop_ne (other : j ≠ k) : (pop d k).lookup j = d.lookup j := by
  unfold pop
  induction d with
  | nil => rfl
  | cons m d ih =>
    obtain ⟨l, w⟩ := m
    by_cases here : l = k
    · rw [List.filter_cons_of_neg (by simpa using here), ih, List.lookup_cons,
        beq_false_of_ne (here ▸ other)]
    · rw [List.filter_cons_of_pos (by simpa using here), List.lookup_cons, List.lookup_cons, ih]

theorem nodup_pop (distinct : (d.map Prod.fst).Nodup) : ((pop d k).map Prod.fst).Nodup :=
  distinct.sublist (List.filter_sublist.map Prod.fst)

end FreeSdn.Lib.Dictionary
