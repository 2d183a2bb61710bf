import FreeSdn.Lib.Table

/-! Tables with a second key: an entry that is put takes the place of the one with its key, or else of
the one with its second key.  A list of puts keeps an entry unless a later one claims its place. -/

namespace FreeSdn.Lib

/-- A row, as its two keys see it. -/
structure Entry (κ π α : Type) where
  key : κ
  second : π
  value : α

namespace Entry

variable {κ π α : Type} [DecidableEq κ] [DecidableEq π] {t es pre post : List (Entry κ π α)}
  {e g h x y : Entry κ π α} {k : κ}

instance : Keyed (Entry κ π α) κ := ⟨key⟩

/-- The entry in whose place another is put. -/
def counterpart (t : List (Entry κ π α)) (e : Entry κ π α) : Option (Entry κ π α) :=
  (Table.lookup t e.key).or (t.find? fun x => x.second = e.second)

/-- The key under which an entry is put. -/
def seat (t : List (Entry κ π α)) (e : Entry κ π α) : κ := ((counterpart t e).map key).getD e.key

def put (t : List (Entry κ π α)) (e : Entry κ π α) : List (Entry κ π α) :=
  match counterpart t e with
  | some old => Table.update t old.key fun _ => { e with key := old.key }
  | none => t ++ [e]

/-! ### One entry -/

theorem seat_key (mem : x ∈ t) (same : x.key = e.key) : seat t e = e.key := by
  unfold seat counterpart
  cases found : Table.lookup t e.key with
  | none => exact absurd same (Table.lookup_none.mp found x mem)
  | some old => exact Table.lookup_key found

theorem seat_second (fresh : ∀ x ∈ t, x.key ≠ e.key) (mem : y ∈ t) (same : y.second = e.second) :
    ∃ x ∈ t, x.second = e.second ∧ seat t e = x.key := by
  have none : Table.lookup t e.key = none := Table.lookup_none.mpr fresh
  unfold seat counterpart
  rw [none, Option.none_or]
  cases found : t.find? fun x => x.second = e.second with
  | none => exact absurd (decide_eq_true same) (by simpa using List.find?_eq_none.mp found y mem)
  | some x => exact ⟨x, List.mem_of_find?_eq_some found, by simpa using List.find?_some found, rfl⟩

/-- An entry is put under its own key, or under that of an entry with its second key. -/
theorem seat_cases (t : List (Entry κ π α)) (e : Entry κ π α) : seat t e = e.key ∨
    (∀ x ∈ t, x.key ≠ e.key) ∧ ∃ x ∈ t, x.second = e.second ∧ seat t e = x.key := by
  by_cases known : ∃ x ∈ t, x.key = e.key
  · obtain ⟨x, mem, same⟩ := known
    exact .inl (seat_key mem same)
  have fresh : ∀ x ∈ t, x.key ≠ e.key := fun x mem same => known ⟨x, mem, same⟩
  by_cases there : ∃ y ∈ t, y.second = e.second
  · obtain ⟨y, mem, same⟩ := there
    exact .inr ⟨fresh, seat_second fresh mem same⟩
  · have none : counterpart t e = none := by
      refine Option.or_eq_none_iff.mpr ⟨Table.lookup_none.mpr fresh, List.find?_eq_none.mpr ?_⟩
      intro y mem same
      exact there ⟨y, mem, by simpa using same⟩
    exact .inl (by rw [seat, none]; rfl)

theorem counterpart_mem (found : counterpart t e = some y) : y ∈ t := by
  rcases Option.or_eq_some_iff.mp found with one | ⟨-, two⟩
  · exact Table.lookup_mem one
  · exact List.mem_of_find?_eq_some two

theorem counterpart_none (found : counterpart t e = none) : ∀ x ∈ t, x.key ≠ e.key :=
  Table.lookup_none.mp (Option.or_eq_none_iff.mp found).1

/-- The entries after a put: the new one, and the others. -/
theorem mem_put : x ∈ put t e ↔ x = { e with key := seat t e } ∨ (x ∈ t ∧ x.key ≠ seat t e) := by
  unfold put seat
  cases found : counterpart t e with
  | none =>
    have fresh := counterpart_none found
    rw [List.mem_append, List.mem_singleton, or_comm]
    exact or_congr_right ⟨fun mem => ⟨mem, fresh x mem⟩, And.left⟩
  | some old =>
    dsimp only [Option.map_some, Option.getD_some]
    rw [Table.mem_update]
    constructor
    · rintro ⟨s, mem, rfl⟩
      by_cases here : s.key = old.key
      · exact .inl (if_pos here)
      · rw [show (if Keyed.key s = old.key then { e with key := old.key } else s) = s from if_neg here]
        exact .inr ⟨mem, here⟩
    · rintro (rfl | ⟨mem, other⟩)
      · exact ⟨old, counterpart_mem found, (if_pos rfl).symm⟩
      · exact ⟨x, mem, (if_neg other).symm⟩

theorem put_unique (unique : Table.Unique t) : Table.Unique (put t e) := by
  unfold put
  cases found : counterpart t e with
  | none => exact unique.append (counterpart_none found)
  | some old => exact unique.map (Table.update_keeps fun r _ _ => rfl)

theorem put_keeps_key (mem : x ∈ t) : ∃ y ∈ put t e, y.key = x.key := by
  by_cases here : x.key = seat t e
  · exact ⟨_, mem_put.mpr (.inl rfl), here.symm⟩
  · exact ⟨x, mem_put.mpr (.inr ⟨mem, here⟩), rfl⟩

/-! ### A list of entries -/

theorem foldl_put_unique (unique : Table.Unique t) : Table.Unique (es.foldl put t) := by
  induction es generalizing t with
  | nil => exact unique
  | cons e es ih => exact ih (put_unique unique)

theorem foldl_put_key (mem : x ∈ t) : ∃ y ∈ es.foldl put t, y.key = x.key := by
  induction es generalizing t x with
  | nil => exact ⟨x, mem, rfl⟩
  | cons e es ih =>
    obtain ⟨y, there, same⟩ := put_keeps_key (e := e) mem
    obtain ⟨z, last, same'⟩ := ih there
    exact ⟨z, last, same'.trans same⟩

/-- What is there in the end was there before or was put. -/
theorem origin (mem : x ∈ es.foldl put t) :
    x ∈ t ∨ ∃ e ∈ es, x.second = e.second ∧ x.value = e.value := by
  induction es generalizing t with
  | nil => exact .inl mem
  | cons e es ih =>
    rcases ih mem with old | ⟨e', later, same⟩
    · rcases mem_put.mp old with rfl | ⟨before, -⟩
      · exact .inr ⟨e, List.mem_cons_self, rfl, rfl⟩
      · exact .inl before
    · exact .inr ⟨e', List.mem_cons_of_mem e later, same⟩

/-- An entry stays when no other has one of its keys. -/
theorem foldl_put_stays (unique : Table.Unique t) (mem : x ∈ t)
    (apart : ∀ e ∈ es, e.key ≠ x.key ∧ e.second ≠ x.second) : x ∈ es.foldl put t := by
  induction es generalizing t with
  | nil => exact mem
  | cons e es ih =>
    refine ih (put_unique unique) (mem_put.mpr (.inr ⟨mem, fun same => ?_⟩))
      fun e' later => apart e' (List.mem_cons_of_mem e later)
    obtain ⟨key, second⟩ := apart e List.mem_cons_self
    rcases seat_cases t e with own | ⟨-, y, there, equal, taken⟩
    · exact key (same.trans own).symm
    · have one : y = x := unique.eq there mem (same.trans taken).symm
      exact second (equal.symm.trans (congrArg Entry.second one))

/-! ### Places -/

/-- The entries are distinct in both keys. -/
def Distinct (es : List (Entry κ π α)) : Prop :=
  es.Pairwise fun e h => e.key ≠ h.key ∧ e.second ≠ h.second

/-- `g` is put in the place of an entry of `t` with its second key, which has the key of `h`. -/
def Displaces (t : List (Entry κ π α)) (g h : Entry κ π α) : Prop :=
  (∀ x ∈ t, x.key ≠ g.key) ∧ ∃ x ∈ t, x.second = g.second ∧ x.key = h.key

instance : Decidable (Displaces t g h) := inferInstanceAs (Decidable (_ ∧ _))

omit [DecidableEq κ] [DecidableEq π] in
theorem distinct_parts (distinct : Distinct (pre ++ g :: post)) :
    (∀ e ∈ pre, e.key ≠ g.key ∧ e.second ≠ g.second) ∧
      (∀ e ∈ post, e.key ≠ g.key ∧ e.second ≠ g.second) := by
  obtain ⟨-, behind, across⟩ := List.pairwise_append.mp distinct
  obtain ⟨later, -⟩ := List.pairwise_cons.mp behind
  refine ⟨fun e mem => across e mem g List.mem_cons_self, fun e mem => ?_⟩
  obtain ⟨key, second⟩ := later e mem
  exact ⟨key.symm, second.symm⟩

/-- An entry that no later one displaces is there in the end. -/
theorem stays (unique : Table.Unique t) (distinct : Distinct (pre ++ g :: post))
    (free : ∀ h ∈ post, ¬ Displaces t g h) :
    ∃ x ∈ (pre ++ g :: post).foldl put t, x.second = g.second ∧ x.value = g.value := by
  obtain ⟨before, after⟩ := distinct_parts distinct
  rw [List.foldl_append, List.foldl_cons]
  have unique' : Table.Unique (pre.foldl put t) := foldl_put_unique unique
  refine ⟨{ g with key := seat (pre.foldl put t) g }, ?_, rfl, rfl⟩
  refine foldl_put_stays (put_unique unique') (mem_put.mpr (.inl rfl)) fun h later =>
    ⟨fun same => ?_, (after h later).2⟩
  rcases seat_cases (pre.foldl put t) g with own | ⟨fresh, y, there, equal, taken⟩
  · exact (after h later).1 (same.trans own)
  · rcases origin there with old | ⟨e, mem, second, -⟩
    · refine free h later ⟨fun x mem named => ?_, y, old, equal, (same.trans taken).symm⟩
      obtain ⟨z, kept, key⟩ : ∃ z ∈ pre.foldl put t, z.key = x.key := foldl_put_key mem
      exact fresh z kept (key.trans named)
    · exact (before e mem).2 (second.symm.trans equal)

/-- The place of `g` is the entry with key `k`, which alone has the second key of `g`. -/
structure Waiting (t : List (Entry κ π α)) (g : Entry κ π α) (k : κ) : Prop where
  unique : Table.Unique t
  fresh : ∀ x ∈ t, x.key ≠ g.key
  here : ∃ x ∈ t, x.second = g.second
  only : ∀ x ∈ t, x.second = g.second → x.key = k

theorem Waiting.put (waiting : Waiting t g k) (other : e.key ≠ k)
    (either : e = g ∨ e.key ≠ g.key ∧ e.second ≠ g.second) : Waiting (put t e) g k := by
  obtain ⟨x, mem, same⟩ := waiting.here
  have key := waiting.only x mem same
  rcases either with rfl | ⟨apart, differs⟩
  · have seat_eq : seat t e = k := by
      obtain ⟨y, there, equal, taken⟩ := seat_second waiting.fresh mem same
      exact taken.trans (waiting.only y there equal)
    refine ⟨put_unique waiting.unique, fun z found => ?_, ⟨_, mem_put.mpr (.inl rfl), rfl⟩,
      fun z found second => ?_⟩
    · rcases mem_put.mp found with rfl | ⟨old, -⟩
      · rw [show ({ e with key := seat t e } : Entry κ π α).key = k from seat_eq]
        exact other.symm
      · exact waiting.fresh z old
    · rcases mem_put.mp found with rfl | ⟨old, -⟩
      · exact seat_eq
      · exact waiting.only z old second
  · have seat_ne : seat t e ≠ k ∧ seat t e ≠ g.key := by
      rcases seat_cases t e with own | ⟨-, y, there, equal, taken⟩
      · rw [own]
        exact ⟨other, apart⟩
      · rw [taken]
        refine ⟨fun place => differs ?_, waiting.fresh y there⟩
        have one : y = x := waiting.unique.eq there mem (place.trans key.symm)
        rw [← equal, one, same]
    refine ⟨put_unique waiting.unique, fun z found => ?_, ⟨x, ?_, same⟩, fun z found second => ?_⟩
    · rcases mem_put.mp found with rfl | ⟨old, -⟩
      · exact seat_ne.2
      · exact waiting.fresh z old
    · exact mem_put.mpr (.inr ⟨mem, fun place => seat_ne.1 (place.symm.trans key)⟩)
    · rcases mem_put.mp found with rfl | ⟨old, -⟩
      · exact absurd second differs
      · exact waiting.only z old second

theorem Waiting.foldl_put (waiting : Waiting t g k)
    (others : ∀ e ∈ es, e.key ≠ k ∧ (e = g ∨ e.key ≠ g.key ∧ e.second ≠ g.second)) :
    Waiting (es.foldl Entry.put t) g k := by
  induction es generalizing t with
  | nil => exact waiting
  | cons e es ih =>
    obtain ⟨other, either⟩ := others e List.mem_cons_self
    exact ih (waiting.put other either) fun e' later => others e' (List.mem_cons_of_mem e later)

/-- The entry with the key of the place takes it. -/
theorem Waiting.displaced (waiting : Waiting t g k) (key : h.key = k) (differs : h.second ≠ g.second) :
    ∀ x ∈ Entry.put t h, x.second ≠ g.second := by
  obtain ⟨y, there, equal⟩ := waiting.here
  have seat_eq : seat t h = k :=
    (seat_key there ((waiting.only y there equal).trans key.symm)).trans key
  intro x mem same
  rcases mem_put.mp mem with rfl | ⟨old, away⟩
  · exact differs same
  · exact away ((waiting.only x old same).trans seat_eq.symm)

/-- An entry that a later one displaces leaves nothing behind. -/
theorem goes (unique : Table.Unique t) (seconds : (t.map second).Nodup)
    (distinct : Distinct (pre ++ g :: post)) (mem : h ∈ post) (displaces : Displaces t g h) :
    ∀ x ∈ (pre ++ g :: post).foldl put t, x.second ≠ g.second := by
  obtain ⟨fresh, y, there, equal, key⟩ := displaces
  obtain ⟨mid, rest, rfl⟩ := List.append_of_mem mem
  obtain ⟨before, after⟩ := distinct_parts distinct
  have whole : pre ++ g :: (mid ++ h :: rest) = (pre ++ g :: mid) ++ h :: rest := by simp
  rw [whole] at distinct ⊢
  obtain ⟨ahead, -⟩ := distinct_parts distinct
  have waiting : Waiting t g y.key := by
    refine ⟨unique, fresh, ⟨y, there, equal⟩, fun x found same => ?_⟩
    exact congrArg Entry.key (List.inj_on_of_nodup_map seconds found there (same.trans equal.symm))
  have waited : Waiting ((pre ++ g :: mid).foldl put t) g y.key := by
    refine waiting.foldl_put fun e inside => ⟨fun same => ?_, ?_⟩
    · exact (ahead e inside).1 (same.trans key)
    · rcases List.mem_append.mp inside with early | late
      · exact .inr (before e early)
      · rcases List.mem_cons.mp late with own | late
        · exact .inl own
        · exact .inr (after e (List.mem_append_left _ late))
  rw [List.foldl_append, List.foldl_cons]
  intro x found same
  rcases origin found with old | ⟨e, last, second, -⟩
  · exact waited.displaced key.symm (after h (by simp)).2 x old same
  · exact (after e (by simp [last])).2 (second.symm.trans same)

end Entry

end FreeSdn.Lib
