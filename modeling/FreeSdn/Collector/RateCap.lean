import FreeSdn.Lib.Dictionary
import Mathlib.Algebra.Order.Group.Defs
import Mathlib.Algebra.Order.Group.Int
import Mathlib.Algebra.Order.Group.Unbundled.Basic
import Mathlib.Data.Finset.Card
import Mathlib.Data.List.Dedup
import Mathlib.Tactic.FinCases

/-! The local rate cap of the collector (`_passes_rate` and `_evict_if_needed` of
`modules/collector/services/events.py`): a bounded table of the accepted times of each key, in the
order in which the keys were last used. -/

namespace FreeSdn.Collector.Rate

open FreeSdn.Lib

variable {κ : Type} [DecidableEq κ] {T : Type}

/-! ### Tables -/

/-- `_buckets`, in insertion order. -/
abbrev Buckets (κ T : Type) := List (κ × List T)

/-- `_buckets.get(key, ())`. -/
def bucket (d : Buckets κ T) (key : κ) : List T := (d.lookup key).getD []

/-- `del _buckets[key]`. -/
def remove (d : Buckets κ T) (key : κ) : Buckets κ T := d.filter fun b => b.1 ≠ key

/-- The removal of expired buckets, until the table is small enough. -/
def dropExpired (maxBuckets : Nat) : List κ → Buckets κ T → Buckets κ T
  | [], d => d
  | key :: keys, d =>
    let d := remove d key
    if d.length ≤ maxBuckets then d else dropExpired maxBuckets keys d

variable {d e : Buckets κ T} {key : κ} {keys : List κ} {maxBuckets : Nat}

theorem bucket_append (times : List T) (other : κ) :
    bucket (remove d key ++ [(key, times)]) other = if other = key then times else bucket d other := by
  unfold bucket
  by_cases same : other = key
  · have none : (remove d key).lookup key = none := by
      rw [List.lookup_eq_none_iff]
      intro b mem
      exact bne_iff_ne.mpr (Ne.symm (of_decide_eq_true (List.mem_filter.mp mem).2))
    rw [if_pos same, same, List.lookup_append, none, Option.none_or, List.lookup_cons_self]
    rfl
  · rw [if_neg same, Dictionary.lookup_append_ne same]
    congr 1
    induction d with
    | nil => rfl
    | cons b d ih =>
      obtain ⟨k, v⟩ := b
      by_cases named : k = key
      · have skipped : remove ((k, v) :: d) key = remove d key := by simp [remove, named]
        rw [skipped, ih, List.lookup_cons, beq_false_of_ne (named ▸ same)]
      · have kept : remove ((k, v) :: d) key = (k, v) :: remove d key := by simp [remove, named]
        rw [kept, List.lookup_cons, List.lookup_cons, ih]

theorem keys_append (key : κ) (distinct : (d.map Prod.fst).Nodup) (times : List T) :
    ((remove d key ++ [(key, times)]).map Prod.fst).Nodup := by
  have kept : ((remove d key).map Prod.fst).Nodup :=
    distinct.sublist (List.filter_sublist.map Prod.fst)
  rw [List.map_append]
  refine List.nodup_append.mpr ⟨kept, by simp, ?_⟩
  rintro k mem _ last rfl
  obtain rfl := List.mem_singleton.mp last
  obtain ⟨b, mem, named⟩ := List.mem_map.mp mem
  exact of_decide_eq_true (List.mem_filter.mp mem).2 named

/-- A table with some buckets taken away: a key has the times it had, or none if its bucket is
gone. -/
theorem bucket_sublist (distinct : (d.map Prod.fst).Nodup) (sub : List.Sublist e d) (key : κ) :
    bucket e key = bucket d key ∨
      bucket e key = [] ∧ (key, bucket d key) ∈ d ∧ (key, bucket d key) ∉ e := by
  unfold bucket
  cases here : d.lookup key with
  | none =>
    left
    have gone : e.lookup key = none :=
      List.lookup_eq_none_iff.mpr fun b mem => List.lookup_eq_none_iff.mp here b (sub.subset mem)
    rw [gone]
  | some v =>
    have mem := Dictionary.mem_of_lookup here
    cases found : e.lookup key with
    | none =>
      right
      refine ⟨rfl, mem, fun kept => ?_⟩
      exact absurd (List.lookup_eq_none_iff.mp found _ kept) (by simp)
    | some w =>
      left
      have kept := sub.subset (Dictionary.mem_of_lookup found)
      have same := List.inj_on_of_nodup_map distinct kept mem rfl
      rw [(Prod.mk.inj same).2]

theorem remove_length (some : bucket d key ≠ []) : (remove d key).length < d.length := by
  have found : ∃ v, d.lookup key = Option.some v := by
    by_contra none
    rw [← Option.isSome_iff_exists, Option.not_isSome_iff_eq_none] at none
    exact some (by rw [bucket, none]; rfl)
  obtain ⟨v, found⟩ := found
  refine List.length_filter_lt_length_iff_exists.mpr ⟨_, Dictionary.mem_of_lookup found, ?_⟩
  simp

theorem dropExpired_sublist : List.Sublist (dropExpired maxBuckets keys d) d := by
  induction keys generalizing d with
  | nil => exact List.Sublist.refl d
  | cons key keys ih =>
    unfold dropExpired
    simp only
    split
    · exact List.filter_sublist
    · exact ih.trans List.filter_sublist

/-- Only buckets of the given keys are dropped. -/
theorem dropExpired_dropped {b : κ × List T} (mem : b ∈ d)
    (gone : b ∉ dropExpired maxBuckets keys d) : b.1 ∈ keys := by
  induction keys generalizing d with
  | nil => exact absurd mem gone
  | cons key keys ih =>
    by_contra other
    rw [List.mem_cons, not_or] at other
    have kept : b ∈ remove d key := List.mem_filter.mpr ⟨mem, decide_eq_true other.1⟩
    unfold dropExpired at gone
    simp only at gone
    split at gone
    · exact gone kept
    · exact other.2 (ih kept gone)

/-- The table is small enough, or all buckets of the given keys are gone. -/
theorem dropExpired_done (maxBuckets : Nat) (keys : List κ) (d : Buckets κ T) :
    (dropExpired maxBuckets keys d).length ≤ maxBuckets ∨
      ∀ b ∈ dropExpired maxBuckets keys d, b.1 ∉ keys := by
  induction keys generalizing d with
  | nil => exact .inr fun _ _ => List.not_mem_nil
  | cons key keys ih =>
    unfold dropExpired
    simp only
    split
    · exact .inl ‹_›
    · refine (ih (d := remove d key)).imp_right fun others b mem => ?_
      have here := dropExpired_sublist.subset mem
      exact List.not_mem_cons_of_ne_of_not_mem (of_decide_eq_true (List.mem_filter.mp here).2)
        (others b mem)

/-! ### Histories -/

def timesOf (calls : List (κ × T)) (key : κ) : List T :=
  (calls.filter fun c => c.1 = key).map Prod.snd

variable {c : κ × T} {calls : List (κ × T)}

theorem timesOf_snoc (key : κ) :
    timesOf (calls ++ [c]) key = timesOf calls key ++ if c.1 = key then [c.2] else [] := by
  unfold timesOf
  rw [List.filter_append, List.map_append]
  by_cases same : c.1 = key <;> simp [same]

theorem timesOf_mem {t : T} : t ∈ timesOf calls key ↔ (key, t) ∈ calls := by
  simp [timesOf]

/-! ### Calls -/

section Arithmetic

variable [LE T] [DecidableLE T]

/-- The times of a key that are in the window. -/
def recentTimes (windowStart : T) (d : Buckets κ T) (key : κ) : List T :=
  (bucket d key).filter (windowStart ≤ ·)

structure Limits (T : Type) where
  rateLimit : Nat
  window : T
  maxBuckets : Nat

variable [LT T] [DecidableLT T]

/-- `not times or times[-1] < window_start`. -/
def expired (windowStart : T) (b : κ × List T) : Bool :=
  match b.2.getLast? with
  | none => true
  | some t => t < windowStart

/-- `_evict_if_needed`; the last step drops nothing from a table that is small enough. -/
def evictIfNeeded (maxBuckets : Nat) (windowStart : T) (d : Buckets κ T) : Buckets κ T :=
  if d.length ≤ maxBuckets then d
  else
    let d := dropExpired maxBuckets ((d.filter (expired windowStart)).map Prod.fst) d
    d.drop (d.length - maxBuckets)

variable [Sub T] (p : Limits T)

/-- `_passes_rate`, with the order and the difference of the times it is given. -/
def passesRate (d : Buckets κ T) (key : κ) (now : T) : Bool × Buckets κ T :=
  let windowStart := now - p.window
  let recent := recentTimes windowStart d key
  if p.rateLimit ≤ recent.length then (false, remove d key ++ [(key, recent)])
  else
    (true, evictIfNeeded p.maxBuckets windowStart (remove d key ++ [(key, recent ++ [now])]))

/-- The table and the calls that were accepted, in order. -/
structure State (κ T : Type) where
  buckets : Buckets κ T
  accepted : List (κ × T)

def call (s : State κ T) (c : κ × T) : State κ T :=
  let (ok, d) := passesRate p s.buckets c.1 c.2
  ⟨d, if ok then s.accepted ++ [c] else s.accepted⟩

/-- What a new publisher comes to by a sequence of calls. -/
def after (calls : List (κ × T)) : State κ T := calls.foldl (call p) ⟨[], []⟩

/-- Whether a call is accepted after others. -/
def passes (before : List (κ × T)) (c : κ × T) : Bool :=
  (passesRate p (after p before).buckets c.1 c.2).1

end Arithmetic

variable [LinearOrder T]

/-- The calls at times between two. -/
def during (calls : List (κ × T)) (low high : T) : List (κ × T) :=
  calls.filter fun c => low ≤ c.2 ∧ c.2 ≤ high

theorem timesOf_during (low high : T) (key : κ) :
    timesOf (during calls low high) key =
      (timesOf calls key).filter fun t => low ≤ t ∧ t ≤ high := by
  unfold timesOf during
  rw [List.filter_map, List.filter_comm]
  rfl

theorem timesOf_sorted (sorted : calls.Pairwise (·.2 ≤ ·.2)) (key : κ) :
    (timesOf calls key).Pairwise (· ≤ ·) :=
  (sorted.filter _).map Prod.snd fun _ _ le => le

/-! ### Eviction -/

variable {windowStart : T}

theorem recentTimes_recent {low high : T} (le : low ≤ high) (times : List T) :
    (times.filter (low ≤ ·)).filter (high ≤ ·) = times.filter (high ≤ ·) := by
  rw [List.filter_filter]
  refine List.filter_congr fun t _ => ?_
  by_cases reached : high ≤ t
  · simp [reached, le.trans reached]
  · simp [reached]

omit [DecidableEq κ] in
/-- A bucket whose last time is before the window has none in it. -/
theorem expired_times {b : κ × List T} (sorted : b.2.Pairwise (· ≤ ·))
    (old : expired windowStart b = true) {start : T} (reach : windowStart ≤ start) :
    b.2.filter (start ≤ ·) = [] := by
  rw [List.filter_eq_nil_iff]
  intro t mem
  unfold expired at old
  cases last : b.2.getLast? with
  | none =>
    rw [List.getLast?_eq_none_iff] at last
    rw [last] at mem
    cases mem
  | some u =>
    rw [last] at old
    obtain ⟨init, split⟩ := List.getLast?_eq_some_iff.mp last
    have below : t ≤ u := by
      rw [split] at mem sorted
      rcases List.mem_append.mp mem with before | final
      · exact (List.pairwise_append.mp sorted).2.2 t before u List.mem_cons_self
      · exact (List.mem_singleton.mp final).le
    have before : t < start := (below.trans_lt (of_decide_eq_true old)).trans_le reach
    simpa using before

omit [DecidableEq κ] in
/-- A bucket that is not expired has an accepted time in the window. -/
theorem fresh_time {b : κ × List T} (fresh : expired windowStart b = false) :
    ∃ t ∈ b.2, windowStart ≤ t := by
  unfold expired at fresh
  cases last : b.2.getLast? with
  | none =>
    rw [last] at fresh
    cases fresh
  | some t =>
    rw [last] at fresh
    exact ⟨t, List.mem_of_getLast? last, not_lt.mp (of_decide_eq_false fresh)⟩

theorem evict_length : (evictIfNeeded maxBuckets windowStart d).length ≤ maxBuckets := by
  unfold evictIfNeeded
  simp only
  split
  · assumption
  · rw [List.length_drop]
    omega

theorem evict_sublist : List.Sublist (evictIfNeeded maxBuckets windowStart d) d := by
  unfold evictIfNeeded
  simp only
  split
  · exact List.Sublist.refl d
  · exact (List.drop_sublist _ _).trans dropExpired_sublist

/-- While the buckets that are not expired fit in the table, only expired ones are dropped. -/
theorem evict_dropped (distinct : (d.map Prod.fst).Nodup)
    (fits : ∀ e, List.Sublist e d → (∀ b ∈ e, expired windowStart b = false) →
      e.length ≤ maxBuckets)
    {b : κ × List T} (mem : b ∈ d) (gone : b ∉ evictIfNeeded maxBuckets windowStart d) :
    expired windowStart b = true := by
  have unique : ∀ c ∈ d, c.1 ∈ (d.filter (expired windowStart)).map Prod.fst →
      expired windowStart c = true := by
    intro c mem named
    obtain ⟨a, old, same⟩ := List.mem_map.mp named
    obtain ⟨here, old⟩ := List.mem_filter.mp old
    rwa [← List.inj_on_of_nodup_map distinct here mem same]
  unfold evictIfNeeded at gone
  simp only at gone
  split at gone
  · exact absurd mem gone
  · have small : (dropExpired maxBuckets ((d.filter (expired windowStart)).map Prod.fst) d).length ≤
        maxBuckets := by
      rcases dropExpired_done maxBuckets ((d.filter (expired windowStart)).map Prod.fst) d with
        small | fresh
      · exact small
      · refine fits _ dropExpired_sublist fun c mem => Bool.eq_false_iff.mpr fun old => ?_
        have here := dropExpired_sublist.subset mem
        exact fresh c mem (List.mem_map_of_mem (List.mem_filter.mpr ⟨here, old⟩))
    rw [Nat.sub_eq_zero_of_le small, List.drop_zero] at gone
    exact unique b mem (dropExpired_dropped mem gone)

/-! ### Runs -/

variable [AddCommGroup T] (p : Limits T)

/-- In no span of the window's length are there calls of more keys than the table holds. -/
def Sparse (calls : List (κ × T)) : Prop :=
  ∀ start, ((during calls start (start + p.window)).map Prod.fst).toFinset.card ≤ p.maxBuckets

variable {p} {s : State κ T} {now : T}

theorem after_snoc : after p (calls ++ [c]) = call p (after p calls) c := by
  rw [after, List.foldl_append]
  rfl

/-- A call is rejected, with the times of its key that are in the window, or accepted. -/
theorem call_cases (s : State κ T) (c : κ × T) :
    let recent := recentTimes (c.2 - p.window) s.buckets c.1
    (p.rateLimit ≤ recent.length ∧
      call p s c = ⟨remove s.buckets c.1 ++ [(c.1, recent)], s.accepted⟩) ∨
    (recent.length < p.rateLimit ∧
      call p s c = ⟨evictIfNeeded p.maxBuckets (c.2 - p.window)
        (remove s.buckets c.1 ++ [(c.1, recent ++ [c.2])]), s.accepted ++ [c]⟩) := by
  unfold call passesRate
  simp only
  by_cases full : p.rateLimit ≤ (recentTimes (c.2 - p.window) s.buckets c.1).length
  · rw [if_pos full]
    exact .inl ⟨full, rfl⟩
  · rw [if_neg full]
    exact .inr ⟨by omega, rfl⟩

theorem call_length (positive : 1 ≤ p.rateLimit) (h : s.buckets.length ≤ p.maxBuckets) :
    (call p s c).buckets.length ≤ p.maxBuckets := by
  rcases call_cases (p := p) s c with ⟨full, next⟩ | ⟨-, next⟩
  · have some : bucket s.buckets c.1 ≠ [] := by
      intro none
      rw [recentTimes, none, List.filter_nil, List.length_nil] at full
      omega
    have shorter := remove_length some
    rw [next, List.length_append, List.length_singleton]
    omega
  · rw [next]
    exact evict_length

theorem after_length (positive : 1 ≤ p.rateLimit) (calls : List (κ × T)) :
    (after p calls).buckets.length ≤ p.maxBuckets := by
  induction calls using List.reverseRecOn with
  | nil => exact Nat.zero_le _
  | append_singleton calls c ih =>
    rw [after_snoc]
    exact call_length positive ih

theorem accepted_sublist (calls : List (κ × T)) :
    List.Sublist (after p calls).accepted calls := by
  induction calls using List.reverseRecOn with
  | nil => exact List.Sublist.refl []
  | append_singleton calls c ih =>
    rw [after_snoc]
    rcases call_cases (p := p) (after p calls) c with ⟨-, next⟩ | ⟨-, next⟩
    · rw [next]
      exact ih.trans (List.sublist_append_left calls [c])
    · rw [next]
      exact ih.append (List.Sublist.refl [c])

/-! ### What the table remembers -/

/-- The table has, for each key, the accepted times that a window at `now` or later can reach. -/
structure Remembers (p : Limits T) (s : State κ T) (now : T) : Prop where
  distinct : (s.buckets.map Prod.fst).Nodup
  filed : ∀ b ∈ s.buckets, List.Sublist b.2 (timesOf s.accepted b.1)
  complete : ∀ key start, now - p.window ≤ start →
    recentTimes start s.buckets key = (timesOf s.accepted key).filter (start ≤ ·)

/-- A call gives its key a bucket with its recent times and perhaps its own. -/
theorem Remembers.touch (h : Remembers p s now) (key : κ) (accepted : List (κ × T)) (extra : List T)
    (later : now - p.window ≤ windowStart)
    (times : ∀ k, timesOf accepted k = timesOf s.accepted k ++ if k = key then extra else []) :
    (∀ b ∈ remove s.buckets key ++ [(key, recentTimes windowStart s.buckets key ++ extra)],
        List.Sublist b.2 (timesOf accepted b.1)) ∧
      ∀ k start, windowStart ≤ start →
        recentTimes start
            (remove s.buckets key ++ [(key, recentTimes windowStart s.buckets key ++ extra)]) k =
          (timesOf accepted k).filter (start ≤ ·) := by
  constructor
  · intro b mem
    rcases List.mem_append.mp mem with old | new
    · rw [times]
      exact (h.filed b (List.mem_filter.mp old).1).trans (List.sublist_append_left _ _)
    · obtain rfl := List.mem_singleton.mp new
      rw [times, if_pos rfl, h.complete key windowStart later]
      exact List.filter_sublist.append (List.Sublist.refl extra)
  · intro k start reach
    unfold recentTimes
    rw [bucket_append, times]
    by_cases same : k = key
    · subst same
      have own := h.complete k windowStart later
      unfold recentTimes at own
      rw [if_pos rfl, if_pos rfl, own, List.filter_append, recentTimes_recent reach,
        List.filter_append]
    · rw [if_neg same, if_neg same, List.append_nil]
      exact h.complete k start (later.trans reach)


theorem Remembers.mono (h : Remembers p s now) {later : T} (le : now - p.window ≤ later - p.window) :
    Remembers p s later :=
  ⟨h.distinct, h.filed, fun key start reach => h.complete key start (le.trans reach)⟩

/-- A call keeps what windows at its time or later can reach: the buckets that are not expired are
of keys with accepted calls in the window, for which there is room. -/
theorem Remembers.call (h : Remembers p s c.2) (sorted : (s.accepted ++ [c]).Pairwise (·.2 ≤ ·.2))
    (sparse : Sparse p (s.accepted ++ [c])) : Remembers p (call p s c) c.2 := by
  rcases call_cases (p := p) s c with ⟨-, next⟩ | ⟨-, next⟩
  · obtain ⟨filed, complete⟩ := h.touch c.1 s.accepted []
      (le_refl (c.2 - p.window)) (fun k => by simp)
    rw [List.append_nil] at filed complete
    rw [next]
    exact ⟨keys_append c.1 h.distinct _, filed, complete⟩
  · obtain ⟨filed, complete⟩ := h.touch c.1 (s.accepted ++ [c])
      [c.2] (le_refl (c.2 - p.window)) (fun k => by simp only [timesOf_snoc, eq_comm])
    have distinct := keys_append c.1 h.distinct
      (recentTimes (c.2 - p.window) s.buckets c.1 ++ [c.2])
    rw [next]
    generalize remove s.buckets c.1 ++ [(c.1, recentTimes (c.2 - p.window) s.buckets c.1 ++ [c.2])] =
      d at filed complete distinct
    have fits : ∀ e, List.Sublist e d → (∀ b ∈ e, expired (c.2 - p.window) b = false) →
        e.length ≤ p.maxBuckets := by
      intro e sub fresh
      have keys : (e.map Prod.fst).Nodup := distinct.sublist (sub.map Prod.fst)
      rw [← List.length_map (f := Prod.fst), ← List.toFinset_card_of_nodup keys]
      refine (Finset.card_le_card fun k mem => ?_).trans (sparse (c.2 - p.window))
      obtain ⟨b, here, rfl⟩ := List.mem_map.mp (List.mem_toFinset.mp mem)
      obtain ⟨t, own, reach⟩ := fresh_time (fresh b here)
      have granted := timesOf_mem.mp ((filed b (sub.subset here)).subset own)
      have before : t ≤ c.2 := by
        rcases List.mem_append.mp granted with old | new
        · exact (List.pairwise_append.mp sorted).2.2 _ old c List.mem_cons_self
        · exact (congrArg Prod.snd (List.mem_singleton.mp new)).le
      refine List.mem_toFinset.mpr (List.mem_map.mpr ⟨(b.1, t), ?_, rfl⟩)
      refine List.mem_filter.mpr ⟨granted, decide_eq_true ⟨reach, ?_⟩⟩
      rwa [sub_add_cancel]
    refine ⟨distinct.sublist (evict_sublist.map Prod.fst), fun b mem => filed b (evict_sublist.subset mem),
      fun k start reach => ?_⟩
    rw [← complete k start reach]
    unfold recentTimes
    rcases bucket_sublist distinct evict_sublist k with same | ⟨none, mem, gone⟩
    · rw [same]
    · have old := evict_dropped distinct fits mem gone
      have times := (timesOf_sorted sorted k).sublist (filed _ mem)
      rw [none, expired_times (b := (k, bucket d k)) times old reach]
      rfl

/-! ### The window slides -/

theorem Sparse.sublist (sparse : Sparse p calls) {fewer : List (κ × T)}
    (sub : List.Sublist fewer calls) : Sparse p fewer := fun start =>
  (Finset.card_le_card fun _ mem =>
    List.mem_toFinset.mpr (((sub.filter _).map Prod.fst).subset (List.mem_toFinset.mp mem))).trans
    (sparse start)

theorem passes_iff (calls : List (κ × T)) (c : κ × T) :
    passes p calls c = true ↔
      (recentTimes (c.2 - p.window) (after p calls).buckets c.1).length < p.rateLimit := by
  unfold passes passesRate
  simp only
  split
  · rename_i full
    simpa using full
  · rename_i room
    simpa using room

theorem accepted_snoc (calls : List (κ × T)) (c : κ × T) :
    (after p (calls ++ [c])).accepted =
      (after p calls).accepted ++ if passes p calls c then [c] else [] := by
  rw [after_snoc]
  unfold call passes
  simp only
  split
  · rfl
  · rw [List.append_nil]

/-- The times at which calls with a key were accepted in a span. -/
def granted (p : Limits T) (calls : List (κ × T)) (key : κ) (low high : T) : List T :=
  timesOf (during (after p calls).accepted low high) key

theorem granted_snoc (calls : List (κ × T)) (c : κ × T) (key : κ) (low high : T) :
    granted p (calls ++ [c]) key low high = granted p calls key low high ++
      if passes p calls c ∧ c.1 = key ∧ low ≤ c.2 ∧ c.2 ≤ high then [c.2] else [] := by
  simp only [granted, timesOf_during, accepted_snoc]
  by_cases ok : passes p calls c = true
  · simp only [ok, if_true, timesOf_snoc, List.filter_append, true_and]
    by_cases same : c.1 = key
    · by_cases inside : low ≤ c.2 ∧ c.2 ≤ high <;> simp [same, inside]
    · simp [same]
  · simp [ok]

variable [IsOrderedAddMonoid T]

theorem after_remembers (ordered : calls.Pairwise (·.2 ≤ ·.2)) (sparse : Sparse p calls)
    (past : ∀ c ∈ calls, c.2 ≤ now) : Remembers p (after p calls) now := by
  induction calls using List.reverseRecOn generalizing now with
  | nil => exact ⟨List.nodup_nil, fun _ mem => absurd mem List.not_mem_nil, fun _ _ _ => rfl⟩
  | append_singleton calls c ih =>
    obtain ⟨earlier, -, before⟩ := List.pairwise_append.mp ordered
    have first := ih earlier (sparse.sublist (List.sublist_append_left calls [c]))
      fun d mem => before d mem c List.mem_cons_self
    have sub : List.Sublist ((after p calls).accepted ++ [c]) (calls ++ [c]) :=
      (accepted_sublist calls).append (List.Sublist.refl [c])
    rw [after_snoc]
    refine (first.call (ordered.sublist sub) (sparse.sublist sub)).mono ?_
    exact sub_le_sub_right (past c (List.mem_append_right calls List.mem_cons_self)) p.window

/-- The times in the window of a call are those that were accepted since the window's start. -/
theorem recent_granted (ordered : (calls ++ [c]).Pairwise (·.2 ≤ ·.2)) (sparse : Sparse p calls) :
    recentTimes (c.2 - p.window) (after p calls).buckets c.1 =
      granted p calls c.1 (c.2 - p.window) c.2 := by
  obtain ⟨earlier, -, before⟩ := List.pairwise_append.mp ordered
  have past : ∀ d ∈ calls, d.2 ≤ c.2 := fun d mem => before d mem c List.mem_cons_self
  rw [(after_remembers earlier sparse past).complete c.1 _ (le_refl _), granted, timesOf_during]
  refine List.filter_congr fun t mem => ?_
  have reached := past _ ((accepted_sublist calls).subset (timesOf_mem.mp mem))
  simp [show t ≤ c.2 from reached]

/-- At most `rateLimit` calls with a key are accepted in a span of the window's length. -/
theorem granted_length (ordered : calls.Pairwise (·.2 ≤ ·.2)) (sparse : Sparse p calls) (key : κ)
    (start : T) : (granted p calls key start (start + p.window)).length ≤ p.rateLimit := by
  induction calls using List.reverseRecOn with
  | nil => exact Nat.zero_le _
  | append_singleton calls c ih =>
    have fewer := sparse.sublist (List.sublist_append_left calls [c])
    have earlier := (List.pairwise_append.mp ordered).1
    rw [granted_snoc]
    split
    · rename_i last
      obtain ⟨ok, rfl, low, high⟩ := last
      -- The span reaches back no further than the window of its last accepted call.
      have room := (passes_iff calls c).mp ok
      rw [recent_granted ordered fewer] at room
      have within : (granted p calls c.1 start (start + p.window)).length ≤
          (granted p calls c.1 (c.2 - p.window) c.2).length := by
        have back : c.2 - p.window ≤ start := sub_le_iff_le_add.mpr high
        have past := (List.pairwise_append.mp ordered).2.2
        simp only [granted, timesOf_during, ← List.countP_eq_length_filter]
        refine List.countP_mono_left fun t mem inside => ?_
        have before := past _ ((accepted_sublist calls).subset (timesOf_mem.mp mem)) c
          List.mem_cons_self
        exact decide_eq_true ⟨back.trans (of_decide_eq_true inside).1, before⟩
      rw [List.length_append, List.length_singleton]
      omega
    · rw [List.append_nil]
      exact ih earlier fewer

/-- The cap is a sliding window: the table stays bounded and, as long as it has room for the keys of
every window, at most `rateLimit` calls of a key are accepted in a span of the window's length and a
call is only rejected when so many were accepted in the span before it. -/
theorem rate_cap (positive : 1 ≤ p.rateLimit) (ordered : calls.Pairwise (·.2 ≤ ·.2)) :
    (∀ before, before <+: calls → (after p before).buckets.length ≤ p.maxBuckets) ∧
      (Sparse p calls →
        (∀ key start, (granted p calls key start (start + p.window)).length ≤ p.rateLimit) ∧
        ∀ before c rest, calls = before ++ c :: rest → passes p before c = false →
          p.rateLimit ≤ (granted p before c.1 (c.2 - p.window) c.2).length) := by
  refine ⟨fun before _ => after_length positive before, fun sparse =>
    ⟨fun key start => granted_length ordered sparse key start, ?_⟩⟩
  rintro before c rest rfl rejected
  have sub : List.Sublist (before ++ [c]) (before ++ c :: rest) :=
    (List.Sublist.refl before).append (List.singleton_sublist.mpr List.mem_cons_self)
  have fewer := (sparse.sublist sub).sublist (List.sublist_append_left before [c])
  rw [← recent_granted (ordered.sublist sub) fewer]
  by_contra room
  rw [(passes_iff before c).mpr (by omega)] at rejected
  cases rejected

/-- Calls of three keys, the last of them after the bucket of the second has expired. -/
def floodingKey : List (Nat × Int) := [(7, 0), (8, 5), (7, 30), (7, 50), (9, 80), (7, 85), (7, 88)]

/-- In each window two keys have the table; the first is rejected at its third and fifth calls. -/
theorem floodingKey_capped :
    (after ⟨2, 60, 2⟩ (floodingKey.take 5)).buckets = [(7, [0, 30]), (9, [80])] ∧
      (after ⟨2, 60, 2⟩ floodingKey).buckets.length ≤ 2 ∧
      (granted ⟨2, 60, 2⟩ floodingKey 7 30 (30 + 60)).length ≤ 2 ∧
      2 ≤ (granted ⟨2, 60, 2⟩ (floodingKey.take 6) 7 (88 - 60) 88).length := by
  have sparse : Sparse (⟨2, 60, 2⟩ : Limits Int) floodingKey := by
    intro start
    -- The calls of the second and the third key are more than a window apart.
    have keys : ∃ other, ((during floodingKey start (start + 60)).map Prod.fst).toFinset ⊆
        {7, other} := by
      by_cases early : start ≤ 5
      · refine ⟨8, fun k mem => ?_⟩
        obtain ⟨c, here, rfl⟩ := List.mem_map.mp (List.mem_toFinset.mp mem)
        obtain ⟨call, inside⟩ := List.mem_filter.mp here
        have inside := of_decide_eq_true inside
        fin_cases call <;> first | decide | (exfalso; simp at inside; omega)
      · refine ⟨9, fun k mem => ?_⟩
        obtain ⟨c, here, rfl⟩ := List.mem_map.mp (List.mem_toFinset.mp mem)
        obtain ⟨call, inside⟩ := List.mem_filter.mp here
        have inside := of_decide_eq_true inside
        fin_cases call <;> first | decide | (exfalso; simp at inside; omega)
    obtain ⟨other, sub⟩ := keys
    exact (Finset.card_le_card sub).trans (Finset.card_le_two)
  have ordered : floodingKey.Pairwise (·.2 ≤ ·.2) := by decide
  obtain ⟨bounded, slides⟩ := rate_cap (p := (⟨2, 60, 2⟩ : Limits Int)) (by decide) ordered
  obtain ⟨most, rejects⟩ := slides sparse
  exact ⟨by decide, bounded _ (List.prefix_refl _), most 7 30,
    rejects (floodingKey.take 6) (7, 88) [] rfl (by decide)⟩

/-! ### Doubles -/

/-- A finite double in units of `2^-1074`, of which it is a multiple. -/
def units (x : Float) : Int :=
  match x.toModel.unpack with
  | .finite sign mantissa exponent _ => sign.apply mantissa * 2 ^ (exponent + 1074).toNat
  | _ => 0

/-- The calls at times in a span of the given length. -/
def inSpan (calls : List (κ × Float)) (start length : Int) : List (κ × Float) :=
  calls.filter fun c => start ≤ units c.2 ∧ units c.2 ≤ start + length

/-- The difference of two doubles is rounded: `1.1 - 0.1` is `1.0`, which is more than a tenth
before `1.1`. One call in a tenth of a second is allowed, there is one key and the table has room
for it; the call at `1.1` is rejected, and none was accepted in the tenth before it. -/
theorem rounded_window_rejects :
    [((7 : Nat), (1.0 : Float)), (7, 1.1)].Pairwise (·.2 ≤ ·.2) ∧ 0 < units 0.1 ∧
      (∀ start, ((inSpan [((7 : Nat), (1.0 : Float)), (7, 1.1)] start (units 0.1)).map
        Prod.fst).toFinset.card ≤ 1) ∧
      passes ⟨1, 0.1, 1⟩ [((7 : Nat), (1.0 : Float))] (7, 1.1) = false ∧
      (inSpan (after ⟨1, 0.1, 1⟩ [((7 : Nat), (1.0 : Float))]).accepted
        (units 1.1 - units 0.1) (units 0.1)).length < 1 := by
  refine ⟨by decide +kernel, by decide +kernel, fun start => ?_, by decide +kernel,
    by decide +kernel⟩
  have sub : ((inSpan [((7 : Nat), (1.0 : Float)), (7, 1.1)] start (units 0.1)).map
      Prod.fst).toFinset ⊆ {7} := by
    intro k mem
    obtain ⟨c, here, rfl⟩ := List.mem_map.mp (List.mem_toFinset.mp mem)
    have call := (List.mem_filter.mp here).1
    simp only [List.mem_cons, List.not_mem_nil, or_false] at call
    rcases call with rfl | rfl <;> exact Finset.mem_singleton_self 7
  exact Finset.card_le_card sub

end FreeSdn.Collector.Rate
