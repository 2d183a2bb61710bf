import FreeSdn.Gateway.ImportLoop

/-! When importing the brain's VLANs twice changes nothing the second time: the entries are told apart by
whether a canonical VLAN of their id was known, and by how many entries have the id. -/

namespace FreeSdn.Gateway

open FreeSdn.Lib

variable {s : Site} {known : List (Int × Vlan)} {x : VlanData} {xs : List VlanData} {n : Int}
  {dryRun : Bool} {entries : List Dict} {t t' : Table}

/-! ### Ids -/

theorem lookup_byId (t : Table) {v : Vlan} :
    (byId (t.live s.roleMap.siteId s.org)).lookup n = some v ↔
      v ∈ t.live s.roleMap.siteId s.org ∧ v.vlanId = n := by
  constructor
  · intro found
    obtain ⟨w, mem, same⟩ := List.mem_map.mp (Dictionary.mem_of_lookup found)
    obtain ⟨rfl, rfl⟩ := Prod.mk.inj same
    exact ⟨mem, rfl⟩
  · rintro ⟨mem, rfl⟩
    exact Dictionary.lookup_of_mem (filed_byId (s := s) t).distinct (List.mem_map.mpr ⟨v, mem, rfl⟩)

theorem unknown_iff (t : Table) (x : VlanData) :
    unknown (byId (t.live s.roleMap.siteId s.org)) x = true ↔
      ∀ v ∈ t.live s.roleMap.siteId s.org, v.vlanId ≠ x.vlanId := by
  unfold unknown
  constructor
  · intro none v mem same
    rw [(lookup_byId t).mpr ⟨mem, same⟩] at none
    cases none
  · intro none
    cases found : (byId (t.live s.roleMap.siteId s.org)).lookup x.vlanId with
    | none => rfl
    | some v =>
      obtain ⟨mem, same⟩ := (lookup_byId t).mp found
      exact absurd same (none v mem)

/-- The rows of a table are written as they are under the VLANs that are known from it. -/
theorem written_same {v : Vlan} (mem : v ∈ t.rows) :
    written s (byId (t.live s.roleMap.siteId s.org)) v = v := by
  unfold written
  split
  · rename_i here
    rw [(lookup_byId t).mpr ⟨List.mem_filter.mpr ⟨mem, here⟩, rfl⟩]
    rfl
  · rfl

theorem written_key (filed : Filed s known) (v : Vlan) : (written s known v).key = v.key := by
  unfold written
  split
  · rename_i here
    cases found : known.lookup v.vlanId with
    | none => rfl
    | some w =>
      have mem := Dictionary.mem_of_lookup found
      have id := filed.id _ mem
      have live := filed.live _ mem
      simp only [Vlan.live, Bool.and_eq_true, decide_eq_true_eq] at here live
      exact Prod.ext (live.1.1.trans here.1.1.symm) id
  · rfl

theorem count_ids (xs : List VlanData) (n : Int) :
    (xs.map VlanData.vlanId).count n = (xs.filter (·.vlanId = n)).length := by
  rw [List.count, List.countP_map, ← List.countP_eq_length_filter]
  exact List.countP_congr fun x _ => by simp

theorem Single.eq (single : Single xs n) {x y : VlanData} (here : x ∈ xs) (there : y ∈ xs)
    (left : x.vlanId = n) (right : y.vlanId = n) : x = y := by
  have first : x ∈ xs.filter (·.vlanId = n) := List.mem_filter.mpr ⟨here, decide_eq_true left⟩
  have second : y ∈ xs.filter (·.vlanId = n) := List.mem_filter.mpr ⟨there, decide_eq_true right⟩
  rw [Single] at single
  generalize xs.filter (·.vlanId = n) = own at single first second
  obtain ⟨z, rfl⟩ : ∃ z, own = [z] :=
    List.length_eq_one_iff.mp (Nat.le_antisymm single (List.length_pos_iff.mpr (List.ne_nil_of_mem first)))
  rw [List.mem_singleton.mp first, List.mem_singleton.mp second]

/-- The entries that create VLANs have distinct ids when each is the only one of its id. -/
theorem new_ids (xs : List VlanData) :
    ((xs.filter (unknown known)).map VlanData.vlanId).Nodup ↔
      ∀ x ∈ xs, unknown known x = true → Single xs x.vlanId := by
  have same : ∀ x ∈ xs, unknown known x = true →
      (xs.filter (unknown known)).filter (·.vlanId = x.vlanId) =
        xs.filter (·.vlanId = x.vlanId) := by
    intro x _ new
    rw [List.filter_filter]
    refine List.filter_congr fun y _ => ?_
    by_cases named : y.vlanId = x.vlanId
    · have new : unknown known y = true := by
        unfold unknown at new ⊢
        rwa [named]
      simp [named, new]
    · simp [named]
  rw [List.nodup_iff_count_le_one]
  constructor
  · intro few x mem new
    have one := few x.vlanId
    rwa [count_ids, same x mem new] at one
  · intro single n
    by_cases named : n ∈ (xs.filter (unknown known)).map VlanData.vlanId
    · obtain ⟨x, mem, rfl⟩ := List.mem_map.mp named
      obtain ⟨mem, new⟩ := List.mem_filter.mp mem
      rw [count_ids, same x mem new]
      exact single x mem new
    · rw [List.count_eq_zero_of_not_mem named]
      exact Nat.zero_le 1

/-! ### Settled entries -/

/-- An entry for a canonical VLAN agrees with it or is the only one of its id; any other entry has a
subnet and a gateway, is the only one of its id, and no row of the site has the id, not even a
deleted one. The database takes the rows that are written. -/
structure SettledEntries (s : Site) (xs : List VlanData) (t : Table) : Prop where
  known : ∀ x ∈ xs, ∀ v ∈ t.live s.roleMap.siteId s.org, v.vlanId = x.vlanId →
    changed v x = false ∨ Single xs x.vlanId ∧ s.accepts (v.adopt s x) = true
  new : ∀ x ∈ xs, (∀ v ∈ t.live s.roleMap.siteId s.org, v.vlanId ≠ x.vlanId) →
    x.subnet ≠ "" ∧ x.gatewayIp ≠ "" ∧ Single xs x.vlanId ∧ s.accepts (newVlan s x) = true ∧
      ∀ v ∈ t.rows, v.key ≠ (s.roleMap.siteId, x.vlanId)

/-- The entries can be read, no id being an infinite float, and are settled. -/
def Settled (s : Site) (entries : List Dict) (t : Table) : Prop :=
  ∃ xs, readEntries s entries = .ok xs ∧ SettledEntries s xs t

/-- The import leaves the ids distinct, a second one of the same answer creates, updates and changes
nothing, and a dry run has the counts of the real one. -/
def Repeatable (s : Site) (reply : Reply) (t : Table) : Prop :=
  ∃ r t', importFromBrain s false reply t = .ok (r, t') ∧
    ((t'.live s.roleMap.siteId s.org).map Vlan.vlanId).Nodup ∧
    (∃ again t'', importFromBrain s false reply t' = .ok (again, t'') ∧ again.created = 0 ∧
      again.updated = 0 ∧ t''.rows = t'.rows) ∧
    ∃ dry, importFromBrain s true reply t = .ok (dry, t) ∧ dry.created = r.created ∧
      dry.updated = r.updated ∧ dry.unchanged = r.unchanged

theorem SettledEntries.unambiguous (h : SettledEntries s xs t) :
    Unambiguous (byId (t.live s.roleMap.siteId s.org)) xs := by
  intro x mem
  unfold touches
  cases found : (byId (t.live s.roleMap.siteId s.org)).lookup x.vlanId with
  | none => exact .inl rfl
  | some v =>
    obtain ⟨here, same⟩ := (lookup_byId t).mp found
    exact (h.known x mem v here same).imp_right And.left

theorem SettledEntries.rows_accepted (h : SettledEntries s xs t) {v : Vlan} (mem : v ∈ t.rows) :
    written s (progress s false t xs).known v = v ∨
      s.accepts (written s (progress s false t xs).known v) = true := by
  rw [progress_known]
  unfold written
  split
  · rename_i here
    have live : v ∈ t.live s.roleMap.siteId s.org := List.mem_filter.mpr ⟨mem, here⟩
    obtain ⟨w, last, kept, -⟩ := h.unambiguous.final (s := s) ((lookup_byId t).mpr ⟨live, rfl⟩)
    rw [last]
    rcases kept with rfl | ⟨x, entry, named, differs, rfl⟩
    · exact .inl rfl
    · rcases h.known x entry v live named.symm with agrees | ⟨-, accepted⟩
      · rw [agrees] at differs
        cases differs
      · exact .inr accepted
  · exact .inl rfl

/-- A row that the import adds, with the entry that it is made of. -/
theorem mem_added {v : Vlan} :
    v ∈ (progress s false t xs).added ↔
      ∃ x ∈ xs, (∀ w ∈ t.live s.roleMap.siteId s.org, w.vlanId ≠ x.vlanId) ∧ v = newVlan s x := by
  rw [progress_added, List.mem_map]
  constructor
  · rintro ⟨x, mem, rfl⟩
    obtain ⟨mem, new⟩ := List.mem_filter.mp mem
    exact ⟨x, mem, (unknown_iff t x).mp new, rfl⟩
  · rintro ⟨x, mem, new, rfl⟩
    exact ⟨x, List.mem_filter.mpr ⟨mem, (unknown_iff t x).mpr new⟩, rfl⟩

/-- The keys of the table after the flush. -/
theorem written_keys (t : Table) (xs : List VlanData) :
    (t.rows.map (written s (progress s false t xs).known) ++
        (progress s false t xs).added).map Vlan.key =
      t.rows.map Vlan.key ++
        ((xs.filter (unknown (byId (t.live s.roleMap.siteId s.org)))).map VlanData.vlanId).map
          fun n => (s.roleMap.siteId, n) := by
  have filed : Filed s (knownAfter s (byId (t.live s.roleMap.siteId s.org)) xs) :=
    (filed_byId t).run
  rw [List.map_append, progress_known, progress_added, List.map_map, List.map_map, List.map_map]
  congr 1
  exact List.map_congr_left fun v _ => written_key filed v

theorem SettledEntries.flushes (h : SettledEntries s xs t) :
    ∃ t', flush s t (progress s false t xs) = .ok t' := by
  have added : ∀ v ∈ (progress s false t xs).added, s.accepts v = true := by
    intro v mem
    obtain ⟨x, entry, new, rfl⟩ := mem_added.mp mem
    exact (h.new x entry new).2.2.2.1
  have ids := (new_ids xs).mpr fun x mem new =>
    (h.new x mem ((unknown_iff t x).mp new)).2.2.1
  have unique : ((t.rows.map (written s (progress s false t xs).known) ++
      (progress s false t xs).added).map Vlan.key).Nodup := by
    rw [written_keys]
    refine List.nodup_append.mpr ⟨t.unique, ids.map fun _ _ same => (Prod.mk.inj same).2, ?_⟩
    rintro k row _ new rfl
    obtain ⟨v, mem, rfl⟩ := List.mem_map.mp row
    obtain ⟨n, id, same⟩ := List.mem_map.mp new
    obtain ⟨x, entry, rfl⟩ := List.mem_map.mp id
    obtain ⟨entry, fresh⟩ := List.mem_filter.mp entry
    exact (h.new x entry ((unknown_iff t x).mp fresh)).2.2.2.2 v mem same.symm
  obtain ⟨t', flushed, -⟩ := flush_succeeds (fun v mem => h.rows_accepted mem) added unique
  exact ⟨t', flushed⟩

/-- After a settled import every entry agrees with a known VLAN. -/
theorem SettledEntries.quiet (h : SettledEntries s xs t)
    (flushed : flush s t (progress s false t xs) = .ok t') {x : VlanData} (mem : x ∈ xs) :
    ∃ v, (byId (t'.live s.roleMap.siteId s.org)).lookup x.vlanId = some v ∧
      changed v x = false := by
  rw [known_after flushed, List.lookup_append]
  cases found : (byId (t.live s.roleMap.siteId s.org)).lookup x.vlanId with
  | some v =>
    obtain ⟨w, last, -, agrees⟩ := h.unambiguous.final (s := s) found
    exact ⟨w, by rw [last, Option.some_or], agrees x mem rfl⟩
  | none =>
    have new : unknown (byId (t.live s.roleMap.siteId s.org)) x = true := by rw [unknown, found]; rfl
    obtain ⟨subnet, gateway, single, -⟩ := h.new x mem ((unknown_iff t x).mp new)
    have ids := (new_ids xs).mpr fun y here fresh =>
      (h.new y here ((unknown_iff t y).mp fresh)).2.2.1
    have keys : ((byId ((xs.filter (unknown (byId (t.live s.roleMap.siteId s.org)))).map
        (newVlan s))).map Prod.fst).Nodup := by
      rw [byId, List.map_map, List.map_map]
      exact ids
    rw [knownAfter_none found, Option.none_or]
    refine ⟨newVlan s x, Dictionary.lookup_of_mem keys ?_, ?_⟩
    · exact List.mem_map.mpr ⟨newVlan s x,
        List.mem_map_of_mem (List.mem_filter.mpr ⟨mem, new⟩), rfl⟩
    · exact changed_false_iff.mpr ⟨rfl, if_neg subnet, if_neg gateway⟩

theorem touches_of_lookup {v : Vlan} (found : known.lookup x.vlanId = some v)
    (agrees : changed v x = false) : touches known x = false ∧ unknown known x = false :=
  ⟨by rw [touches, found]; exact agrees, by rw [unknown, found]; rfl⟩

/-- An import whose entries all agree with known VLANs changes nothing. -/
theorem quiet_import (quiet : ∀ x ∈ xs, ∃ v,
    (byId (t.live s.roleMap.siteId s.org)).lookup x.vlanId = some v ∧ changed v x = false) :
    (progress s false t xs).created = 0 ∧ (progress s false t xs).updated = 0 ∧
      ∃ t', flush s t (progress s false t xs) = .ok t' ∧ t'.rows = t.rows := by
  have agree : ∀ x ∈ xs, touches (byId (t.live s.roleMap.siteId s.org)) x = false := by
    intro x mem
    obtain ⟨v, found, agrees⟩ := quiet x mem
    exact (touches_of_lookup found agrees).1
  have old : ∀ x ∈ xs, ¬unknown (byId (t.live s.roleMap.siteId s.org)) x = true := by
    intro x mem
    obtain ⟨v, found, agrees⟩ := quiet x mem
    rw [(touches_of_lookup found agrees).2]
    exact Bool.false_ne_true
  obtain ⟨same, none⟩ := quiet_run (s := s) agree
  have known : (progress s false t xs).known = byId (t.live s.roleMap.siteId s.org) :=
    (progress_known t xs).trans same
  have added : (progress s false t xs).added = [] := by
    rw [progress_added, List.filter_eq_nil_iff.mpr old]
    rfl
  have rows : t.rows.map (written s (progress s false t xs).known) = t.rows := by
    rw [known]
    exact (List.map_congr_left fun v mem => written_same mem).trans (List.map_id t.rows)
  refine ⟨?_, ?_, ?_⟩
  · rw [progress, fold_created, List.countP_eq_zero.mpr old]
  · rw [progress, fold_updated, none]
  · obtain ⟨t', flushed, after⟩ := flush_succeeds (s := s) (t := t) (p := progress s false t xs)
      (fun v mem => .inl (by rw [known, written_same mem]))
      (fun v mem => absurd mem (by rw [added]; exact List.not_mem_nil))
      (by rw [rows, added, List.append_nil]; exact t.unique)
    exact ⟨t', flushed, by rw [after, rows, added, List.append_nil]⟩

/-- The dry run of unambiguous entries counts as the real one does. -/
theorem dry_counts (updated : (progress s true t xs).updated = (progress s false t xs).updated) :
    (progress s true t xs).created = (progress s false t xs).created ∧
      (progress s true t xs).unchanged = (progress s false t xs).unchanged := by
  have dry := @fold_total s true xs ⟨byId (t.live s.roleMap.siteId s.org), [], 0, 0, 0⟩
  have real := @fold_total s false xs ⟨byId (t.live s.roleMap.siteId s.org), [], 0, 0, 0⟩
  have created : (progress s true t xs).created = (progress s false t xs).created := by
    rw [progress, progress, fold_created, fold_created]
  simp only [progress] at created updated dry real ⊢
  exact ⟨created, by omega⟩

theorem Unambiguous.dry_updated (h : Unambiguous (byId (t.live s.roleMap.siteId s.org)) xs) :
    (progress s true t xs).updated = (progress s false t xs).updated := by
  rw [progress, progress, fold_updated, fold_updated, updates_dry, h.updates_eq]

/-! ### What repeatable imports have in common -/

/-- Entries of one id have the same data. -/
def Agreeing (xs : List VlanData) : Prop :=
  ∀ x ∈ xs, ∀ y ∈ xs, x.vlanId = y.vlanId → ∀ v, changed v x = changed v y

theorem Agreeing.tail (h : Agreeing (x :: xs)) : Agreeing xs := fun y here z there =>
  h y (List.mem_cons_of_mem x here) z (List.mem_cons_of_mem x there)

theorem agreeing_of_quiet (quiet : ∀ x ∈ xs, ∃ v, known.lookup x.vlanId = some v ∧
    changed v x = false) : Agreeing xs := by
  intro x here y there same v
  obtain ⟨w, found, first⟩ := quiet x here
  obtain ⟨w', found', second⟩ := quiet y there
  obtain rfl : w = w' := Option.some.inj (found.symm.trans (same ▸ found'))
  obtain ⟨name, subnet, gateway⟩ := changed_false_iff.mp first
  obtain ⟨name', subnet', gateway'⟩ := changed_false_iff.mp second
  rw [changed, changed, ← name, ← subnet, ← gateway, name', subnet', gateway']

/-- What is known is as it was at first, or agrees with the entries to come. -/
def Drifted (first known : List (Int × Vlan)) (xs : List VlanData) : Prop :=
  ∀ n v, known.lookup n = some v →
    first.lookup n = some v ∨ ∀ x ∈ xs, x.vlanId = n → changed v x = false

variable {first : List (Int × Vlan)}

theorem Drifted.touches_first (h : Drifted first known (x :: xs))
    (differs : touches known x = true) : touches first x = true := by
  cases found : known.lookup x.vlanId with
  | none =>
    rw [touches, found] at differs
    cases differs
  | some v =>
    rw [touches_eq_changed found] at differs
    rcases h x.vlanId v found with same | agrees
    · rw [touches_eq_changed same, differs]
    · rw [agrees x List.mem_cons_self rfl] at differs
      cases differs

theorem Drifted.next (h : Drifted first known (x :: xs)) (agreeing : Agreeing (x :: xs)) :
    Drifted first (touch s known x) xs := by
  intro n v found
  rw [touch_lookup] at found
  by_cases own : n = x.vlanId
  · rw [if_pos own, Option.map_eq_some_iff] at found
    obtain ⟨w, before, rfl⟩ := found
    by_cases differs : changed w x = true
    · rw [if_pos differs]
      refine .inr fun y mem named => ?_
      rw [agreeing y (List.mem_cons_of_mem x mem) x List.mem_cons_self (named.trans own)]
      exact changed_adopt w x
    · rw [if_neg differs]
      exact (h n w before).imp_right fun agrees y mem => agrees y (List.mem_cons_of_mem x mem)
  · rw [if_neg own] at found
    exact (h n v found).imp_right fun agrees y mem => agrees y (List.mem_cons_of_mem x mem)

/-- A real run counts an entry as updated only where a dry run does. -/
theorem Drifted.updates_le (h : Drifted first known xs) (agreeing : Agreeing xs) :
    List.Forall₂ (fun real dry => real = true → dry = true) (updates s false known xs)
      (xs.map (touches first)) := by
  induction xs generalizing known with
  | nil => exact .nil
  | cons x xs ih => exact .cons h.touches_first (ih (h.next agreeing) agreeing.tail)

theorem count_of_implies {as bs : List Bool}
    (h : List.Forall₂ (fun a b => a = true → b = true) as bs) : as.count true ≤ bs.count true := by
  induction h with
  | nil => exact Nat.le_refl 0
  | @cons a b as bs first _ ih =>
    rw [List.count_cons, List.count_cons]
    cases a
    · exact ih.trans (Nat.le_add_right _ _)
    · rw [first rfl]
      omega

/-- Flags that imply others and are as many are the same. -/
theorem eq_of_implies {as bs : List Bool}
    (h : List.Forall₂ (fun a b => a = true → b = true) as bs)
    (count : as.count true = bs.count true) : as = bs := by
  induction h with
  | nil => rfl
  | @cons a b as bs first rest ih =>
    have le := count_of_implies rest
    rw [List.count_cons, List.count_cons] at count
    cases a
    · cases b
      · rw [ih (by simpa using count)]
      · simp at count
        omega
    · rw [first rfl] at count ⊢
      rw [ih (by omega)]

/-- Once a known VLAN agrees with the entries of its id, the real run counts none of them, so there
are none left where the dry run counts them all. -/
theorem none_left {v w : Vlan} (flags : updates s false known xs = xs.map (touches first))
    (agreeing : Agreeing xs) (now : known.lookup n = some w) (before : first.lookup n = some v)
    (agrees : ∀ x ∈ xs, x.vlanId = n → changed w x = false)
    (differs : ∀ x ∈ xs, x.vlanId = n → changed v x = true) : xs.filter (·.vlanId = n) = [] := by
  induction xs generalizing known w with
  | nil => rfl
  | cons x xs ih =>
    rw [updates, if_neg Bool.false_ne_true, List.map_cons] at flags
    obtain ⟨flag, rest⟩ := List.cons.inj flags
    have other : x.vlanId ≠ n := by
      intro own
      rw [touches_eq_changed (own ▸ now), touches_eq_changed (own ▸ before),
        agrees x List.mem_cons_self own, differs x List.mem_cons_self own] at flag
      cases flag
    have kept : (touch s known x).lookup n = some w := by rw [touch_lookup, if_neg other.symm, now]
    rw [List.filter_cons, if_neg (by simpa using other)]
    exact ih rest agreeing.tail kept (fun y mem => agrees y (List.mem_cons_of_mem x mem))
      fun y mem => differs y (List.mem_cons_of_mem x mem)

/-- Where the real run counts as many as the dry run, an entry that changes a VLAN is the only one of
its id. -/
theorem single_of_flags {v : Vlan} (flags : updates s false known xs = xs.map (touches first))
    (agreeing : Agreeing xs) (now : known.lookup n = some v) (before : first.lookup n = some v)
    (differs : ∀ x ∈ xs, x.vlanId = n → changed v x = true) : Single xs n := by
  induction xs generalizing known with
  | nil => exact Nat.zero_le 1
  | cons x xs ih =>
    rw [updates, if_neg Bool.false_ne_true, List.map_cons] at flags
    have rest := (List.cons.inj flags).2
    have later := fun y mem => differs y (List.mem_cons_of_mem x mem)
    unfold Single
    by_cases own : x.vlanId = n
    · have next : (touch s known x).lookup n = some (v.adopt s x) := by
        rw [touch_lookup, if_pos own.symm, now, Option.map_some,
          if_pos (differs x List.mem_cons_self own)]
      have none := none_left rest agreeing.tail next before (fun y mem named => by
        rw [agreeing y (List.mem_cons_of_mem x mem) x List.mem_cons_self (named.trans own.symm)]
        exact changed_adopt v x) later
      rw [List.filter_cons, if_pos (decide_eq_true own), none]
      exact Nat.le_refl 1
    · have kept : (touch s known x).lookup n = some v := by
        rw [touch_lookup, if_neg (Ne.symm own), now]
      rw [List.filter_cons, if_neg (by simpa using own)]
      exact ih rest agreeing.tail kept later

/-- The entries of a repeatable import: the second run is quiet and the dry run counts the same. -/
theorem settled_of_repeatable (flushed : flush s t (progress s false t xs) = .ok t')
    (quiet : ∀ x ∈ xs, ∃ v, (byId (t'.live s.roleMap.siteId s.org)).lookup x.vlanId = some v ∧
      changed v x = false)
    (dry : (progress s true t xs).updated = (progress s false t xs).updated) :
    SettledEntries s xs t := by
  have agreeing := agreeing_of_quiet quiet
  have flags : updates s false (byId (t.live s.roleMap.siteId s.org)) xs =
      xs.map (touches (byId (t.live s.roleMap.siteId s.org))) := by
    refine eq_of_implies (Drifted.updates_le (fun n v found => .inl found) agreeing) ?_
    rw [progress, progress, fold_updated, fold_updated, updates_dry] at dry
    simpa using dry.symm
  have single : ∀ x ∈ xs, ∀ v ∈ t.live s.roleMap.siteId s.org, v.vlanId = x.vlanId →
      changed v x = false ∨ Single xs x.vlanId := by
    intro x mem v live named
    by_cases differs : changed v x = true
    · have found := (lookup_byId t).mpr ⟨live, named⟩
      refine .inr (single_of_flags flags agreeing found found fun y here same => ?_)
      rw [agreeing y here x mem same, differs]
    · exact .inl (Bool.eq_false_iff.mpr differs)
  have unambiguous : Unambiguous (byId (t.live s.roleMap.siteId s.org)) xs := by
    intro x mem
    cases found : (byId (t.live s.roleMap.siteId s.org)).lookup x.vlanId with
    | none => exact .inl (by rw [touches, found])
    | some v =>
      obtain ⟨live, named⟩ := (lookup_byId t).mp found
      rw [touches_eq_changed found]
      exact single x mem v live named
  obtain ⟨rows, accepted, added⟩ := flush_ok flushed
  have keys := t'.unique
  rw [rows, written_keys] at keys
  obtain ⟨-, ids, apart⟩ := List.nodup_append.mp keys
  have ids := (new_ids xs).mp (List.Nodup.of_map _ ids)
  constructor
  · intro x mem v live named
    by_cases differs : changed v x = true
    · have one := (single x mem v live named).resolve_left (by rw [differs]; exact Bool.noConfusion)
      obtain ⟨here, site⟩ := List.mem_filter.mp live
      obtain ⟨w, last, kept, agrees⟩ :=
        unambiguous.final (s := s) ((lookup_byId t).mpr ⟨live, named⟩)
      have final := agrees x mem rfl
      have value : written s (progress s false t xs).known v = w := by
        rw [written, if_pos site, progress_known, named, last]
        rfl
      have other : w ≠ v := by
        rintro rfl
        rw [differs] at final
        cases final
      obtain ⟨y, entry, same, -, rfl⟩ := kept.resolve_left other
      obtain rfl := one.eq entry mem same rfl
      have written := (accepted v here).resolve_left (by rwa [value])
      rw [value] at written
      exact .inr ⟨one, written⟩
    · exact .inl (Bool.eq_false_iff.mpr differs)
  · intro x mem new
    have fresh := (unknown_iff t x).mpr new
    have one := ids x mem fresh
    have row := mem_added.mpr ⟨x, mem, new, rfl⟩
    obtain ⟨v, found, agrees⟩ := quiet x mem
    rw [known_after flushed, List.lookup_append,
      knownAfter_none (Option.isNone_iff_eq_none.mp fresh), Option.none_or, ← progress_added] at found
    obtain ⟨w, created, same⟩ := List.mem_map.mp (Dictionary.mem_of_lookup found)
    obtain ⟨id, rfl⟩ := Prod.mk.inj same
    obtain ⟨y, entry, -, rfl⟩ := mem_added.mp created
    obtain rfl := one.eq entry mem id rfl
    obtain ⟨-, subnet, gateway⟩ := changed_false_iff.mp agrees
    refine ⟨fun empty => ?_, fun empty => ?_, one, added _ row, fun v here same => ?_⟩
    · simp [newVlan, empty] at subnet
    · simp [newVlan, empty] at gateway
    · refine apart v.key (List.mem_map_of_mem here) _ (List.mem_map_of_mem ?_) same
      exact List.mem_map_of_mem (List.mem_filter.mpr ⟨mem, fresh⟩)

/-! ### The import from the brain -/

/-- The site has a brain, which is a gateway. -/
def GatewayBrain (s : Site) : Prop :=
  ∃ brain, s.roleMap.brain = some brain ∧ brain.deviceType = "gateway" ∧ brain.gatewayId ≠ none

theorem mapM_fieldsOf (entries : List Dict) :
    (entries.map Json.obj).mapM fieldsOf = .ok entries := by
  induction entries with
  | nil => rfl
  | cons d entries ih =>
    rw [List.map_cons, List.mapM_cons, ih]
    rfl

theorem importFromBrain_entries (gateway : GatewayBrain s) (error : Option String) :
    importFromBrain s dryRun (.result true (.arr (entries.map .obj)) error) t =
      importEntries s dryRun entries t := by
  obtain ⟨brain, found, kind, id⟩ := gateway
  have read : items (.arr (entries.map .obj)) = .ok (entries.map .obj) := by
    cases entries <;> rfl
  unfold importFromBrain
  simp only [found]
  rw [if_neg (by simp [kind, id]), ok_bind read, ok_bind (mapM_fieldsOf entries)]

/-- Importing the answer of a brain twice changes nothing the second time, and a dry run tells what the
first time does, exactly when the entries are settled. -/
theorem repeatable_iff (gateway : GatewayBrain s) (entries : List Dict) (t : Table) :
    Repeatable s (.result true (.arr (entries.map .obj)) none) t ↔ Settled s entries t := by
  unfold Repeatable
  simp only [importFromBrain_entries gateway]
  constructor
  · rintro ⟨r, t', first, -, ⟨again, t'', second, created, updated, -⟩, dry, dryRun, -, same, -⟩
    obtain ⟨xs, read, -, firstUpdated, -, -, -, flushed⟩ := importEntries_ok first
    obtain ⟨xs', read', secondCreated, secondUpdated, -⟩ := importEntries_ok second
    obtain ⟨xs'', read'', -, dryUpdated, -⟩ := importEntries_ok dryRun
    obtain rfl : xs' = xs := Except.ok.inj (read'.symm.trans read)
    obtain rfl : xs'' = xs' := Except.ok.inj (read''.symm.trans read)
    refine ⟨xs'', read, settled_of_repeatable flushed (fun x mem => ?_) ?_⟩
    · rw [created, progress, fold_created, Nat.zero_add] at secondCreated
      rw [updated, progress, fold_updated, Nat.zero_add] at secondUpdated
      have agree := quiet_of_none secondUpdated.symm x mem
      have known := List.countP_eq_zero.mp secondCreated.symm x mem
      cases found : (byId (t'.live s.roleMap.siteId s.org)).lookup x.vlanId with
      | none => exact absurd (by rw [unknown, found]; rfl) known
      | some v =>
        rw [touches_eq_changed found] at agree
        exact ⟨v, rfl, agree⟩
    · rw [← dryUpdated, same, firstUpdated]
  · rintro ⟨xs, read, settled⟩
    obtain ⟨t', flushed⟩ := settled.flushes
    obtain ⟨created, updated, t'', flushed', rows⟩ :=
      quiet_import fun x mem => settled.quiet flushed mem
    have dry := settled.unambiguous.dry_updated
    exact ⟨_, t', importEntries_real read flushed, t'.live_ids _ _,
      ⟨_, t'', importEntries_real read flushed', created, updated, rows⟩,
      _, importEntries_dry read, (dry_counts dry).1, dry, (dry_counts dry).2⟩

/-- A site with one gateway, the brain. -/
def oneBrain : Site where
  roleMap := ⟨"site", [gatewayDevice "a" "gw" .brain false]⟩
  org := "org"
  py := ⟨fun v => String.ofList (Json.dumps v), fun _ => .invalid⟩
  accepts := fun v => -2147483648 ≤ v.vlanId && v.vlanId ≤ 2147483647
  newId := fun n => String.ofList (Json.intText n)

theorem oneBrain_gateway : GatewayBrain oneBrain :=
  ⟨gatewayDevice "a" "gw" .brain false, rfl, rfl, Option.some_ne_none "gw"⟩

def noVlans : Table := ⟨[], List.nodup_nil⟩

/-- Two canonical VLANs, and a deleted one. -/
def someVlans : Table :=
  ⟨[newVlan oneBrain ⟨10, "lan", "10.0.10.0/24", "10.0.10.1", ""⟩,
    newVlan oneBrain ⟨40, "voice", "10.0.40.0/24", "10.0.40.1", ""⟩,
    { newVlan oneBrain ⟨50, "old", "10.0.50.0/24", "10.0.50.1", ""⟩ with deleted := true }], by decide⟩

/-- Two new VLANs, a canonical one with another name, and one as it is. -/
def fourEntries : List Dict :=
  [[("vlan_id", .int 20), ("name", .str "guests"), ("subnet", .str "10.0.20.0/24"),
      ("gateway", .str "10.0.20.1")],
    [("vlan_id", .int 10), ("name", .str "staff"), ("subnet", .str "10.0.10.0/24")],
    [("vlan_id", .int 40), ("name", .str "voice"), ("subnet", .str "10.0.40.0/24"),
      ("gateway", .str "10.0.40.1")],
    [("vlan_id", .int 30), ("name", .str "cameras"), ("subnet", .str "10.0.30.0/24"),
      ("gateway", .str "10.0.30.1")]]

theorem repeatable_fourEntries :
    Repeatable oneBrain (.result true (.arr (fourEntries.map .obj)) none) someVlans ∧
      (importFromBrain oneBrain false (.result true (.arr (fourEntries.map .obj)) none) someVlans).map
        (fun result => (result.1.created, result.1.updated, result.1.unchanged)) = .ok (2, 1, 1) := by
  refine ⟨(repeatable_iff oneBrain_gateway fourEntries someVlans).mpr ?_, rfl⟩
  exact ⟨[⟨20, "guests", "10.0.20.0/24", "10.0.20.1", ""⟩, ⟨10, "staff", "10.0.10.0/24", "", ""⟩,
    ⟨40, "voice", "10.0.40.0/24", "10.0.40.1", ""⟩, ⟨30, "cameras", "10.0.30.0/24", "10.0.30.1", ""⟩],
    rfl, by decide, by decide⟩

/-- The brain reports a VLAN without a subnet: what is stored for it is a default, from which the entry
differs at the second import. -/
theorem import_not_repeatable :
    ¬ Repeatable oneBrain (.result true (.arr [.obj [("vlan_id", .int 10), ("name", .str "lan")]])
      none) noVlans := by
  rintro ⟨r, t', first, -, ⟨again, t'', second, -, updated, -⟩, -⟩
  have created : importFromBrain oneBrain false (.result true (.arr [.obj [("vlan_id", .int 10),
      ("name", .str "lan")]]) none) noVlans =
        .ok (⟨1, 0, 0, [], [⟨10, "lan", "", "", ""⟩], []⟩,
          ⟨[newVlan oneBrain ⟨10, "lan", "", "", ""⟩], by decide⟩) := rfl
  rw [created] at first
  obtain ⟨rfl, rfl⟩ := Prod.mk.inj (Except.ok.inj first)
  have differs : (importFromBrain oneBrain false (.result true (.arr [.obj [("vlan_id", .int 10),
      ("name", .str "lan")]]) none) ⟨[newVlan oneBrain ⟨10, "lan", "", "", ""⟩], by decide⟩).map
        (·.1.updated) = .ok 1 := rfl
  rw [second] at differs
  have one : again.updated = 1 := Except.ok.inj differs
  omega

end FreeSdn.Gateway
