import FreeSdn.Gateway.Import
import Mathlib.Data.List.Count

/-! The loop of the import by its parts: what an entry makes of the known VLANs, which rows and counts the
loop comes to, and the table that the flush leaves for the next import. -/

namespace FreeSdn.Gateway

open FreeSdn.Lib

variable {s : Site}

/-! ### One turn -/

theorem changed_false_iff {v : Vlan} {x : VlanData} :
    changed v x = false ↔ v.name = x.name ∧ v.subnet = x.subnet ∧ v.gatewayIp = x.gatewayIp := by
  simp [changed, and_assoc]

theorem changed_adopt (v : Vlan) (x : VlanData) : changed (v.adopt s x) x = false :=
  changed_false_iff.mpr ⟨rfl, rfl, rfl⟩

/-- Whether an entry differs from the VLAN that is known under its id. -/
def touches (known : List (Int × Vlan)) (x : VlanData) : Bool :=
  match known.lookup x.vlanId with
  | some v => changed v x
  | none => false

/-- What an entry makes of the known VLANs. -/
def touch (s : Site) (known : List (Int × Vlan)) (x : VlanData) : List (Int × Vlan) :=
  match known.lookup x.vlanId with
  | some v => if changed v x then Dictionary.setItem known x.vlanId (v.adopt s x) else known
  | none => known

def knownAfter (s : Site) (known : List (Int × Vlan)) (xs : List VlanData) : List (Int × Vlan) :=
  xs.foldl (touch s) known

/-- Which entries count as updated; a dry run compares each with the VLANs as they were. -/
def updates (s : Site) (dryRun : Bool) : List (Int × Vlan) → List VlanData → List Bool
  | _, [] => []
  | known, x :: xs =>
    touches known x :: updates s dryRun (if dryRun then known else touch s known x) xs

/-- Whether no canonical VLAN has the entry's id. -/
def unknown (known : List (Int × Vlan)) (x : VlanData) : Bool := (known.lookup x.vlanId).isNone

variable {known : List (Int × Vlan)} {x : VlanData} {xs : List VlanData} {n : Int}

theorem touch_lookup :
    (touch s known x).lookup n =
      if n = x.vlanId then
        (known.lookup n).map fun v => if changed v x then v.adopt s x else v
      else known.lookup n := by
  unfold touch
  cases found : known.lookup x.vlanId with
  | none =>
    by_cases same : n = x.vlanId
    · rw [if_pos same, same, found]
      rfl
    · rw [if_neg same]
  | some v =>
    by_cases differs : changed v x = true
    · simp only [differs, if_true]
      by_cases same : n = x.vlanId
      · rw [if_pos same, same, found, Dictionary.lookup_setItem_self, Option.map_some, if_pos differs]
      · rw [if_neg same, Dictionary.lookup_setItem_ne same]
    · simp only [differs, Bool.false_eq_true, if_false]
      by_cases same : n = x.vlanId
      · rw [if_pos same, same, found, Option.map_some, if_neg differs]
      · rw [if_neg same]

theorem touch_of_unchanged (same : touches known x = false) : touch s known x = known := by
  unfold touches at same
  unfold touch
  cases found : known.lookup x.vlanId with
  | none => rfl
  | some v =>
    rw [found] at same
    exact if_neg (by simpa using same)

theorem unknown_touch (y : VlanData) : unknown (touch s known x) y = unknown known y := by
  unfold unknown
  rw [touch_lookup]
  split
  · rw [Option.isNone_map]
  · rfl

/-! ### The loop by its parts -/

variable {dryRun : Bool} {p : Progress}

theorem reconcile_known :
    (reconcile s dryRun p x).known = if dryRun then p.known else touch s p.known x := by
  unfold reconcile touch
  cases p.known.lookup x.vlanId with
  | none => cases dryRun <;> rfl
  | some v =>
    cases dryRun
    · simp only [Bool.false_eq_true, if_false]
      split <;> rfl
    · simp only [if_true]
      split <;> rfl

theorem reconcile_added :
    (reconcile s dryRun p x).added =
      p.added ++ if !dryRun && unknown p.known x then [newVlan s x] else [] := by
  unfold reconcile unknown
  cases p.known.lookup x.vlanId with
  | none => cases dryRun <;> simp
  | some v =>
    simp only [Option.isNone_some, Bool.and_false, Bool.false_eq_true, if_false, List.append_nil]
    split <;> rfl

theorem reconcile_created :
    (reconcile s dryRun p x).created = p.created + if unknown p.known x then 1 else 0 := by
  unfold reconcile unknown
  cases p.known.lookup x.vlanId with
  | none => rfl
  | some v =>
    simp only [Option.isNone_some, Bool.false_eq_true, if_false, Nat.add_zero]
    split <;> rfl

theorem reconcile_updated :
    (reconcile s dryRun p x).updated = p.updated + if touches p.known x then 1 else 0 := by
  unfold reconcile touches
  cases p.known.lookup x.vlanId with
  | none => rfl
  | some v =>
    simp only
    split <;> rfl

theorem reconcile_total :
    let q := reconcile s dryRun p x
    q.created + q.updated + q.unchanged = p.created + p.updated + p.unchanged + 1 := by
  unfold reconcile
  cases p.known.lookup x.vlanId with
  | none =>
    simp only
    omega
  | some v =>
    simp only
    split
    · simp only
      omega
    · simp only
      omega

theorem fold_known (xs : List VlanData) (p : Progress) :
    (xs.foldl (reconcile s dryRun) p).known =
      if dryRun then p.known else knownAfter s p.known xs := by
  induction xs generalizing p with
  | nil => cases dryRun <;> rfl
  | cons x xs ih =>
    rw [List.foldl_cons, ih, reconcile_known]
    cases dryRun <;> rfl

/-- The loop keeps which ids are known. -/
theorem fold_added (xs : List VlanData) (p : Progress) :
    (xs.foldl (reconcile s dryRun) p).added =
      p.added ++ if dryRun then [] else (xs.filter (unknown p.known)).map (newVlan s) := by
  induction xs generalizing p with
  | nil => cases dryRun <;> simp
  | cons x xs ih =>
    have same : xs.filter (unknown (reconcile s dryRun p x).known) =
        xs.filter (unknown p.known) := by
      refine List.filter_congr fun y _ => ?_
      rw [reconcile_known]
      cases dryRun
      · exact unknown_touch y
      · rfl
    rw [List.foldl_cons, ih, same, reconcile_added, List.filter_cons]
    cases dryRun <;> cases unknown p.known x <;> simp

theorem fold_created (xs : List VlanData) (p : Progress) :
    (xs.foldl (reconcile s dryRun) p).created = p.created + xs.countP (unknown p.known) := by
  induction xs generalizing p with
  | nil => rfl
  | cons x xs ih =>
    have same : unknown (reconcile s dryRun p x).known = unknown p.known := by
      funext y
      rw [reconcile_known]
      cases dryRun
      · exact unknown_touch y
      · rfl
    rw [List.foldl_cons, ih, same, reconcile_created, List.countP_cons]
    omega

theorem fold_updated (xs : List VlanData) (p : Progress) :
    (xs.foldl (reconcile s dryRun) p).updated =
      p.updated + (updates s dryRun p.known xs).count true := by
  induction xs generalizing p with
  | nil => rfl
  | cons x xs ih =>
    rw [List.foldl_cons, ih, reconcile_known, reconcile_updated, updates, List.count_cons]
    simp only [beq_true]
    omega

theorem fold_total (xs : List VlanData) (p : Progress) :
    let q := xs.foldl (reconcile s dryRun) p
    q.created + q.updated + q.unchanged = p.created + p.updated + p.unchanged + xs.length := by
  induction xs generalizing p with
  | nil => rfl
  | cons x xs ih =>
    have total := @reconcile_total s x dryRun p
    have rest := ih (reconcile s dryRun p x)
    simp only [List.foldl_cons, List.length_cons] at total rest ⊢
    omega

/-! ### Dry runs and real runs -/

theorem updates_dry (xs : List VlanData) : updates s true known xs = xs.map (touches known) := by
  induction xs with
  | nil => rfl
  | cons x xs ih => rw [updates, List.map_cons, if_pos rfl, ih]

theorem knownAfter_cons : knownAfter s known (x :: xs) = knownAfter s (touch s known x) xs := rfl

/-- Entries that all agree with what is known leave it, and none counts as updated. -/
theorem quiet_run (quiet : ∀ x ∈ xs, touches known x = false) :
    knownAfter s known xs = known ∧ (updates s false known xs).count true = 0 := by
  induction xs with
  | nil => exact ⟨rfl, rfl⟩
  | cons x xs ih =>
    have first := quiet x List.mem_cons_self
    obtain ⟨same, none⟩ := ih fun y mem => quiet y (List.mem_cons_of_mem x mem)
    rw [knownAfter_cons, updates, if_neg Bool.false_ne_true, touch_of_unchanged first, first]
    exact ⟨same, by simpa using none⟩

theorem quiet_of_none (none : (updates s false known xs).count true = 0) :
    ∀ x ∈ xs, touches known x = false := by
  induction xs with
  | nil => exact fun _ mem => absurd mem List.not_mem_nil
  | cons x xs ih =>
    rw [updates, if_neg Bool.false_ne_true, List.count_cons, Nat.add_eq_zero_iff] at none
    have first : touches known x = false := by
      cases differs : touches known x with
      | false => rfl
      | true =>
        rw [differs] at none
        simp at none
    rw [touch_of_unchanged first] at none
    exact List.forall_mem_cons.mpr ⟨first, ih none.1⟩

/-- The entries have one of each id. -/
def Single (xs : List VlanData) (n : Int) : Prop := (xs.filter (·.vlanId = n)).length ≤ 1

instance (xs : List VlanData) (n : Int) : Decidable (Single xs n) := inferInstanceAs (Decidable (_ ≤ 1))

theorem Single.head (single : Single (x :: xs) x.vlanId) : ∀ y ∈ xs, y.vlanId ≠ x.vlanId := by
  intro y mem same
  have second : 0 < (xs.filter (·.vlanId = x.vlanId)).length :=
    List.length_pos_iff.mpr (List.ne_nil_of_mem (List.mem_filter.mpr ⟨mem, decide_eq_true same⟩))
  rw [Single, List.filter_cons, if_pos (decide_eq_true rfl), List.length_cons] at single
  omega

theorem Single.tail (single : Single (x :: xs) n) : Single xs n := by
  have shorter := ((List.sublist_cons_self x xs).filter (·.vlanId = n)).length_le
  exact shorter.trans single

/-- Each entry for a known id agrees with what is known, or is the only one of its id. -/
def Unambiguous (known : List (Int × Vlan)) (xs : List VlanData) : Prop :=
  ∀ x ∈ xs, touches known x = false ∨ Single xs x.vlanId

/-- What an unambiguous list does to one id does not bear on the others. -/
theorem Unambiguous.lookup (h : Unambiguous known (x :: xs)) {y : VlanData} (mem : y ∈ xs) :
    (touch s known x).lookup y.vlanId = known.lookup y.vlanId := by
  rcases h x List.mem_cons_self with same | single
  · rw [touch_of_unchanged same]
  · rw [touch_lookup, if_neg (single.head y mem)]

theorem Unambiguous.touches_eq (h : Unambiguous known (x :: xs)) {y : VlanData} (mem : y ∈ xs) :
    touches (touch s known x) y = touches known y := by
  unfold touches
  rw [h.lookup mem]

theorem Unambiguous.tail (h : Unambiguous known (x :: xs)) :
    Unambiguous (touch s known x) xs := by
  intro y mem
  rw [h.touches_eq mem]
  exact (h y (List.mem_cons_of_mem x mem)).imp_right Single.tail

theorem Unambiguous.updates_eq (h : Unambiguous known xs) :
    updates s false known xs = xs.map (touches known) := by
  induction xs generalizing known with
  | nil => rfl
  | cons x xs ih =>
    rw [updates, if_neg Bool.false_ne_true, ih h.tail, List.map_cons]
    exact congrArg _ (List.map_congr_left fun y mem => h.touches_eq mem)

theorem touches_eq_changed {v : Vlan} (found : known.lookup x.vlanId = some v) :
    touches known x = changed v x := by
  rw [touches, found]

/-- What an unambiguous list leaves under a known id: the VLAN as it was, or with the data of the one
entry for it; every entry for it agrees. -/
theorem Unambiguous.final (h : Unambiguous known xs) {v : Vlan} (found : known.lookup n = some v) :
    ∃ w, (knownAfter s known xs).lookup n = some w ∧
      (w = v ∨ ∃ x ∈ xs, x.vlanId = n ∧ changed v x = true ∧ w = v.adopt s x) ∧
      ∀ x ∈ xs, x.vlanId = n → changed w x = false := by
  induction xs generalizing known v with
  | nil => exact ⟨v, found, .inl rfl, fun _ mem => absurd mem List.not_mem_nil⟩
  | cons x xs ih =>
    rw [knownAfter_cons]
    by_cases own : x.vlanId = n
    · subst own
      have same := touches_eq_changed found
      by_cases differs : changed v x = true
      · -- The only entry of its id: no other one changes what it leaves.
        have single : Single (x :: xs) x.vlanId := (h x List.mem_cons_self).resolve_left (by
          rw [same, differs]
          exact Bool.noConfusion)
        have next : (touch s known x).lookup x.vlanId = some (v.adopt s x) := by
          rw [touch_lookup, if_pos rfl, found, Option.map_some, if_pos differs]
        obtain ⟨w, last, kept, agrees⟩ := ih h.tail next
        have other := single.head
        have left : w = v.adopt s x := kept.resolve_right fun ⟨y, mem, named, _⟩ => other y mem named
        subst left
        exact ⟨_, last, .inr ⟨x, List.mem_cons_self, rfl, differs, rfl⟩,
          List.forall_mem_cons.mpr ⟨fun _ => changed_adopt v x, agrees⟩⟩
      · have quiet : touches known x = false := by rw [same, Bool.eq_false_iff.mpr differs]
        obtain ⟨w, last, kept, agrees⟩ := ih h.tail (by rwa [touch_of_unchanged (s := s) quiet])
        -- An entry that changed the VLAN would have been the only one of its id.
        have left : w = v := by
          refine kept.resolve_right fun ⟨y, mem, named, change, _⟩ => ?_
          rcases h y (List.mem_cons_of_mem x mem) with unchanged | single
          · rw [touches_eq_changed (named ▸ found), change] at unchanged
            cases unchanged
          · rw [Single, List.filter_cons, if_pos (decide_eq_true named.symm)] at single
            have second : 0 < (xs.filter (·.vlanId = y.vlanId)).length := List.length_pos_iff.mpr
              (List.ne_nil_of_mem (List.mem_filter.mpr ⟨mem, decide_eq_true rfl⟩))
            rw [List.length_cons] at single
            omega
        subst left
        exact ⟨w, last, .inl rfl,
          List.forall_mem_cons.mpr ⟨fun _ => Bool.eq_false_iff.mpr differs, agrees⟩⟩
    · have next : (touch s known x).lookup n = some v := by
        rw [touch_lookup, if_neg (Ne.symm own), found]
      obtain ⟨w, last, kept, agrees⟩ := ih h.tail next
      refine ⟨w, last, kept.imp_right fun ⟨y, mem, rest⟩ => ⟨y, List.mem_cons_of_mem x mem, rest⟩,
        List.forall_mem_cons.mpr ⟨fun named => absurd named own, agrees⟩⟩

/-! ### The table after the flush -/

/-- The known VLANs are filed under their ids and are live VLANs of the site. -/
structure Filed (s : Site) (known : List (Int × Vlan)) : Prop where
  distinct : (known.map Prod.fst).Nodup
  id : ∀ m ∈ known, m.2.vlanId = m.1
  live : ∀ m ∈ known, m.2.live s.roleMap.siteId s.org = true

theorem filed_byId (t : Table) : Filed s (byId (t.live s.roleMap.siteId s.org)) := by
  have keys : (byId (t.live s.roleMap.siteId s.org)).map Prod.fst =
      (t.live s.roleMap.siteId s.org).map Vlan.vlanId := by
    rw [byId, List.map_map]
    rfl
  refine ⟨keys ▸ t.live_ids _ _, ?_, ?_⟩
  · intro m mem
    obtain ⟨v, -, rfl⟩ := List.mem_map.mp mem
    rfl
  · intro m mem
    obtain ⟨v, here, rfl⟩ := List.mem_map.mp mem
    exact (List.mem_filter.mp here).2

theorem touch_keys : (touch s known x).map Prod.fst = known.map Prod.fst := by
  unfold touch
  cases found : known.lookup x.vlanId with
  | none => rfl
  | some v =>
    simp only
    split
    · exact Dictionary.keys_setItem (by rw [found]; rfl)
    · rfl

theorem knownAfter_keys : (knownAfter s known xs).map Prod.fst = known.map Prod.fst := by
  induction xs generalizing known with
  | nil => rfl
  | cons x xs ih => rw [knownAfter_cons, ih, touch_keys]

theorem knownAfter_none (none : known.lookup n = none) :
    (knownAfter s known xs).lookup n = Option.none := by
  rw [List.lookup_eq_none_iff] at none ⊢
  intro m here
  have key := List.mem_map_of_mem (f := Prod.fst) here
  rw [knownAfter_keys] at key
  obtain ⟨k, there, same⟩ := List.mem_map.mp key
  rw [← same]
  exact none k there

theorem Filed.touched (h : Filed s known) : Filed s (touch s known x) := by
  have kept : ∀ m ∈ touch s known x, m ∈ known ∨
      ∃ v, (x.vlanId, v) ∈ known ∧ m = (x.vlanId, v.adopt s x) := by
    intro m mem
    unfold touch at mem
    cases found : known.lookup x.vlanId with
    | none =>
      rw [found] at mem
      exact .inl mem
    | some v =>
      simp only [found] at mem
      split at mem
      · rcases Dictionary.mem_setItem mem with new | ⟨-, old⟩
        · exact .inr ⟨v, Dictionary.mem_of_lookup found, new⟩
        · exact .inl old
      · exact .inl mem
  refine ⟨by rw [touch_keys]; exact h.distinct, ?_, ?_⟩
  · intro m mem
    rcases kept m mem with old | ⟨v, here, rfl⟩
    · exact h.id m old
    · exact h.id (x.vlanId, v) here
  · intro m mem
    rcases kept m mem with old | ⟨v, here, rfl⟩
    · exact h.live m old
    · exact h.live (x.vlanId, v) here

theorem Filed.run (h : Filed s known) : Filed s (knownAfter s known xs) := by
  induction xs generalizing known with
  | nil => exact h
  | cons x xs ih => exact ih h.touched

/-- The rows of a site as they are written are the known VLANs. -/
theorem written_live {live : List Vlan} (filed : Filed s known)
    (here : ∀ v ∈ live, v.live s.roleMap.siteId s.org = true)
    (keys : known.map Prod.fst = live.map Vlan.vlanId) :
    byId (live.map (written s known)) = known := by
  have found : ∀ v ∈ live, some (written s known v) = known.lookup v.vlanId := by
    intro v mem
    have named : v.vlanId ∈ known.map Prod.fst := keys ▸ List.mem_map_of_mem mem
    obtain ⟨m, entry, same⟩ := List.mem_map.mp named
    have value := Dictionary.lookup_of_mem filed.distinct (show (v.vlanId, m.2) ∈ known by
      rw [← same]
      exact entry)
    rw [written, if_pos (here v mem), value]
    rfl
  have values : (live.map (written s known)).map some = (known.map Prod.snd).map some := by
    calc (live.map (written s known)).map some = live.map fun v => known.lookup v.vlanId := by
          rw [List.map_map]
          exact List.map_congr_left found
      _ = (known.map Prod.fst).map fun n => known.lookup n := by
          rw [keys, List.map_map]
          rfl
      _ = (known.map Prod.snd).map some := by
          rw [List.map_map, List.map_map]
          exact List.map_congr_left fun m mem => Dictionary.lookup_of_mem filed.distinct mem
  rw [List.map_injective_iff.mpr (fun _ _ => Option.some.inj) values, byId, List.map_map]
  calc known.map ((fun v => (v.vlanId, v)) ∘ Prod.snd) = known.map id :=
        List.map_congr_left fun m mem => by
          rw [Function.comp_apply, filed.id m mem]
          rfl
    _ = known := List.map_id known

theorem written_is_live (filed : Filed s known) (v : Vlan) :
    (written s known v).live s.roleMap.siteId s.org = v.live s.roleMap.siteId s.org := by
  unfold written
  split
  · rename_i here
    cases found : known.lookup v.vlanId with
    | none => rfl
    | some w => rw [here]; exact filed.live _ (Dictionary.mem_of_lookup found)
  · rfl

/-- What a successful flush leaves: the rows as written and the new ones. -/
theorem flush_ok {t t' : Table} {p : Progress} (h : flush s t p = .ok t') :
    t'.rows = t.rows.map (written s p.known) ++ p.added ∧
      (∀ v ∈ t.rows, written s p.known v = v ∨ s.accepts (written s p.known v) = true) ∧
      ∀ v ∈ p.added, s.accepts v = true := by
  unfold flush at h
  simp only at h
  split at h
  · rename_i accepted
    split at h
    · obtain rfl := Except.ok.inj h
      simpa [List.all_eq_true] using accepted
    · cases h
  · cases h

theorem flush_succeeds {t : Table} {p : Progress}
    (rows : ∀ v ∈ t.rows, written s p.known v = v ∨ s.accepts (written s p.known v) = true)
    (added : ∀ v ∈ p.added, s.accepts v = true)
    (unique : ((t.rows.map (written s p.known) ++ p.added).map Vlan.key).Nodup) :
    ∃ t', flush s t p = .ok t' ∧ t'.rows = t.rows.map (written s p.known) ++ p.added := by
  have accepted : (t.rows.all (fun v => written s p.known v = v || s.accepts (written s p.known v)) &&
      p.added.all s.accepts) = true := by
    simpa [List.all_eq_true] using And.intro rows added
  unfold flush
  simp only
  rw [if_pos accepted, dif_pos unique]
  exact ⟨_, rfl, rfl⟩

/-- The known VLANs of the next import. -/
theorem live_after {t t' : Table} {p : Progress} (filed : Filed s p.known)
    (keys : p.known.map Prod.fst = (t.live s.roleMap.siteId s.org).map Vlan.vlanId)
    (added : ∀ v ∈ p.added, v.live s.roleMap.siteId s.org = true)
    (rows : t'.rows = t.rows.map (written s p.known) ++ p.added) :
    byId (t'.live s.roleMap.siteId s.org) = p.known ++ byId p.added := by
  have old : (t.rows.map (written s p.known)).filter (Vlan.live s.roleMap.siteId s.org) =
      (t.live s.roleMap.siteId s.org).map (written s p.known) := by
    rw [List.filter_map]
    congr 1
    exact List.filter_congr fun v _ => written_is_live filed v
  rw [Table.live, rows, List.filter_append, old, List.filter_eq_self.mpr added, byId,
    List.map_append]
  congr 1
  exact written_live filed (fun v mem => (List.mem_filter.mp mem).2) keys

/-! ### Imports -/

/-- The progress that an import makes on a table. -/
def progress (s : Site) (dryRun : Bool) (t : Table) (xs : List VlanData) : Progress :=
  xs.foldl (reconcile s dryRun) ⟨byId (t.live s.roleMap.siteId s.org), [], 0, 0, 0⟩

variable {entries : List Dict} {t t' : Table} {r : ImportResult}

theorem importEntries_ok (h : importEntries s dryRun entries t = .ok (r, t')) :
    ∃ xs, readEntries s entries = .ok xs ∧ r.created = (progress s dryRun t xs).created ∧
      r.updated = (progress s dryRun t xs).updated ∧
      r.unchanged = (progress s dryRun t xs).unchanged ∧ r.vlans = xs ∧
      r.orphaned = orphans (progress s dryRun t xs).known xs ∧
      if dryRun then t' = t else flush s t (progress s dryRun t xs) = .ok t' := by
  obtain ⟨xs, read, h⟩ := bind_ok h
  refine ⟨xs, read, ?_⟩
  cases dryRun
  · obtain ⟨u, flushed, h⟩ := bind_ok h
    obtain ⟨rfl, rfl⟩ := Prod.mk.inj (Except.ok.inj h)
    exact ⟨rfl, rfl, rfl, rfl, rfl, flushed⟩
  · obtain ⟨rfl, rfl⟩ := Prod.mk.inj (Except.ok.inj h)
    exact ⟨rfl, rfl, rfl, rfl, rfl, rfl⟩

theorem importEntries_dry {xs : List VlanData} (read : readEntries s entries = .ok xs) :
    importEntries s true entries t =
      .ok (⟨(progress s true t xs).created, (progress s true t xs).updated,
        (progress s true t xs).unchanged, [], xs, orphans (progress s true t xs).known xs⟩, t) :=
  ok_bind read

theorem importEntries_real {xs : List VlanData} (read : readEntries s entries = .ok xs)
    (flushed : flush s t (progress s false t xs) = .ok t') :
    importEntries s false entries t =
      .ok (⟨(progress s false t xs).created, (progress s false t xs).updated,
        (progress s false t xs).unchanged, [], xs, orphans (progress s false t xs).known xs⟩, t') :=
  (ok_bind read).trans (ok_bind flushed)

theorem progress_known (t : Table) (xs : List VlanData) :
    (progress s false t xs).known = knownAfter s (byId (t.live s.roleMap.siteId s.org)) xs :=
  fold_known xs _

theorem progress_added (t : Table) (xs : List VlanData) :
    (progress s false t xs).added =
      (xs.filter (unknown (byId (t.live s.roleMap.siteId s.org)))).map (newVlan s) :=
  (fold_added xs _).trans (List.nil_append _)

/-- The known VLANs of an import that follows another. -/
theorem known_after (flushed : flush s t (progress s false t xs) = .ok t') :
    byId (t'.live s.roleMap.siteId s.org) =
      knownAfter s (byId (t.live s.roleMap.siteId s.org)) xs ++
        byId ((xs.filter (unknown (byId (t.live s.roleMap.siteId s.org)))).map (newVlan s)) := by
  have filed : Filed s (knownAfter s (byId (t.live s.roleMap.siteId s.org)) xs) :=
    (filed_byId t).run
  have keys : (knownAfter s (byId (t.live s.roleMap.siteId s.org)) xs).map Prod.fst =
      (t.live s.roleMap.siteId s.org).map Vlan.vlanId := by
    rw [knownAfter_keys, byId, List.map_map]
    rfl
  rw [← progress_known] at filed keys ⊢
  rw [← progress_added]
  refine live_after filed keys (fun v mem => ?_) (flush_ok flushed).1
  rw [progress_added] at mem
  obtain ⟨x, -, rfl⟩ := List.mem_map.mp mem
  simp [Vlan.live, newVlan]

end FreeSdn.Gateway
