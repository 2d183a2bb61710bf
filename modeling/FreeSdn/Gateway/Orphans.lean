import FreeSdn.Gateway.Alignment
import FreeSdn.Gateway.Idempotence

/-! The import and the alignment check read the ids of a brain's entries in two loops. They agree on an entry
with a member for its id; only the check takes the id of another entry from its name. -/

namespace FreeSdn.Gateway

open FreeSdn.Lib

variable {s : Site} {py : Python} {d : Dict} {entries : List Dict} {t t' : Table} {r : ImportResult}
  {n : Int}

/-! ### The ids of an entry -/

/-- The id that a member of the entry gives. -/
def memberId (py : Python) (d : Dict) : Option Int :=
  match toInt py (firstTrue d vlanIdKeys) with
  | .number n => some n
  | _ => none

/-- The id that the name or the description gives where no member does. -/
def nameId (py : Python) (d : Dict) : Option Int :=
  match firstTrue d vlanIdKeys with
  | .null => (nameDigits py d).bind readInt
  | _ => none

theorem deviceVlanId_eq (finite : toInt py (firstTrue d vlanIdKeys) ≠ .overflow) :
    deviceVlanId py d = .ok ((memberId py d).or (nameId py d)) := by
  unfold deviceVlanId rawVlanId memberId nameId
  cases raw : firstTrue d vlanIdKeys with
  | null =>
    cases nameDigits py d with
    | none => rfl
    | some digits =>
      simp only [Option.map_some, Option.getD_some, toInt, Option.none_or, Option.bind_some]
      cases readInt digits <;> rfl
  | bool b => rfl
  | int i => rfl
  | float f =>
    rw [raw] at finite
    cases value : toInt py (.float f) with
    | number n => simp only [value, Option.some_or]
    | invalid => simp only [value, Option.none_or]
    | overflow => exact absurd value finite
  | str text =>
    simp only [toInt]
    cases readInt text <;> rfl
  | arr values => rfl
  | obj members => rfl

theorem readEntry_id {o : Option VlanData} (h : readEntry s d = .ok o) :
    toInt s.py (firstTrue d vlanIdKeys) ≠ .overflow ∧ o.map VlanData.vlanId = memberId s.py d := by
  unfold readEntry at h
  unfold memberId
  split at h
  · rename_i none
    obtain rfl := Except.ok.inj h
    rw [none]
    exact ⟨Converted.noConfusion, rfl⟩
  · split at h
    · rename_i invalid
      obtain rfl := Except.ok.inj h
      rw [invalid]
      exact ⟨Converted.noConfusion, rfl⟩
    · cases h
    · rename_i number
      obtain rfl := Except.ok.inj h
      rw [number]
      exact ⟨Converted.noConfusion, rfl⟩

/-! ### The ids of an answer -/

theorem mapM_readEntry_ids {read : List (Option VlanData)}
    (h : entries.mapM (readEntry s) = .ok read) :
    (read.filterMap id).map VlanData.vlanId = entries.filterMap (memberId s.py) ∧
      entries.mapM (deviceVlanId s.py) =
        .ok (entries.map fun d => (memberId s.py d).or (nameId s.py d)) := by
  induction entries generalizing read with
  | nil =>
    obtain rfl := Except.ok.inj h
    exact ⟨rfl, rfl⟩
  | cons d entries ih =>
    rw [List.mapM_cons] at h
    obtain ⟨o, first, h⟩ := bind_ok h
    obtain ⟨rest, later, h⟩ := bind_ok h
    obtain rfl := Except.ok.inj h
    obtain ⟨ids, checked⟩ := ih later
    obtain ⟨finite, own⟩ := readEntry_id first
    constructor
    · rw [List.filterMap_cons, List.filterMap_cons, ← own]
      cases o with
      | none => exact ids
      | some x => exact congrArg (x.vlanId :: ·) ids
    · exact mapM_cons_eq (deviceVlanId_eq finite) checked

/-- The ids that the import reads, and what the check reads of the same entries. -/
theorem readEntries_ids {xs : List VlanData} (h : readEntries s entries = .ok xs) :
    xs.map VlanData.vlanId = entries.filterMap (memberId s.py) ∧
      entries.mapM (deviceVlanId s.py) =
        .ok (entries.map fun d => (memberId s.py d).or (nameId s.py d)) := by
  obtain ⟨read, each, h⟩ := bind_ok h
  obtain rfl := Except.ok.inj h
  exact mapM_readEntry_ids each

/-- Every id that a name gives is the id of an entry with a member for it. -/
def NamesAgree (py : Python) (entries : List Dict) : Prop :=
  ∀ d ∈ entries, ∀ n, nameId py d = some n → ∃ e ∈ entries, memberId py e = some n

/-- The ids that the check finds. -/
theorem mem_ids :
    n ∈ ((entries.map fun d => (memberId py d).or (nameId py d)).filterMap id).dedup ↔
      (∃ d ∈ entries, memberId py d = some n) ∨ ∃ d ∈ entries, nameId py d = some n := by
  have either : ∀ d, (memberId py d).or (nameId py d) = some n ↔
      memberId py d = some n ∨ nameId py d = some n := by
    intro d
    unfold memberId nameId
    cases raw : firstTrue d vlanIdKeys <;> simp [toInt]
  rw [List.mem_dedup, List.mem_filterMap]
  constructor
  · rintro ⟨o, mem, same⟩
    obtain ⟨d, entry, rfl⟩ := List.mem_map.mp mem
    rcases (either d).mp same with member | name
    · exact .inl ⟨d, entry, member⟩
    · exact .inr ⟨d, entry, name⟩
  · rintro (⟨d, entry, member⟩ | ⟨d, entry, name⟩)
    · exact ⟨_, List.mem_map_of_mem entry, (either d).mpr (.inl member)⟩
    · exact ⟨_, List.mem_map_of_mem entry, (either d).mpr (.inr name)⟩

/-! ### An import and the check after it -/

def membersOf : Json → Option Dict
  | .obj members => some members
  | _ => none

/-- The entries of an answer. -/
def entriesOf : Reply → List Dict
  | .result true (.arr values) _ => values.filterMap membersOf
  | _ => []

theorem mapM_fieldsOf_ok {values : List Json} (h : values.mapM fieldsOf = .ok entries) :
    values = entries.map .obj := by
  induction values generalizing entries with
  | nil =>
    obtain rfl := Except.ok.inj h
    rfl
  | cons v values ih =>
    rw [List.mapM_cons] at h
    obtain ⟨d, first, h⟩ := bind_ok h
    obtain ⟨rest, later, h⟩ := bind_ok h
    obtain rfl := Except.ok.inj h
    cases v with
    | obj members =>
      obtain rfl := Except.ok.inj first
      rw [List.map_cons, ih later]
    | _ => cases first

theorem items_entries {data : Json} {values : List Json} (error : Option String)
    (read : items data = .ok values) (h : values.mapM fieldsOf = .ok entries) :
    entriesOf (.result true data error) = entries := by
  obtain rfl := mapM_fieldsOf_ok h
  unfold items at read
  split at read
  · cases data with
    | arr values =>
      obtain rfl := Except.ok.inj read
      simp [entriesOf, membersOf, List.filterMap_map, Function.comp_def]
    | obj members =>
      cases members with
      | nil => cases entries <;> cases read; rfl
      | cons m members =>
        have same := Except.ok.inj read
        cases entries <;> simp at same
    | str text =>
      have same := Except.ok.inj read
      cases chars : text.toList with
      | nil =>
        rw [chars] at same
        cases entries <;> cases same; rfl
      | cons c chars' =>
        rw [chars] at same
        cases entries <;> cases same
    | _ => cases read
  · rename_i empty
    have none : entries = [] := List.map_eq_nil_iff.mp (Except.ok.inj read).symm
    subst none
    cases data with
    | arr values =>
      cases values with
      | nil => rfl
      | cons v values => exact absurd rfl empty
    | _ => rfl

theorem not_failed {why : String} (h : Except.ok (ε := Raised) (ImportResult.failed why, t) =
    .ok (r, t')) : r.errors ≠ [] := by
  obtain ⟨rfl, -⟩ := Prod.mk.inj (Except.ok.inj h)
  exact List.cons_ne_nil _ _

/-- What a successful import reads. -/
theorem importFromBrain_read {dryRun : Bool} {reply : Reply}
    (h : importFromBrain s dryRun reply t = .ok (r, t')) (success : r.errors = []) :
    ∃ brain data error values, s.roleMap.brain = some brain ∧ brain.deviceType = "gateway" ∧
      reply = .result true data error ∧ items data = .ok values ∧
      values = (entriesOf reply).map .obj ∧
      importEntries s dryRun (entriesOf reply) t = .ok (r, t') := by
  unfold importFromBrain at h
  cases found : s.roleMap.brain with
  | none =>
    rw [found] at h
    exact absurd success (not_failed h)
  | some brain =>
    simp only [found] at h
    split at h
    · exact absurd success (not_failed h)
    · rename_i usable
      cases reply with
      | noAdapter e => exact absurd success (not_failed h)
      | timeout => exact absurd success (not_failed h)
      | raised e => exact absurd success (not_failed h)
      | result success' data error =>
        cases success' with
        | false => exact absurd success (not_failed h)
        | true =>
          obtain ⟨values, read, h⟩ := bind_ok h
          obtain ⟨entries, members, h⟩ := bind_ok h
          obtain rfl := items_entries error read members
          exact ⟨brain, data, error, values, rfl, by_contra fun other => usable (.inl other), rfl,
            read, mapM_fieldsOf_ok members, h⟩

/-- The check of the brain against the same answer. -/
theorem check_read {fleet : Fleet} {brain : Assignment} {reply : Reply} {data : Json}
    {error : Option String} {values : List Json} {ids : List (Option Int)} {known : List (Int × Vlan)}
    (gateway : brain.deviceType = "gateway") (answer : fleet.gateway brain = reply)
    (result : reply = .result true data error) (read : items data = .ok values)
    (members : values = entries.map .obj)
    (found : entries.mapM (deviceVlanId fleet.py) = .ok ids) :
    checkDeviceAlignment fleet known brain =
      .ok (known.map (canonicalItem brain (ids.filterMap id).dedup) ++
        ((ids.filterMap id).dedup.filter fun n => n ∉ known.map Prod.fst).map (extraItem brain)) := by
  have vlans : deviceVlans fleet brain = .ok data := by
    unfold deviceVlans
    rw [if_pos gateway, answer, result]
  have each : values.mapM (fun v => fieldsOf v >>= deviceVlanId fleet.py) = .ok ids := by
    rw [members, List.mapM_map]
    exact found
  unfold checkDeviceAlignment
  rw [vlans]
  simp only
  refine ok_bind ?_
  unfold deviceVlanIds
  rw [ok_bind read, ok_bind each]

/-- The check finds no VLAN that is not canonical, and misses the orphans of the import. -/
def Agrees (r : ImportResult) (checked : Except Raised (List AlignmentItem)) : Prop :=
  ∃ found, checked = .ok found ∧ (∀ item ∈ found, item.status ≠ .extra) ∧
    (found.filter (·.status = .missing)).map (fun item => (item.canonicalVlanUuid, item.vlanId)) =
      r.orphaned.map fun o => (some o.canonicalVlanUuid, o.vlanId)

theorem missing_items (a : Assignment) (known : List (Int × Vlan)) (ids others : List Int) :
    ((known.map (canonicalItem a ids) ++ others.map (extraItem a)).filter
        (·.status = .missing)).map (fun item => (item.canonicalVlanUuid, item.vlanId)) =
      (known.filter (·.1 ∉ ids)).map fun m => (some m.2.id, m.1) := by
  have canonical : ∀ m : Int × Vlan,
      decide ((canonicalItem a ids m).status = .missing) = decide (m.1 ∉ ids) := by
    intro m
    by_cases mem : m.1 ∈ ids <;> simp [canonicalItem, mem]
  have none : (others.map (extraItem a)).filter (·.status = .missing) = [] := by
    simp [List.filter_eq_nil_iff, extraItem]
  rw [List.filter_append, none, List.append_nil, List.filter_map, List.map_map]
  simp only [Function.comp_def, canonical]
  rfl

theorem no_extra_iff {a : Assignment} {known : List (Int × Vlan)} {ids others : List Int} :
    (∀ item ∈ known.map (canonicalItem a ids) ++ others.map (extraItem a), item.status ≠ .extra) ↔
      others = [] := by
  constructor
  · intro none
    cases others with
    | nil => rfl
    | cons n others => exact absurd rfl (none (extraItem a n) (by simp))
  · rintro rfl item mem
    rw [List.map_nil, List.append_nil] at mem
    obtain ⟨m, -, rfl⟩ := List.mem_map.mp mem
    unfold canonicalItem
    split <;> exact AlignmentStatus.noConfusion

/-- After an import the canonical VLANs are those that were known, with new data, and others that
the brain reports. -/
theorem known_after_import {xs : List VlanData}
    (flushed : flush s t (progress s false t xs) = .ok t') :
    ∃ new, byId (t'.live s.roleMap.siteId s.org) = (progress s false t xs).known ++ new ∧
      (∀ m ∈ new, m.1 ∈ xs.map VlanData.vlanId) ∧
      ∀ n ∈ xs.map VlanData.vlanId,
        n ∈ (byId (t'.live s.roleMap.siteId s.org)).map Prod.fst := by
  rw [known_after flushed, ← progress_known]
  refine ⟨_, rfl, ?_, ?_⟩
  · intro m mem
    obtain ⟨v, added, rfl⟩ := List.mem_map.mp mem
    obtain ⟨x, entry, rfl⟩ := List.mem_map.mp added
    exact List.mem_map_of_mem (List.mem_filter.mp entry).1
  · intro n named
    obtain ⟨x, mem, rfl⟩ := List.mem_map.mp named
    rw [List.map_append, List.mem_append, progress_known, knownAfter_keys]
    by_cases new : unknown (byId (t.live s.roleMap.siteId s.org)) x = true
    · refine .inr (List.mem_map.mpr ⟨(x.vlanId, newVlan s x), ?_, rfl⟩)
      exact List.mem_map.mpr ⟨newVlan s x,
        List.mem_map_of_mem (List.mem_filter.mpr ⟨mem, new⟩), rfl⟩
    · cases found : (byId (t.live s.roleMap.siteId s.org)).lookup x.vlanId with
      | none => exact absurd (by rw [unknown, found]; rfl) new
      | some v => exact .inl (List.mem_map_of_mem (f := Prod.fst) (Dictionary.mem_of_lookup found))

theorem orphans_listed (known : List (Int × Vlan)) (xs : List VlanData) :
    (orphans known xs).map (fun o => (some o.canonicalVlanUuid, o.vlanId)) =
      (known.filter (·.1 ∉ xs.map VlanData.vlanId)).map fun m => (some m.2.id, m.1) := by
  rw [orphans, List.map_map]
  rfl

/-- After a successful import of an answer, the check of the brain against the same answer finds no VLAN
that is not canonical and misses the orphans of the import, exactly when every id that a name gives
is the id of an entry with a member for it. -/
theorem check_agrees_iff {fleet : Fleet} {brain : Assignment} {reply : Reply}
    (assigned : s.roleMap.brain = some brain) (conversions : fleet.py = s.py)
    (answer : fleet.gateway brain = reply)
    (imported : importFromBrain s false reply t = .ok (r, t')) (success : r.errors = []) :
    Agrees r (checkDeviceAlignment fleet (byId (t'.live s.roleMap.siteId s.org)) brain) ↔
      NamesAgree s.py (entriesOf reply) := by
  obtain ⟨brain', data, error, values, found, gateway, result, read, members, imported⟩ :=
    importFromBrain_read imported success
  obtain rfl := Option.some.inj (found.symm.trans assigned)
  obtain ⟨xs, entries, -, -, -, -, orphaned, flushed⟩ := importEntries_ok imported
  obtain ⟨own, checked⟩ := readEntries_ids entries
  rw [← conversions] at checked
  have named : ∀ n, n ∈ xs.map VlanData.vlanId ↔
      ∃ d ∈ entriesOf reply, memberId s.py d = some n := by
    intro n
    rw [own, List.mem_filterMap]
  obtain ⟨new, after, reported, canonical⟩ :=
    known_after_import (by simpa only [Bool.false_eq_true, if_false] using flushed)
  rw [check_read gateway answer result read members checked, conversions]
  have ids := fun n => @mem_ids s.py (entriesOf reply) n
  generalize (List.filterMap id ((entriesOf reply).map fun d =>
    (memberId s.py d).or (nameId s.py d))).dedup = device at ids
  unfold Agrees
  constructor
  · rintro ⟨items, same, none, missing⟩ d entry n name
    obtain rfl := Except.ok.inj same
    rw [missing_items, orphaned, orphans_listed] at missing
    rw [no_extra_iff, List.filter_eq_nil_iff] at none
    have mem : n ∈ device := (ids n).mpr (.inr ⟨d, entry, name⟩)
    by_contra other
    rw [← named] at other
    -- The id is canonical and no entry of the import has it, so its VLAN is an orphan, which the
    -- check would have to miss.
    have key := none n mem
    rw [decide_eq_true_eq, not_not, after, List.map_append, List.mem_append] at key
    have old := key.resolve_right fun late => by
      obtain ⟨m, here, rfl⟩ := List.mem_map.mp late
      exact other (reported m here)
    obtain ⟨m, here, rfl⟩ := List.mem_map.mp old
    have orphan : (some m.2.id, m.1) ∈ ((progress s false t xs).known.filter
        (·.1 ∉ xs.map VlanData.vlanId)).map fun m => (some m.2.id, m.1) :=
      List.mem_map.mpr ⟨m, List.mem_filter.mpr ⟨here, decide_eq_true other⟩, rfl⟩
    rw [← missing] at orphan
    obtain ⟨m', kept, same⟩ := List.mem_map.mp orphan
    have absent := of_decide_eq_true (List.mem_filter.mp kept).2
    rw [(Prod.mk.inj same).2] at absent
    exact absent mem
  · intro agree
    have same : ∀ n, n ∈ device ↔ n ∈ xs.map VlanData.vlanId := by
      intro n
      rw [ids, named]
      exact or_iff_left_of_imp fun ⟨d, entry, name⟩ => agree d entry n name
    refine ⟨_, rfl, no_extra_iff.mpr (List.filter_eq_nil_iff.mpr fun n mem => ?_), ?_⟩
    · rw [decide_eq_true_eq, not_not]
      exact canonical n ((same n).mp mem)
    · have late : new.filter (·.1 ∉ xs.map VlanData.vlanId) = [] := by
        refine List.filter_eq_nil_iff.mpr fun m mem => ?_
        rw [decide_eq_true_eq, not_not]
        exact reported m mem
      rw [missing_items, orphaned, orphans_listed, after, List.filter_append]
      simp only [same, late, List.append_nil]

/-- The brain of the site with one gateway. -/
def gatewayBrain : Assignment := gatewayDevice "a" "gw" .brain false

/-- The brain as the only device that answers. -/
def brainFleet (reply : Reply) : Fleet :=
  ⟨oneBrain.py, fun _ _ => hundred, fun _ => reply, fun _ => .ok []⟩

/-- One canonical VLAN. -/
def oneVlan : Table := ⟨[newVlan oneBrain ⟨10, "lan", "10.0.10.0/24", "10.0.10.1", ""⟩], by decide⟩

theorem check_agrees_member :
    Agrees ⟨1, 0, 0, [], [⟨10, "lan", "10.0.10.0/24", "10.0.10.1", ""⟩], []⟩
      (checkDeviceAlignment
        (brainFleet (.result true (.arr [.obj [("vid", .str "10"), ("name", .str "lan"),
          ("subnet", .str "10.0.10.0/24"), ("gateway", .str "10.0.10.1")]]) none))
        (byId (oneVlan.live oneBrain.roleMap.siteId oneBrain.org)) gatewayBrain) := by
  refine Iff.mpr (check_agrees_iff (s := oneBrain) (t := noVlans) rfl rfl rfl rfl rfl) ?_
  intro d entry n name
  obtain rfl := List.mem_singleton.mp entry
  cases name

/-- An entry without an id whose name has a number: the import passes it over and the check reports
an extra VLAN. -/
theorem check_not_agrees :
    ¬ ∀ (s : Site) (fleet : Fleet) (brain : Assignment) (reply : Reply) (t t' : Table)
      (r : ImportResult), s.roleMap.brain = some brain → fleet.py = s.py →
      fleet.gateway brain = reply → importFromBrain s false reply t = .ok (r, t') → r.errors = [] →
      Agrees r (checkDeviceAlignment fleet (byId (t'.live s.roleMap.siteId s.org)) brain) := by
  intro agrees
  have claimed := agrees oneBrain
    (brainFleet (.result true (.arr [.obj [("name", .str "vlan10")]]) none)) gatewayBrain
    (.result true (.arr [.obj [("name", .str "vlan10")]]) none) noVlans noVlans
    ⟨0, 0, 0, [], [], []⟩ rfl rfl rfl rfl rfl
  obtain ⟨found, checked, noExtra, -⟩ := claimed
  have extra : checkDeviceAlignment
      (brainFleet (.result true (.arr [.obj [("name", .str "vlan10")]]) none))
      (byId (noVlans.live "site" "org")) gatewayBrain = .ok [extraItem gatewayBrain 10] := rfl
  obtain rfl := Except.ok.inj (checked.symm.trans extra)
  exact noExtra _ List.mem_cons_self rfl

end FreeSdn.Gateway
