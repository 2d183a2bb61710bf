import FreeSdn.Gateway.Orphans

/-! The alignment check and devices that cannot be read: what each device adds to the counts of the report,
and when the devices without a successful answer leave the counts and the score alone. -/

namespace FreeSdn.Gateway

open FreeSdn.Lib

variable {fleet : Fleet} {known : List (Int × Vlan)} {a : Assignment} {m : RoleMap} {org : Uuid}
  {t : Table} {st : AlignmentStatus} {r : AlignmentReport}

/-! ### The counts of a report -/

def AlignmentReport.count (r : AlignmentReport) : AlignmentStatus → Nat
  | .aligned => r.aligned
  | .missing => r.missing
  | .modified => r.modified
  | .extra => r.extra
  | .error => r.errored

theorem addItem_count (item : AlignmentItem) :
    (r.addItem item).count st = r.count st + if item.status = st then 1 else 0 := by
  unfold AlignmentReport.addItem
  cases own : item.status <;> cases st <;> rfl

theorem addItem_items (item : AlignmentItem) : (r.addItem item).items = r.items ++ [item] := by
  unfold AlignmentReport.addItem
  cases item.status <;> rfl

theorem addItem_score (item : AlignmentItem) : (r.addItem item).score = r.score := by
  unfold AlignmentReport.addItem
  cases item.status <;> rfl

theorem addItems (items : List AlignmentItem) (r : AlignmentReport) :
    (∀ st, (items.foldl AlignmentReport.addItem r).count st =
        r.count st + items.countP (·.status = st)) ∧
      (items.foldl AlignmentReport.addItem r).items = r.items ++ items ∧
      (items.foldl AlignmentReport.addItem r).score = r.score := by
  induction items generalizing r with
  | nil => exact ⟨fun _ => rfl, (List.append_nil _).symm, rfl⟩
  | cons item items ih =>
    obtain ⟨count, listed, score⟩ := ih (r.addItem item)
    rw [List.foldl_cons, listed, score, addItem_items, addItem_score, List.append_assoc]
    refine ⟨fun st => ?_, rfl, rfl⟩
    rw [count, addItem_count, List.countP_cons]
    simp only [decide_eq_true_eq]
    omega

/-- The items that the check of one device adds to the report. -/
def foundOn (fleet : Fleet) (known : List (Int × Vlan)) (a : Assignment) : List AlignmentItem :=
  match checkDeviceAlignment fleet known a with
  | .error _ => []
  | .ok items => items

theorem addResult (fleet : Fleet) (known : List (Int × Vlan)) (r : AlignmentReport)
    (a : Assignment) :
    let q := r.addResult (checkDeviceAlignment fleet known a)
    (∀ st, q.count st = r.count st + (foundOn fleet known a).countP (·.status = st)) ∧
      q.items = r.items ++ foundOn fleet known a ∧ q.score = r.score := by
  unfold foundOn AlignmentReport.addResult
  cases checkDeviceAlignment fleet known a with
  | error e =>
    refine ⟨fun st => ?_, (List.append_nil _).symm, rfl⟩
    cases st <;> rfl
  | ok items => exact addItems items r

theorem addResults (fleet : Fleet) (known : List (Int × Vlan)) (tasks : List Assignment)
    (r : AlignmentReport) :
    let q := (tasks.map (checkDeviceAlignment fleet known)).foldl AlignmentReport.addResult r
    (∀ st, q.count st = r.count st + (tasks.flatMap (foundOn fleet known)).countP (·.status = st)) ∧
      q.items = r.items ++ tasks.flatMap (foundOn fleet known) ∧ q.score = r.score := by
  induction tasks generalizing r with
  | nil => exact ⟨fun _ => rfl, (List.append_nil _).symm, rfl⟩
  | cons a tasks ih =>
    obtain ⟨count, listed, score⟩ := ih (r.addResult (checkDeviceAlignment fleet known a))
    obtain ⟨count', listed', score'⟩ := addResult fleet known r a
    simp only [List.map_cons, List.foldl_cons, List.flatMap_cons, List.countP_append]
    refine ⟨fun st => ?_, ?_, ?_⟩
    · rw [count, count', Nat.add_assoc]
    · rw [listed, listed', List.append_assoc]
    · rw [score, score']

/-- The score that belongs to the counts. -/
def scoreOf (fleet : Fleet) (aligned total : Nat) : FloatText :=
  if 0 < total then fleet.percentage aligned total else hundred

theorem scored_parts (fleet : Fleet) (r : AlignmentReport) :
    (∀ st, (r.scored fleet).count st = r.count st) ∧ (r.scored fleet).items = r.items ∧
      (r.score = hundred → (r.scored fleet).score = scoreOf fleet (r.count .aligned)
        (r.count .aligned + r.count .missing + r.count .modified + r.count .extra)) := by
  unfold AlignmentReport.scored scoreOf
  simp only [AlignmentReport.count]
  split
  · rename_i some
    exact ⟨fun st => by cases st <;> rfl, rfl, fun _ => (if_pos some).symm⟩
  · rename_i none
    exact ⟨fun _ => rfl, rfl, fun start => start.trans (if_neg none).symm⟩

/-- The report on a site with canonical VLANs, by the items of its devices. -/
theorem checkAlignment_counts (fleet : Fleet) (m : RoleMap) (canonical : t.live m.siteId org ≠ []) :
    let q := checkAlignment fleet m org t
    let found := (m.assignments.filter Assignment.checked).flatMap
      (foundOn fleet (byId (t.live m.siteId org)))
    (∀ st, q.count st = found.countP (·.status = st)) ∧ q.items = found ∧
      q.score = scoreOf fleet (q.count .aligned)
        (q.count .aligned + q.count .missing + q.count .modified + q.count .extra) := by
  unfold checkAlignment
  simp only [if_neg canonical]
  cases m.assignments.filter Assignment.checked with
  | nil =>
    refine ⟨fun st => ?_, rfl, rfl⟩
    cases st <;> rfl
  | cons a tasks =>
    obtain ⟨count, listed, score⟩ := addResults fleet
      (byId (t.live m.siteId org)) (a :: tasks)
      ⟨m.siteId, (t.live m.siteId org).length, 0, 0, 0, 0, 0, [], [], hundred⟩
    obtain ⟨kept, items, scored⟩ := scored_parts fleet
      (((a :: tasks).map (checkDeviceAlignment fleet (byId (t.live m.siteId org)))).foldl
        AlignmentReport.addResult
        ⟨m.siteId, (t.live m.siteId org).length, 0, 0, 0, 0, 0, [], [], hundred⟩)
    refine ⟨fun st => ?_, ?_, ?_⟩
    · rw [kept, count]
      cases st <;> exact Nat.zero_add _
    · rw [items, listed]
      rfl
    · rw [scored score]
      simp only [kept]

/-! ### Devices with and without an answer -/

/-- Whether the device answers with success. -/
def answered (fleet : Fleet) (a : Assignment) : Bool :=
  if a.deviceType = "gateway" then
    match fleet.gateway a with
    | .result success _ _ => success
    | _ => false
  else
    match fleet.controller a with
    | .ok _ => true
    | .error _ => false

/-- Whether the device is a gateway that answers without success. -/
def refused (fleet : Fleet) (a : Assignment) : Bool :=
  a.deviceType = "gateway" &&
    match fleet.gateway a with
    | .result success _ _ => !success
    | _ => false

/-- What the check reads of a device: its VLANs, none for a refusal, or an error. -/
theorem deviceVlans_cases (fleet : Fleet) (a : Assignment) :
    (answered fleet a = true ∧ refused fleet a = false ∧ ∃ data, deviceVlans fleet a = .ok data) ∨
    (answered fleet a = false ∧ refused fleet a = true ∧ deviceVlans fleet a = .ok (.arr [])) ∨
    (answered fleet a = false ∧ refused fleet a = false ∧ ∃ e, deviceVlans fleet a = .error e) := by
  unfold answered refused deviceVlans
  by_cases gateway : a.deviceType = "gateway"
  · simp only [gateway, if_true, decide_true, Bool.true_and]
    cases fleet.gateway a with
    | noAdapter e => exact .inr (.inr ⟨rfl, rfl, e, rfl⟩)
    | timeout => exact .inr (.inr ⟨rfl, rfl, _, rfl⟩)
    | raised e => exact .inr (.inr ⟨rfl, rfl, e, rfl⟩)
    | result success data error =>
      cases success with
      | true => exact .inl ⟨rfl, rfl, data, rfl⟩
      | false => exact .inr (.inl ⟨rfl, rfl, rfl⟩)
  · rw [if_neg gateway, if_neg gateway, decide_eq_false gateway]
    cases fleet.controller a with
    | ok rows => exact .inl ⟨rfl, rfl, _, rfl⟩
    | error e => exact .inr (.inr ⟨rfl, rfl, e, rfl⟩)

theorem refused_unanswered (h : refused fleet a = true) : answered fleet a = false := by
  rcases deviceVlans_cases fleet a with ⟨-, accepted, -⟩ | ⟨silent, -⟩ | ⟨silent, -⟩
  · cases accepted.symm.trans h
  · exact silent
  · exact silent

theorem foundOn_refused (h : refused fleet a = true) :
    foundOn fleet known a = known.map (canonicalItem a []) := by
  rcases deviceVlans_cases fleet a with ⟨-, accepted, -⟩ | ⟨-, -, vlans⟩ | ⟨-, accepted, -⟩
  · cases accepted.symm.trans h
  · unfold foundOn checkDeviceAlignment
    rw [vlans]
    exact List.append_nil _
  · cases accepted.symm.trans h

theorem foundOn_failed (known : List (Int × Vlan)) (silent : answered fleet a = false)
    (h : refused fleet a = false) : ∃ e, foundOn fleet known a = [errorItem a e] := by
  rcases deviceVlans_cases fleet a with ⟨success, -⟩ | ⟨-, refusal, -⟩ | ⟨-, -, e, failed⟩
  · cases success.symm.trans silent
  · cases refusal.symm.trans h
  · refine ⟨e, ?_⟩
    unfold foundOn checkDeviceAlignment
    rw [failed]

/-- A device that can be read adds no error. -/
theorem foundOn_read {data : Json} (read : deviceVlans fleet a = .ok data) :
    ∀ item ∈ foundOn fleet known a, item.status ≠ .error := by
  intro item mem
  unfold foundOn checkDeviceAlignment at mem
  rw [read] at mem
  simp only at mem
  cases ids : deviceVlanIds fleet.py data with
  | error e =>
    rw [ids] at mem
    cases mem
  | ok ids' =>
    rw [ids] at mem
    rcases List.mem_append.mp mem with canonical | extra
    · obtain ⟨k, -, rfl⟩ := List.mem_map.mp canonical
      unfold canonicalItem
      split <;> exact AlignmentStatus.noConfusion
    · obtain ⟨n, -, rfl⟩ := List.mem_map.mp extra
      exact AlignmentStatus.noConfusion

theorem foundOn_answered (h : answered fleet a = true) :
    ∀ item ∈ foundOn fleet known a, item.status ≠ .error := by
  rcases deviceVlans_cases fleet a with ⟨-, -, data, read⟩ | ⟨silent, -⟩ | ⟨silent, -⟩
  · exact foundOn_read read
  · cases silent.symm.trans h
  · cases silent.symm.trans h

/-- What the devices add to each count, beside those that answer: a refusal misses every canonical VLAN
and any other device adds one error. -/
theorem countP_found (tasks : List Assignment) (st : AlignmentStatus) :
    (tasks.flatMap (foundOn fleet known)).countP (·.status = st) =
      ((tasks.filter (answered fleet)).flatMap (foundOn fleet known)).countP (·.status = st) +
        (if st = .missing then known.length * tasks.countP (refused fleet) else 0) +
        if st = .error then tasks.countP (fun a => !answered fleet a && !refused fleet a)
        else 0 := by
  induction tasks with
  | nil => cases st <;> rfl
  | cons a tasks ih =>
    rw [List.flatMap_cons, List.countP_append, ih]
    cases without : refused fleet a with
    | true =>
      have own : (foundOn fleet known a).countP (·.status = st) =
          if st = .missing then known.length else 0 := by
        rw [foundOn_refused without, List.countP_map]
        cases st <;> simp [Function.comp_def, canonicalItem]
      rw [own, List.filter_cons_of_neg (by rw [refused_unanswered without]; exact Bool.false_ne_true),
        List.countP_cons_of_pos without, List.countP_cons_of_neg (by simp [without])]
      split
      · rw [Nat.mul_add, Nat.mul_one]
        omega
      · omega
    | false =>
      rw [List.countP_cons_of_neg (by rw [without]; exact Bool.false_ne_true)]
      cases success : answered fleet a with
      | true =>
        rw [List.filter_cons_of_pos success, List.flatMap_cons, List.countP_append,
          List.countP_cons_of_neg (by simp [success])]
        omega
      | false =>
        obtain ⟨e, own⟩ := foundOn_failed known success without
        rw [List.filter_cons_of_neg (by rw [success]; exact Bool.false_ne_true),
          List.countP_cons_of_pos (by simp [success, without]), own]
        have first : [errorItem a e].countP (·.status = st) = if st = .error then 1 else 0 := by
          cases st <;> rfl
        rw [first]
        split
        · omega
        · omega

/-- The error items name the devices that fail. -/
theorem errors_found (tasks : List Assignment)
    (accepted : ∀ a ∈ tasks, refused fleet a = false) :
    ((tasks.flatMap (foundOn fleet known)).filter (·.status = .error)).map AlignmentItem.deviceId =
      (tasks.filter fun a => !answered fleet a).map Assignment.deviceId := by
  induction tasks with
  | nil => rfl
  | cons a tasks ih =>
    obtain ⟨first, rest⟩ := List.forall_mem_cons.mp accepted
    rw [List.flatMap_cons, List.filter_append, List.map_append, ih rest]
    cases success : answered fleet a with
    | true =>
      have none : (foundOn fleet known a).filter (·.status = .error) = [] :=
        List.filter_eq_nil_iff.mpr fun item mem same =>
          foundOn_answered success item mem (of_decide_eq_true same)
      rw [none, List.filter_cons_of_neg (by simp [success])]
      rfl
    | false =>
      obtain ⟨e, own⟩ := foundOn_failed known success first
      rw [own]
      simp [errorItem, success]

/-! ### The check with and without the other devices -/

/-- The role map with the devices that answer with success alone. -/
def RoleMap.answering (m : RoleMap) (fleet : Fleet) : RoleMap :=
  { m with assignments := m.assignments.filter (answered fleet) }

/-- The brain and limb devices that do not. -/
def RoleMap.unread (m : RoleMap) (fleet : Fleet) : List Assignment :=
  (m.assignments.filter Assignment.checked).filter fun a => !answered fleet a

/-- The other devices leave the counts and the score as they are without them, and each of them is
one error. -/
def Insensitive (fleet : Fleet) (m : RoleMap) (org : Uuid) (t : Table) : Prop :=
  let q := checkAlignment fleet m org t
  let own := checkAlignment fleet (m.answering fleet) org t
  q.aligned = own.aligned ∧ q.missing = own.missing ∧ q.modified = own.modified ∧
    q.extra = own.extra ∧ q.score = own.score ∧ q.errored = (m.unread fleet).length ∧
    (q.items.filter (·.status = .error)).map AlignmentItem.deviceId =
      (m.unread fleet).map Assignment.deviceId

/-- No brain or limb gateway answers without success, and on a site without canonical VLANs every
brain and limb device answers with it. -/
def Readable (fleet : Fleet) (m : RoleMap) (org : Uuid) (t : Table) : Prop :=
  (∀ a ∈ m.assignments, a.checked = true → refused fleet a = false) ∧
    (t.live m.siteId org = [] → ∀ a ∈ m.assignments, a.checked = true → answered fleet a = true)

theorem unread_nil_iff : m.unread fleet = [] ↔
    ∀ a ∈ m.assignments, a.checked = true → answered fleet a = true := by
  unfold RoleMap.unread
  rw [List.filter_eq_nil_iff]
  constructor
  · intro none a mem checked
    simpa using none a (List.mem_filter.mpr ⟨mem, checked⟩)
  · intro all a mem
    obtain ⟨mem, checked⟩ := List.mem_filter.mp mem
    simp [all a mem checked]

theorem answering_checked : (m.answering fleet).assignments.filter Assignment.checked =
    (m.assignments.filter Assignment.checked).filter (answered fleet) := by
  rw [RoleMap.answering, List.filter_filter, List.filter_filter]
  exact List.filter_congr fun a _ => Bool.and_comm _ _

/-- A site without canonical VLANs has an empty report. -/
theorem insensitive_empty (canonical : t.live m.siteId org = []) :
    Insensitive fleet m org t ↔ m.unread fleet = [] := by
  have own : ∀ m' : RoleMap, m'.siteId = m.siteId →
      checkAlignment fleet m' org t = ⟨m.siteId, 0, 0, 0, 0, 0, 0, [], [], hundred⟩ := by
    intro m' same
    unfold checkAlignment
    simp only [same, canonical, if_true, List.length_nil]
  unfold Insensitive
  rw [own m rfl, own (m.answering fleet) rfl]
  constructor
  · rintro ⟨-, -, -, -, -, none, -⟩
    exact List.length_eq_zero_iff.mp none.symm
  · intro none
    rw [none]
    exact ⟨rfl, rfl, rfl, rfl, rfl, rfl, rfl⟩

/-- The counts of a site with canonical VLANs against those of the devices that answer. -/
theorem count_answering (fleet : Fleet) (canonical : t.live m.siteId org ≠ []) (st : AlignmentStatus) :
    (checkAlignment fleet m org t).count st =
      (checkAlignment fleet (m.answering fleet) org t).count st +
        (if st = .missing then (t.live m.siteId org).length *
          (m.assignments.filter Assignment.checked).countP (refused fleet) else 0) +
        if st = .error then (m.assignments.filter Assignment.checked).countP
          (fun a => !answered fleet a && !refused fleet a) else 0 := by
  have own := (checkAlignment_counts fleet (m.answering fleet) canonical).1 st
  rw [answering_checked] at own
  rw [(checkAlignment_counts fleet m canonical).1, countP_found, own, byId, List.length_map]
  rfl

theorem answering_errors (canonical : t.live m.siteId org ≠ []) :
    (checkAlignment fleet (m.answering fleet) org t).errored = 0 := by
  have own := (checkAlignment_counts fleet (m.answering fleet) canonical).1 .error
  rw [answering_checked] at own
  refine own.trans (List.countP_eq_zero.mpr fun item mem => ?_)
  obtain ⟨a, task, here⟩ := List.mem_flatMap.mp mem
  rw [decide_eq_true_eq]
  exact foundOn_answered (List.mem_filter.mp task).2 item here

/-- The devices without a successful answer leave the counts and the score alone, and each of them is one
error, exactly when none is a gateway that answers without success and, on a site without canonical
VLANs, there are none. -/
theorem insensitive_iff (fleet : Fleet) (m : RoleMap) (org : Uuid) (t : Table) :
    Insensitive fleet m org t ↔ Readable fleet m org t := by
  by_cases canonical : t.live m.siteId org = []
  · rw [insensitive_empty canonical, unread_nil_iff]
    constructor
    · intro all
      refine ⟨fun a mem checked => ?_, fun _ => all⟩
      refine Bool.eq_false_iff.mpr fun without => ?_
      have silent := refused_unanswered without
      rw [all a mem checked] at silent
      cases silent
    · exact fun readable => readable.2 canonical
  · have count := count_answering fleet canonical
    have size : 0 < (t.live m.siteId org).length := List.length_pos_iff.mpr canonical
    constructor
    · rintro ⟨-, missing, -⟩
      have same := count .missing
      simp only [AlignmentReport.count, missing, if_true, reduceCtorEq, if_false] at same
      refine ⟨fun a mem checked => ?_, fun empty => absurd empty canonical⟩
      have none : (m.assignments.filter Assignment.checked).countP (refused fleet) = 0 :=
        (Nat.mul_eq_zero.mp (by omega)).resolve_left size.ne'
      exact Bool.eq_false_iff.mpr
        (List.countP_eq_zero.mp none a (List.mem_filter.mpr ⟨mem, checked⟩))
    · rintro ⟨accepted, -⟩
      have accepted : ∀ a ∈ m.assignments.filter Assignment.checked, refused fleet a = false := by
        intro a mem
        obtain ⟨mem, checked⟩ := List.mem_filter.mp mem
        exact accepted a mem checked
      have none : (m.assignments.filter Assignment.checked).countP (refused fleet) = 0 :=
        List.countP_eq_zero.mpr fun a mem => by rw [accepted a mem]; exact Bool.false_ne_true
      have failed : (m.assignments.filter Assignment.checked).countP
          (fun a => !answered fleet a && !refused fleet a) = (m.unread fleet).length := by
        rw [RoleMap.unread, ← List.countP_eq_length_filter]
        exact List.countP_congr fun a mem => by simp [accepted a mem]
      have same : ∀ st, st ≠ .error → (checkAlignment fleet m org t).count st =
          (checkAlignment fleet (m.answering fleet) org t).count st := by
        intro st other
        rw [count st, none, if_neg other]
        simp
      obtain ⟨-, items, score⟩ := checkAlignment_counts fleet m canonical
      obtain ⟨-, -, score'⟩ :=
        checkAlignment_counts fleet (m.answering fleet) canonical
      refine ⟨same .aligned nofun, same .missing nofun, same .modified nofun, same .extra nofun,
        ?_, ?_, ?_⟩
      · rw [score, score', same .aligned nofun, same .missing nofun, same .modified nofun,
          same .extra nofun]
      · have errored := count .error
        rw [failed] at errored
        simpa [AlignmentReport.count, answering_errors canonical] using errored
      · rw [items, errors_found _ accepted, RoleMap.unread]

/-- A brain that answers without success makes every canonical VLAN missing. -/
theorem refusal_counts : ¬ Insensitive
    (brainFleet (.result false .null (some "HTTP 503"))) oneBrain.roleMap "org" oneVlan := by
  rintro ⟨-, missing, -⟩
  have drift : (checkAlignment (brainFleet (.result false .null (some "HTTP 503")))
      oneBrain.roleMap "org" oneVlan).missing = 1 := rfl
  have own : (checkAlignment (brainFleet (.result false .null (some "HTTP 503")))
      (oneBrain.roleMap.answering (brainFleet (.result false .null (some "HTTP 503"))))
      "org" oneVlan).missing = 0 := rfl
  rw [drift, own] at missing
  cases missing

end FreeSdn.Gateway
