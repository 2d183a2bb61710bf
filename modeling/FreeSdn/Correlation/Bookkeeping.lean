import FreeSdn.Lib.Except
import FreeSdn.Correlation.Incidents

/-! The bookkeeping of incidents over every run: what is counted is what is linked, nothing is linked
twice, and a rule has one active incident in a scope. -/

namespace FreeSdn.Correlation

open FreeSdn.Lib FreeSdn.Automation

variable {py : Python} {s s' : Store} {g : Group} {i j : Incident} {c : Call}

def IncidentStatus.isActive (status : IncidentStatus) : Bool :=
  status ∈ [.open_, .investigating, .mitigating]

/-- The incident is one of the rule in the scope. -/
def Incident.Of (i : Incident) (organizationId ruleId : Uuid) (key : String) : Prop :=
  i.organizationId = organizationId ∧ i.ruleId = some ruleId ∧ i.scopeKey = key

/-- Two incidents of one rule in one scope. -/
def SameKey (i j : Incident) : Prop :=
  ∃ organizationId ruleId key, i.Of organizationId ruleId key ∧ j.Of organizationId ruleId key

instance (i : Incident) (organizationId ruleId : Uuid) (key : String) :
    Decidable (i.Of organizationId ruleId key) := inferInstanceAs (Decidable (_ ∧ _ ∧ _))

theorem sameKey_iff : SameKey i j ↔
    ∃ ruleId ∈ i.ruleId, i.Of j.organizationId ruleId j.scopeKey ∧ j.ruleId = some ruleId := by
  constructor
  · rintro ⟨o, r, key, own, rfl, same, rfl⟩
    exact ⟨r, own.2.1, own, same⟩
  · rintro ⟨r, -, own, same⟩
    exact ⟨j.organizationId, r, j.scopeKey, own, rfl, same, rfl⟩

instance (i j : Incident) : Decidable (SameKey i j) := decidable_of_iff _ sameKey_iff.symm

structure Consistent (s : Store) : Prop where
  ids : Table.Unique s.incidents
  fresh : ∀ i ∈ s.incidents, i.id < s.nextId
  links : s.links.Nodup
  linked : ∀ l ∈ s.links, l.incidentId < s.nextId
  counts : ∀ i ∈ s.incidents, i.eventCount = s.links.countP fun l => decide (l.incidentId = i.id)
  single : ∀ i ∈ s.incidents, ∀ j ∈ s.incidents, i.status.isActive = true → j.status.isActive = true →
    SameKey i j → i = j
  events : (s.events.map (·.id)).Nodup

/-- No event of the group is matched by two patterns of the rule. -/
def Group.Disjoint (py : Python) (g : Group) : Prop :=
  g.rule.eventPatterns.Pairwise fun p q => ∀ e ∈ g.events, admits py g.rule.conditions e = true →
    ¬ (p.accepts py e = true ∧ q.accepts py e = true)

/-- No incident of the group's rule in its scope is being mitigated. -/
def Group.Unmitigated (s : Store) (g : Group) : Prop :=
  ∀ i ∈ s.incidents, i.status = .mitigating → ¬ i.Of g.rule.organizationId g.rule.id g.key

instance (py : Python) (g : Group) : Decidable (g.Disjoint py) :=
  inferInstanceAs (Decidable (List.Pairwise _ _))

instance (s : Store) (g : Group) : Decidable (g.Unmitigated s) :=
  inferInstanceAs (Decidable (∀ i ∈ s.incidents, _ → _))

/-- The steps on which the bookkeeping is right: no group that fires has an event for two patterns or
an incident in mitigation, and no incident becomes active beside another one of its rule and scope. -/
def Fine (py : Python) (s : Store) : Step → Prop
  | .correlate c => ∀ g ∈ groups s c, g.matched py ≠ [] → g.Disjoint py ∧ g.Unmitigated s
  | .update id status _ => status.isActive = true → ∀ i ∈ s.incidents, i.id = id →
      i.status.isActive = false → ∀ j ∈ s.incidents, j.status.isActive = true → ¬ SameKey i j
  | _ => True

instance (py : Python) (s : Store) : (e : Step) → Decidable (Fine py s e)
  | .correlate c => inferInstanceAs (Decidable (∀ g ∈ groups s c, _ → _ ∧ _))
  | .update _ _ _ => inferInstanceAs (Decidable (_ → ∀ i ∈ s.incidents, _ → _ → ∀ j ∈ s.incidents, _ → _))
  | .autoResolve _ _ => inferInstanceAs (Decidable True)
  | .observe _ => inferInstanceAs (Decidable True)
  | .configure _ => inferInstanceAs (Decidable True)

/-! ### Links -/

theorem insertLinks_ok {links new : List IncidentEvent} (apart : ∀ l ∈ new, l ∉ links)
    (nodup : new.Nodup) : insertLinks links new = .ok (links ++ new) := by
  induction new generalizing links with
  | nil => simp [insertLinks]
  | cons l new ih =>
    rw [List.nodup_cons] at nodup
    rw [insertLinks, if_neg (apart l (by simp)), ih ?_ nodup.2, List.append_assoc]
    · rfl
    · intro k mem
      rw [List.mem_append, List.mem_singleton, not_or]
      refine ⟨apart k (by simp [mem]), ?_⟩
      rintro rfl
      exact nodup.1 mem

theorem linksOf_nodup {incident : Nat} {events : List EventRecord} (h : (events.map (·.id)).Nodup) :
    (linksOf incident events).Nodup := by
  have same : linksOf incident events = (events.map (·.id)).map (IncidentEvent.mk incident) := by
    simp [linksOf]
  rw [same]
  exact h.map fun a b eq => (IncidentEvent.mk.inj eq).2

theorem countP_linksOf (incident id : Nat) (events : List EventRecord) :
    (linksOf incident events).countP (fun l => decide (l.incidentId = id)) =
      if incident = id then events.length else 0 := by
  unfold linksOf
  rw [List.countP_map]
  split
  · next same =>
    subst same
    rw [List.countP_eq_length.mpr]
    intro e mem
    simp
  · next other =>
    rw [List.countP_eq_zero.mpr]
    intro e mem
    simpa using other

/-! ### One group -/

/-- Between two states of a call: nothing is lost, no status changes, and only open incidents come. -/
structure Grows (s s' : Store) : Prop where
  events : s'.events = s.events
  rules : s'.rules = s.rules
  kept : ∀ i ∈ s.incidents, ∃ i' ∈ s'.incidents, i'.id = i.id ∧ i'.status = i.status ∧
    ∀ o r k, i.Of o r k → i'.Of o r k
  came : ∀ i' ∈ s'.incidents, i'.status = .mitigating → ∃ i ∈ s.incidents, i.status = .mitigating ∧
    ∀ o r k, i'.Of o r k → i.Of o r k
  links : ∀ l ∈ s.links, l ∈ s'.links

theorem Grows.refl (s : Store) : Grows s s where
  events := rfl
  rules := rfl
  kept := fun i mem => ⟨i, mem, rfl, rfl, fun _ _ _ h => h⟩
  came := fun i mem status => ⟨i, mem, status, fun _ _ _ h => h⟩
  links := fun _ mem => mem

theorem Grows.trans {t : Store} (first : Grows s s') (second : Grows s' t) : Grows s t where
  events := second.events.trans first.events
  rules := second.rules.trans first.rules
  kept := by
    intro i mem
    obtain ⟨i', mem', id, status, of⟩ := first.kept i mem
    obtain ⟨i'', mem'', id', status', of'⟩ := second.kept i' mem'
    exact ⟨i'', mem'', id'.trans id, status'.trans status, fun o r k h => of' o r k (of o r k h)⟩
  came := by
    intro i'' mem'' status''
    obtain ⟨i', mem', status', of'⟩ := second.came i'' mem'' status''
    obtain ⟨i, mem, status, of⟩ := first.came i' mem' status'
    exact ⟨i, mem, status, fun o r k h => of o r k (of' o r k h)⟩
  links := fun l mem => second.links l (first.links l mem)

theorem Grows.unmitigated (grows : Grows s s') (h : g.Unmitigated s) : g.Unmitigated s' := by
  intro i' mem' status' of'
  obtain ⟨i, mem, status, of⟩ := grows.came i' mem' status'
  exact h i mem status (of _ _ _ of')

/-- The events are linked to an incident that the next call will find. -/
def Settled (s : Store) (g : Group) (matched : List EventRecord) : Prop :=
  ∃ i ∈ s.incidents, i.status ∈ [IncidentStatus.open_, .investigating] ∧
    i.Of g.rule.organizationId g.rule.id g.key ∧
      ∀ e ∈ matched, (⟨i.id, e.id⟩ : IncidentEvent) ∈ s.links

theorem Grows.settled {matched : List EventRecord} (grows : Grows s s') (h : Settled s g matched) :
    Settled s' g matched := by
  obtain ⟨i, mem, status, of, linked⟩ := h
  obtain ⟨i', mem', id, status', of'⟩ := grows.kept i mem
  refine ⟨i', mem', status' ▸ status, of' _ _ _ of, fun e here => grows.links _ ?_⟩
  rw [id]
  exact linked e here

theorem mem_found : i ∈ s.incidents.filter (fun i => decide (i.organizationId = g.rule.organizationId ∧
      i.ruleId = some g.rule.id ∧ i.status ∈ [IncidentStatus.open_, .investigating] ∧
      i.scopeKey = g.key)) ↔
    i ∈ s.incidents ∧ i.status ∈ [IncidentStatus.open_, .investigating] ∧
      i.Of g.rule.organizationId g.rule.id g.key := by
  simp only [List.mem_filter, decide_eq_true_eq, Incident.Of]
  tauto

theorem isActive_of_found {status : IncidentStatus} (h : status ∈ [IncidentStatus.open_, .investigating]) :
    status.isActive = true := by
  cases status <;> simp_all [IncidentStatus.isActive]

/-- The lookup finds the active incident of the rule in the scope, or nothing. -/
theorem Consistent.find (k : Consistent s) (g : Group) :
    (findExistingIncident s g.rule.organizationId g.rule.id g.key = .ok none ∧
        ∀ i ∈ s.incidents, i.status ∈ [IncidentStatus.open_, .investigating] →
          ¬ i.Of g.rule.organizationId g.rule.id g.key) ∨
      ∃ i ∈ s.incidents, findExistingIncident s g.rule.organizationId g.rule.id g.key = .ok (some i) ∧
        i.status ∈ [IncidentStatus.open_, .investigating] ∧
          i.Of g.rule.organizationId g.rule.id g.key := by
  unfold findExistingIncident
  cases found : s.incidents.filter (fun i => decide (i.organizationId = g.rule.organizationId ∧
      i.ruleId = some g.rule.id ∧ i.status ∈ [IncidentStatus.open_, .investigating] ∧
      i.scopeKey = g.key)) with
  | nil =>
    refine .inl ⟨rfl, fun i mem status of => ?_⟩
    have here := mem_found.mpr ⟨mem, status, of⟩
    rw [found] at here
    cases here
  | cons i rest =>
    have first := mem_found.mp (found ▸ List.mem_cons_self)
    cases rest with
    | nil => exact .inr ⟨i, first.1, rfl, first.2⟩
    | cons j rest =>
      -- The primary key tells the two rows apart, and both are active.
      have second := mem_found.mp (found ▸ List.mem_cons_of_mem i List.mem_cons_self)
      have same := k.single i first.1 j second.1 (isActive_of_found first.2.1)
        (isActive_of_found second.2.1) ⟨_, _, _, first.2.2, second.2.2⟩
      have nodup : (i :: j :: rest).Nodup := by
        rw [← found]
        exact (List.Nodup.of_map _ k.ids).filter _
      rw [same] at nodup
      simp at nodup

/-- Incidents are changed in place: the counts follow the links, and no two become active in one
scope. -/
theorem Consistent.map {f : Incident → Incident} {links : List IncidentEvent} (k : Consistent s)
    (id : ∀ i, (f i).id = i.id) (nodup : links.Nodup) (linked : ∀ l ∈ links, l.incidentId < s.nextId)
    (counts : ∀ i ∈ s.incidents,
      (f i).eventCount = links.countP fun l => decide (l.incidentId = i.id))
    (single : ∀ i ∈ s.incidents, ∀ j ∈ s.incidents, (f i).status.isActive = true →
      (f j).status.isActive = true → SameKey (f i) (f j) → i = j) :
    Consistent { s with incidents := s.incidents.map f, links := links } where
  ids := k.ids.map fun i _ => id i
  fresh := by
    intro i mem
    obtain ⟨x, here, rfl⟩ := List.mem_map.mp mem
    rw [id]
    exact k.fresh x here
  links := nodup
  linked := linked
  counts := by
    intro i mem
    obtain ⟨x, here, rfl⟩ := List.mem_map.mp mem
    rw [id]
    exact counts x here
  single := by
    intro i mem j mem'
    obtain ⟨x, here, rfl⟩ := List.mem_map.mp mem
    obtain ⟨y, there, rfl⟩ := List.mem_map.mp mem'
    intro first second same
    rw [single x here y there first second same]
  events := k.events

/-- The incident `id` with its count raised by `n`. -/
def counted (id n : Nat) (i : Incident) : Incident :=
  if i.id = id then { i with eventCount := i.eventCount + n } else i

theorem counted_same (id n : Nat) (i : Incident) : (counted id n i).id = i.id ∧
    (counted id n i).status = i.status ∧
      ∀ o r k, (counted id n i).Of o r k ↔ i.Of o r k := by
  unfold counted
  split
  · exact ⟨rfl, rfl, fun _ _ _ => Iff.rfl⟩
  · exact ⟨rfl, rfl, fun _ _ _ => Iff.rfl⟩

/-- The store with the events added to an incident. -/
def withEvents (s : Store) (i : Incident) (matched : List EventRecord) : Store :=
  { s with
    incidents := s.incidents.map (counted i.id (newEvents s i.id matched).length)
    links := s.links ++ linksOf i.id (newEvents s i.id matched) }

section
variable {matched : List EventRecord} (distinct : (matched.map (·.id)).Nodup)

theorem newEvents_apart {l : IncidentEvent} (mem : l ∈ linksOf i.id (newEvents s i.id matched)) :
    l ∉ s.links := by
  obtain ⟨e, here, rfl⟩ := List.mem_map.mp mem
  exact of_decide_eq_true (List.mem_filter.mp here).2

include distinct

theorem newEvents_nodup : (linksOf i.id (newEvents s i.id matched)).Nodup :=
  linksOf_nodup ((List.filter_sublist.map _).nodup distinct)

theorem addEvents_eq : addEvents s i matched = .ok (withEvents s i matched,
    { updated := if (newEvents s i.id matched).isEmpty then 0 else 1
      correlated := (newEvents s i.id matched).length }) := by
  unfold addEvents
  dsimp only
  rw [insertLinks_ok (fun _ => newEvents_apart) (newEvents_nodup distinct)]
  rfl

theorem withEvents_consistent (k : Consistent s) (mem : i ∈ s.incidents) :
    Consistent (withEvents s i matched) := by
  apply k.map
  · exact fun x => (counted_same _ _ x).1
  · rw [List.nodup_append']
    exact ⟨k.links, newEvents_nodup distinct, fun l old added => newEvents_apart added old⟩
  · intro l there
    rcases List.mem_append.mp there with old | added
    · exact k.linked l old
    · obtain ⟨e, -, rfl⟩ := List.mem_map.mp added
      exact k.fresh i mem
  · intro x here
    rw [List.countP_append, countP_linksOf, Int.natCast_add, ← k.counts x here]
    unfold counted
    by_cases same : x.id = i.id
    · rw [if_pos same, if_pos same.symm]
    · rw [if_neg same, if_neg fun h => same h.symm]
      simp
  · rintro x here y there first second ⟨o, r, key, left, right⟩
    obtain ⟨-, status, of_⟩ := counted_same i.id (newEvents s i.id matched).length x
    obtain ⟨-, status', of'⟩ := counted_same i.id (newEvents s i.id matched).length y
    rw [status] at first
    rw [status'] at second
    exact k.single x here y there first second
      ⟨o, r, key, (of_ o r key).mp left, (of' o r key).mp right⟩

end

theorem withEvents_grows (s : Store) (i : Incident) (matched : List EventRecord) :
    Grows s (withEvents s i matched) where
  events := rfl
  rules := rfl
  kept := by
    intro x here
    obtain ⟨id, status, of_⟩ := counted_same i.id (newEvents s i.id matched).length x
    exact ⟨_, List.mem_map.mpr ⟨x, here, rfl⟩, id, status, fun o r key => (of_ o r key).mpr⟩
  came := by
    intro x' there mitigating
    obtain ⟨x, here, rfl⟩ := List.mem_map.mp there
    obtain ⟨id, status, of_⟩ := counted_same i.id (newEvents s i.id matched).length x
    exact ⟨x, here, status ▸ mitigating, fun o r key => (of_ o r key).mp⟩
  links := fun l old => List.mem_append_left _ old

theorem withEvents_linked {matched : List EventRecord} {e : EventRecord} (mem : e ∈ matched) :
    (⟨i.id, e.id⟩ : IncidentEvent) ∈ (withEvents s i matched).links := by
  by_cases old : (⟨i.id, e.id⟩ : IncidentEvent) ∈ s.links
  · exact List.mem_append_left _ old
  · refine List.mem_append_right _ (List.mem_map.mpr ⟨e, List.mem_filter.mpr ⟨mem, ?_⟩, rfl⟩)
    simpa using old

/-- Events that are all linked change nothing. -/
theorem addEvents_linked {matched : List EventRecord}
    (linked : ∀ e ∈ matched, (⟨i.id, e.id⟩ : IncidentEvent) ∈ s.links) :
    addEvents s i matched = .ok (s, {}) := by
  have none_ : newEvents s i.id matched = [] := by
    apply List.filter_eq_nil_iff.mpr
    intro e mem
    simpa using linked e mem
  have same : Table.update s.incidents i.id (fun x => { x with eventCount := x.eventCount + (0 : Nat) }) =
      s.incidents := by
    simp [Table.update]
  unfold addEvents
  dsimp only
  rw [none_, List.length_nil, same]
  rfl

/-- The incident of a rule that fires for the first time in a scope. -/
def newIncident (s : Store) (g : Group) (matched : List EventRecord) : Incident :=
  { id := s.nextId, organizationId := g.rule.organizationId, ruleId := some g.rule.id
    status := .open_, eventCount := matched.length, scopeKey := g.key
    acknowledgedAt := none, resolvedAt := none, closedAt := none }

def withIncident (s : Store) (g : Group) (matched : List EventRecord) : Store :=
  { s with
    incidents := s.incidents ++ [newIncident s g matched]
    links := s.links ++ linksOf s.nextId matched, nextId := s.nextId + 1 }

theorem createIncident_eq {matched : List EventRecord} (linked : ∀ l ∈ s.links, l.incidentId < s.nextId)
    (distinct : (matched.map (·.id)).Nodup) : createIncident s g.rule g.key matched =
      .ok (withIncident s g matched, { created := 1, correlated := matched.length }) := by
  have apart : ∀ l ∈ linksOf s.nextId matched, l ∉ s.links := by
    intro l there old
    obtain ⟨e, -, rfl⟩ := List.mem_map.mp there
    exact absurd (linked _ old) (lt_irrefl _)
  unfold createIncident
  rw [insertLinks_ok apart (linksOf_nodup distinct)]
  rfl

theorem withIncident_consistent {matched : List EventRecord} (k : Consistent s)
    (distinct : (matched.map (·.id)).Nodup) (calm : g.Unmitigated s)
    (nothing : ∀ i ∈ s.incidents, i.status ∈ [IncidentStatus.open_, .investigating] →
      ¬ i.Of g.rule.organizationId g.rule.id g.key) : Consistent (withIncident s g matched) := by
  -- No incident of the scope is active, so that the new one stands alone.
  have idle : ∀ i ∈ s.incidents, i.status.isActive = true → ¬ SameKey i (newIncident s g matched) := by
    rintro i mem active ⟨o, r, key, of_, ⟨rfl, rule, rfl⟩⟩
    obtain rfl := Option.some.inj rule
    cases status : i.status with
    | open_ => exact nothing i mem (by simp [status]) of_
    | investigating => exact nothing i mem (by simp [status]) of_
    | mitigating => exact calm i mem status of_
    | resolved => simp [status, IncidentStatus.isActive] at active
    | closed => simp [status, IncidentStatus.isActive] at active
  have none_ : s.links.countP (fun l => decide (l.incidentId = s.nextId)) = 0 := by
    rw [List.countP_eq_zero]
    intro l mem
    have := k.linked l mem
    simp only [decide_eq_true_eq]
    omega
  constructor
  · apply k.ids.append
    intro i mem
    have := k.fresh i mem
    simp only [key_incident, newIncident]
    omega
  · intro i mem
    rcases List.mem_append.mp mem with old | new
    · exact Nat.lt_succ_of_lt (k.fresh i old)
    · rw [List.mem_singleton.mp new]
      exact Nat.lt_succ_self _
  · show (s.links ++ linksOf s.nextId matched).Nodup
    rw [List.nodup_append']
    refine ⟨k.links, linksOf_nodup distinct, fun l old added => ?_⟩
    obtain ⟨e, -, rfl⟩ := List.mem_map.mp added
    exact absurd (k.linked _ old) (lt_irrefl _)
  · intro l mem
    rcases List.mem_append.mp mem with old | new
    · exact Nat.lt_succ_of_lt (k.linked l old)
    · obtain ⟨e, -, rfl⟩ := List.mem_map.mp new
      exact Nat.lt_succ_self _
  · intro i mem
    show i.eventCount = (s.links ++ linksOf s.nextId matched).countP _
    rw [List.countP_append, countP_linksOf]
    rcases List.mem_append.mp mem with old | new
    · have other := k.fresh i old
      rw [if_neg (by omega), Nat.add_zero]
      exact k.counts i old
    · obtain rfl := List.mem_singleton.mp new
      have id : (newIncident s g matched).id = s.nextId := rfl
      rw [id, none_, if_pos rfl, Nat.zero_add]
      rfl
  · intro i mem j mem' first second same
    rcases List.mem_append.mp mem with old | new <;> rcases List.mem_append.mp mem' with old' | new'
    · exact k.single i old j old' first second same
    · rw [List.mem_singleton.mp new'] at same
      exact absurd same (idle i old first)
    · rw [List.mem_singleton.mp new] at same
      obtain ⟨o, r, key, left, right⟩ := same
      exact absurd ⟨o, r, key, right, left⟩ (idle j old' second)
    · rw [List.mem_singleton.mp new, List.mem_singleton.mp new']
  · exact k.events

theorem withIncident_grows (s : Store) (g : Group) (matched : List EventRecord) :
    Grows s (withIncident s g matched) where
  events := rfl
  rules := rfl
  kept := fun i mem => ⟨i, List.mem_append_left _ mem, rfl, rfl, fun _ _ _ h => h⟩
  came := by
    intro i mem status
    rcases List.mem_append.mp mem with old | new
    · exact ⟨i, old, status, fun _ _ _ h => h⟩
    · rw [List.mem_singleton.mp new] at status
      cases status
  links := fun l old => List.mem_append_left _ old

theorem withIncident_settled (s : Store) (g : Group) (matched : List EventRecord) :
    Settled (withIncident s g matched) g matched := by
  refine ⟨newIncident s g matched, List.mem_append_right _ (by simp), by simp [newIncident],
    ⟨rfl, rfl, rfl⟩, fun e mem => ?_⟩
  exact List.mem_append_right _ (List.mem_map.mpr ⟨e, mem, rfl⟩)

/-- A group that meets the condition is booked. -/
theorem correlateGroup_ok (k : Consistent s) (distinct : ((g.matched py).map (·.id)).Nodup)
    (calm : g.matched py ≠ [] → g.Unmitigated s) :
    ∃ s' counts, correlateGroup py s g = .ok (s', counts) ∧ Consistent s' ∧ Grows s s' ∧
      (g.matched py ≠ [] → Settled s' g (g.matched py)) := by
  unfold correlateGroup
  by_cases empty : g.matched py = []
  · rw [if_pos empty]
    exact ⟨s, _, rfl, k, Grows.refl s, fun h => absurd empty h⟩
  · rw [if_neg empty]
    rcases k.find g with ⟨found, nothing⟩ | ⟨i, mem, found, status, of_⟩
    · rw [ok_bind found]
      dsimp only
      rw [createIncident_eq k.linked distinct]
      exact ⟨_, _, rfl, withIncident_consistent k distinct (calm empty) nothing,
        withIncident_grows s g _, fun _ => withIncident_settled s g _⟩
    · rw [ok_bind found]
      dsimp only
      rw [addEvents_eq distinct]
      refine ⟨_, _, rfl, withEvents_consistent distinct k mem, withEvents_grows s i _, fun _ => ?_⟩
      obtain ⟨i', mem', id, status', of'⟩ := (withEvents_grows s i (g.matched py)).kept i mem
      refine ⟨i', mem', status' ▸ status, of' _ _ _ of_, fun e here => ?_⟩
      rw [id]
      exact withEvents_linked here

/-- A group whose events are linked to an incident that is still there changes nothing. -/
theorem correlateGroup_settled {matched : List EventRecord} (k : Consistent s)
    (settled : g.matched py ≠ [] → Settled s g matched)
    (known : ∀ e ∈ g.matched py, e ∈ matched) : correlateGroup py s g = .ok (s, {}) := by
  unfold correlateGroup
  by_cases empty : g.matched py = []
  · rw [if_pos empty]
  · rw [if_neg empty]
    obtain ⟨i, mem, status, of_, linked⟩ := settled empty
    rcases k.find g with ⟨-, nothing⟩ | ⟨j, mem', found, status', of'⟩
    · exact absurd of_ (nothing i mem status)
    · obtain rfl := k.single i mem j mem' (isActive_of_found status) (isActive_of_found status')
        ⟨_, _, _, of_, of'⟩
      rw [ok_bind found]
      exact addEvents_linked fun e here => linked e (known e here)

/-! ### One call -/

theorem ruleEvents_sub (s : Store) (c : Call) (rule : CorrelationRule) :
    (ruleEvents s c rule).Sublist (s.events.insertionSort fun a b => b.timestamp ≤ a.timestamp) :=
  List.filter_sublist.trans List.filter_sublist

theorem mem_groups : g ∈ groups s c ↔ g.rule ∈ activeRules s c ∧ g.events ≠ [] ∧
    g.events = (ruleEvents s c g.rule).filter fun e => decide (scopeKey g.rule.scope e = g.key) := by
  unfold groups
  rw [List.mem_flatMap]
  constructor
  · rintro ⟨rule, active, mem⟩
    obtain ⟨⟨key, events⟩, there, rfl⟩ := List.mem_map.mp mem
    exact ⟨active, ((groupByScope_grouped _ _).2 key events).mp there⟩
  · rintro ⟨active, events⟩
    exact ⟨g.rule, active, List.mem_map.mpr
      ⟨(g.key, g.events), ((groupByScope_grouped _ _).2 _ _).mpr events, rfl⟩⟩

theorem group_events_sub (mem : g ∈ groups s c) :
    g.events.Sublist (s.events.insertionSort fun a b => b.timestamp ≤ a.timestamp) := by
  rw [(mem_groups.mp mem).2.2]
  exact List.filter_sublist.trans (ruleEvents_sub s c g.rule)

theorem group_ids (k : Consistent s) (mem : g ∈ groups s c) : (g.events.map (·.id)).Nodup := by
  have sorted : ((s.events.insertionSort fun a b => b.timestamp ≤ a.timestamp).map (·.id)).Nodup :=
    ((List.perm_insertionSort _ s.events).map _).nodup_iff.mpr k.events
  exact ((group_events_sub mem).map _).nodup sorted

/-- A group of which no event meets two patterns lists no event twice. -/
theorem matched_nodup (k : Consistent s) (mem : g ∈ groups s c)
    (disjoint : g.matched py ≠ [] → g.Disjoint py) : ((g.matched py).map (·.id)).Nodup := by
  by_cases empty : g.matched py = []
  · simp [empty]
  · have ids := group_ids k mem
    have inside : ∀ e ∈ g.matched py, e ∈ g.events := by
      intro e here
      unfold Group.matched matchPatterns at here
      cases found : collectMatches py g.events g.rule.eventPatterns with
      | none => simp [found] at here
      | some all =>
        rw [found, Option.getD_some, List.mem_filter] at here
        obtain ⟨-, -, there, -⟩ := (collectMatches_mem found).mp here.1
        exact there
    have once : (g.matched py).Nodup := by
      have apart := disjoint empty
      unfold Group.matched matchPatterns
      cases found : collectMatches py g.events g.rule.eventPatterns with
      | none => simp
      | some all => exact collectMatches_nodup (List.Nodup.of_map _ ids) apart found
    refine once.map_on fun a ha b hb same => ?_
    exact List.inj_on_of_nodup_map ids (inside a ha) (inside b hb) same

/-- The loop books every group. -/
theorem correlateGroups_ok {todo : List Group} (k : Consistent s)
    (distinct : ∀ g ∈ todo, ((g.matched py).map (·.id)).Nodup)
    (calm : ∀ g ∈ todo, g.matched py ≠ [] → g.Unmitigated s) :
    ∃ s' counts, correlateGroups py s todo = .ok (s', counts) ∧ Consistent s' ∧ Grows s s' ∧
      ∀ g ∈ todo, g.matched py ≠ [] → Settled s' g (g.matched py) := by
  induction todo generalizing s with
  | nil => exact ⟨s, _, rfl, k, Grows.refl s, by simp⟩
  | cons g todo ih =>
    obtain ⟨s₁, first, booked, k₁, grows₁, settled₁⟩ :=
      correlateGroup_ok k (distinct g (by simp)) (calm g (by simp))
    obtain ⟨s₂, rest, done, k₂, grows₂, settled₂⟩ := ih k₁ (fun g mem => distinct g (by simp [mem]))
      (fun g mem fires => grows₁.unmitigated (calm g (by simp [mem]) fires))
    refine ⟨s₂, ⟨first.created + rest.created, first.updated + rest.updated,
      first.correlated + rest.correlated⟩, ?_, k₂, grows₁.trans grows₂, ?_⟩
    · rw [correlateGroups, ok_bind booked]
      dsimp only
      rw [ok_bind done]
      rfl
    · intro g' mem fires
      rcases List.mem_cons.mp mem with rfl | later
      · exact grows₂.settled (settled₁ fires)
      · exact settled₂ g' later fires

theorem correlateGroups_settled {todo : List Group} (k : Consistent s)
    (settled : ∀ g ∈ todo, g.matched py ≠ [] →
      ∃ matched, Settled s g matched ∧ ∀ e ∈ g.matched py, e ∈ matched) :
    correlateGroups py s todo = .ok (s, {}) := by
  induction todo with
  | nil => rfl
  | cons g todo ih =>
    have first : correlateGroup py s g = .ok (s, {}) := by
      by_cases empty : g.matched py = []
      · rw [correlateGroup, if_pos empty]
      · obtain ⟨matched, here, known⟩ := settled g (by simp) empty
        exact correlateGroup_settled k (fun _ => here) known
    have rest := ih fun g mem => settled g (by simp [mem])
    rw [correlateGroups, ok_bind first]
    dsimp only
    rw [ok_bind rest]
    rfl

/-- The same call, later. -/
def Repeats (c c' : Call) : Prop :=
  c'.organizationId = c.organizationId ∧ c'.timeWindowMinutes = c.timeWindowMinutes ∧
    c'.siteId = c.siteId ∧ c.now ≤ c'.now

/-- A later call sees fewer of the same events. -/
theorem ruleEvents_later {c' : Call} (again : Repeats c c') (grows : Grows s s')
    (rule : CorrelationRule) : (ruleEvents s' c' rule).Sublist (ruleEvents s c rule) := by
  obtain ⟨organization, minutes, site, later⟩ := again
  unfold ruleEvents recentEvents
  rw [grows.events, List.filter_filter, List.filter_filter]
  apply List.monotone_filter_right
  intro e
  simp only [Bool.and_eq_true, decide_eq_true_eq, organization, minutes, site]
  rintro ⟨window, own, wide, site⟩
  exact ⟨by omega, own, by omega, site⟩

theorem groups_later {c' : Call} (again : Repeats c c') (grows : Grows s s') (mem : g ∈ groups s' c')
    (fires : g.matched py ≠ []) : ∃ g' ∈ groups s c, g'.rule = g.rule ∧ g'.key = g.key ∧
      g'.matched py ≠ [] ∧ ∀ e ∈ g.matched py, e ∈ g'.matched py := by
  obtain ⟨active, some_, events⟩ := mem_groups.mp mem
  have fewer : g.events.Sublist ((ruleEvents s c g.rule).filter
      fun e => decide (scopeKey g.rule.scope e = g.key)) := by
    rw [events]
    exact (ruleEvents_later again grows g.rule).filter _
  have known : ∀ e ∈ g.matched py, e ∈ matchPatterns py ((ruleEvents s c g.rule).filter
      fun e => decide (scopeKey g.rule.scope e = g.key)) g.rule.eventPatterns g.rule.conditions :=
    fun e here => matchPatterns_mono fewer here
  have same : g.rule ∈ activeRules s c := by
    unfold activeRules at active ⊢
    rw [grows.rules, again.1] at active
    exact active
  refine ⟨⟨g.rule, g.key, (ruleEvents s c g.rule).filter fun e =>
    decide (scopeKey g.rule.scope e = g.key)⟩, mem_groups.mpr ⟨same, ?_, rfl⟩, rfl, rfl, ?_, known⟩
  · intro empty
    dsimp only at empty
    rw [empty] at fewer
    exact some_ (List.sublist_nil.mp fewer)
  · intro empty
    obtain ⟨e, here⟩ := List.exists_mem_of_ne_nil _ fires
    have there := known e here
    rw [show matchPatterns py _ g.rule.eventPatterns g.rule.conditions = [] from empty] at there
    cases there

theorem correlate_ok (k : Consistent s) (fine : Fine py s (.correlate c)) :
    ∃ s' counts, correlate py s c = .ok (s', counts) ∧ Consistent s' ∧
      ∀ c', Repeats c c' → correlate py s' c' = .ok (s', {}) := by
  have distinct : ∀ g ∈ groups s c, ((g.matched py).map (·.id)).Nodup :=
    fun g mem => matched_nodup k mem fun fires => (fine g mem fires).1
  obtain ⟨s', counts, booked, k', grows, settled⟩ := correlateGroups_ok k distinct
    (fun g mem fires => (fine g mem fires).2)
  refine ⟨s', counts, booked, k', fun c' again => ?_⟩
  apply correlateGroups_settled k'
  intro g mem fires
  obtain ⟨g', mem', rule, key, fires', known⟩ := groups_later again grows mem fires
  refine ⟨g'.matched py, ?_, known⟩
  have here := settled g' mem' fires'
  unfold Settled at here ⊢
  rw [rule, key] at here
  exact here

/-! ### Every run -/

/-- A change in place that leaves the links and makes no incident active. -/
theorem Consistent.quieten {f : Incident → Incident} (k : Consistent s) (id : ∀ i, (f i).id = i.id)
    (count : ∀ i, (f i).eventCount = i.eventCount)
    (active : ∀ i, (f i).status.isActive = true → i.status.isActive = true)
    (of_ : ∀ i o r key, (f i).Of o r key → i.Of o r key) :
    Consistent { s with incidents := s.incidents.map f } := by
  refine k.map id k.links k.linked (fun i mem => (count i).trans (k.counts i mem)) ?_
  rintro i mem j mem' first second ⟨o, r, key, left, right⟩
  exact k.single i mem j mem' (active i first) (active j second)
    ⟨o, r, key, of_ i o r key left, of_ j o r key right⟩

theorem updateIncident_consistent {id : Nat} {status : IncidentStatus} {now : Int} (k : Consistent s)
    (fine : Fine py s (.update id status now)) : Consistent (updateIncident s id status now) := by
  obtain ⟨f, rows, same⟩ : ∃ f : Incident → Incident,
      (updateIncident s id status now) = { s with incidents := s.incidents.map f } ∧
      ∀ i, (f i).id = i.id ∧ (f i).eventCount = i.eventCount ∧
        (f i).status = (if i.id = id then status else i.status) ∧
          ∀ o r key, (f i).Of o r key ↔ i.Of o r key := by
    refine ⟨_, rfl, fun i => ?_⟩
    simp only [key_incident]
    by_cases here : i.id = id
    · by_cases already : status = i.status
      · simp [here, already]
      · simp [here, already, Incident.Of]
    · simp [here]
  rw [rows]
  refine k.map (fun i => (same i).1) k.links k.linked
    (fun i mem => (same i).2.1.trans (k.counts i mem)) ?_
  rintro i mem j mem' first second ⟨o, r, key, left, right⟩
  have keys : SameKey i j := ⟨o, r, key, ((same i).2.2.2 o r key).mp left,
    ((same j).2.2.2 o r key).mp right⟩
  have keys' : SameKey j i := ⟨o, r, key, ((same j).2.2.2 o r key).mp right,
    ((same i).2.2.2 o r key).mp left⟩
  rw [(same i).2.2.1] at first
  rw [(same j).2.2.1] at second
  by_cases hi : i.id = id
  · by_cases hj : j.id = id
    · exact k.ids.eq mem mem' (hi.trans hj.symm)
    · rw [if_pos hi] at first
      rw [if_neg hj] at second
      cases before : i.status.isActive with
      | true => exact k.single i mem j mem' before second keys
      | false => exact absurd keys (fine first i mem hi before j mem' second)
  · rw [if_neg hi] at first
    by_cases hj : j.id = id
    · rw [if_pos hj] at second
      cases before : j.status.isActive with
      | true => exact k.single i mem j mem' first before keys
      | false => exact absurd keys' (fine second j mem' hj before i mem first)
    · rw [if_neg hj] at second
      exact k.single i mem j mem' first second keys

theorem autoResolve_consistent {organizationId : Uuid} {now : Int} (k : Consistent s) :
    Consistent (autoResolveIncidents s organizationId now) := by
  apply k.quieten
  · intro i
    split <;> rfl
  · intro i
    split <;> rfl
  · intro i active
    split at active
    · simp [IncidentStatus.isActive] at active
    · exact active
  · intro i o r key
    split <;> exact fun h => h

theorem step_consistent {e : Step} (k : Consistent s) (fine : Fine py s e)
    (next : step py s e = some s') : Consistent s' := by
  cases e with
  | correlate c =>
    obtain ⟨t, counts, booked, kept, -⟩ := correlate_ok k fine
    rw [step, booked] at next
    obtain rfl := Option.some.inj next
    exact kept
  | update id status now =>
    obtain rfl := Option.some.inj next
    exact updateIncident_consistent k fine
  | autoResolve organizationId now =>
    obtain rfl := Option.some.inj next
    exact autoResolve_consistent k
  | observe e =>
    rw [step] at next
    split at next
    · cases next
    · next fresh =>
      obtain rfl := Option.some.inj next
      refine ⟨k.ids, k.fresh, k.links, k.linked, k.counts, k.single, ?_⟩
      rw [List.map_append, List.nodup_append']
      exact ⟨k.events, by simp, by simpa using fresh⟩
  | configure rules =>
    rw [step] at next
    split at next
    · obtain rfl := Option.some.inj next
      have kept : Consistent { s with incidents := s.incidents.map (Incident.detached rules) } := by
        apply k.quieten <;> unfold Incident.detached
        · intro i
          split <;> rfl
        · intro i
          split <;> rfl
        · intro i active
          split at active <;> exact active
        · intro i o r key
          split
          · exact fun h => h
          · rintro ⟨-, gone, -⟩
            cases gone
      exact ⟨kept.ids, kept.fresh, kept.links, kept.linked, kept.counts, kept.single, kept.events⟩
    · cases next

/-- In every run whose steps are fine the counts are those of the links, nothing is linked twice, a rule
has one active incident in a scope, and the next call that is fine succeeds and leaves nothing to do
for the same call made again. -/
theorem incident_bookkeeping (py : Python) {s₀ s : Store} {steps : List Step}
    (start : Consistent s₀) (run : Runs (step py) (Fine py) s₀ steps s) :
    Consistent s ∧ ∀ c, Fine py s (.correlate c) →
      ∃ s' counts, correlate py s c = .ok (s', counts) ∧ Consistent s' ∧
        ∀ c', Repeats c c' → correlate py s' c' = .ok (s', {}) := by
  have kept := run.invariant start fun _ _ _ fine next kept => step_consistent kept fine next
  exact ⟨kept, fun c fine => correlate_ok kept fine⟩

/-- A Python whose library is not asked. -/
def plainPython : Python := ⟨fun _ => some "", fun _ _ => none, fun _ => false, fun _ => .error⟩

/-- A rule over the events of a site. -/
def siteRule (patterns : List EventPattern) : CorrelationRule :=
  ⟨"rule", "org", .active, patterns, 300, "site", none, none⟩

/-- An event at a site. -/
def seen (id site type : String) (second : Int) : EventRecord :=
  ⟨id, "org", some site, none, type, none, seconds second, []⟩

/-- Two devices and the gateway of a site are off line. -/
def outage : List EventPattern := [{ eventType := "device.*", minCount := 2 }, { eventType := "gateway.*" }]

def outageStore (events : List EventRecord) : Store := ⟨[siteRule outage], events, [], [], 0⟩

theorem outageStore_consistent : Consistent (outageStore []) where
  ids := by simp [outageStore, Table.Unique]
  fresh := by simp [outageStore]
  links := by simp [outageStore]
  linked := by simp [outageStore]
  counts := by simp [outageStore]
  single := by simp [outageStore]
  events := by simp [outageStore]

def outageEvents : List EventRecord :=
  [seen "e1" "north" "device.offline" 0, seen "e2" "north" "gateway.offline" 10,
    seen "e3" "south" "device.offline" 15, seen "e4" "north" "device.offline" 20]

def quarterHour (second : Int) : Call := ⟨"org", 15, none, seconds second⟩

/-- The incident of the northern site is resolved, and the outage goes on. -/
def longOutage : List Step :=
  outageEvents.map .observe ++ [.correlate (quarterHour 60), .update 0 .resolved (seconds 90),
    .observe (seen "e5" "north" "device.offline" 100)]

/-- The next call books a second incident of the site, and the same call later has nothing to do. -/
theorem longOutage_booked_once : ∃ s s' counts,
    Runs (step plainPython) (Fine plainPython) (outageStore []) longOutage s ∧
      s.links = [⟨0, "e4"⟩, ⟨0, "e1"⟩, ⟨0, "e2"⟩] ∧
      correlate plainPython s (quarterHour 120) = .ok (s', counts) ∧
      s'.links = s.links ++ [⟨1, "e5"⟩, ⟨1, "e4"⟩, ⟨1, "e1"⟩, ⟨1, "e2"⟩] ∧ Consistent s' ∧
      correlate plainPython s' (quarterHour 180) = .ok (s', {}) := by
  have ran : (exec (step plainPython) (Fine plainPython) (outageStore []) longOutage).any (fun s => decide
      (s.links = [⟨0, "e4"⟩, ⟨0, "e1"⟩, ⟨0, "e2"⟩] ∧ Fine plainPython s (.correlate (quarterHour 120)) ∧
        (correlate plainPython s (quarterHour 120)).map (·.1.links) =
          .ok (s.links ++ [⟨1, "e5"⟩, ⟨1, "e4"⟩, ⟨1, "e1"⟩, ⟨1, "e2"⟩]))) = true := by decide +kernel
  obtain ⟨s, ends, facts⟩ := (Option.any_eq_true _ _).mp ran
  obtain ⟨before, fine, links⟩ := of_decide_eq_true facts
  have run := Runs.of_exec ends
  obtain ⟨-, booked⟩ := incident_bookkeeping plainPython outageStore_consistent run
  obtain ⟨s', counts, first, kept, again⟩ := booked (quarterHour 120) fine
  rw [first] at links
  exact ⟨s, s', counts, run, before, first, Except.ok.inj links, kept,
    again (quarterHour 180) ⟨rfl, rfl, rfl, by decide⟩⟩

def offline : EventRecord := seen "e1" "site" "device.offline" 0

/-- A table without incidents. -/
def newStore (patterns : List EventPattern) : Store := ⟨[siteRule patterns], [offline], [], [], 0⟩

/-- Two patterns that match one event link it twice. -/
theorem overlapping_patterns_fail :
    (correlate plainPython (newStore [{ eventType := "device.*" }, { eventType := "*.offline" }])
      (quarterHour 60)).map (·.1.links) = .error .uniqueViolation := by decide +kernel

end FreeSdn.Correlation
