import FreeSdn.Correlation.Bookkeeping

/-! The verdict of `correlate` on its rules (`services/correlation.py`), beside what a rule says: how many
events of a scope each of its patterns asks for, within the rule's window. -/

namespace FreeSdn.Correlation

open FreeSdn.Lib FreeSdn.Automation

variable (py : Python)

/-! ### `dry_run=True` -/

/-- The two loops of a dry run. -/
def dryRunGroups : List Group → Counts
  | [] => {}
  | g :: groups =>
    let rest := dryRunGroups groups
    if g.matched py = [] then rest
    else ⟨1 + rest.created, rest.updated, (g.matched py).length + rest.correlated⟩

/-- `correlate` with `dry_run=True`. -/
def correlateDry (s : Store) (c : Call) : Counts := dryRunGroups py (groups s c)

/-! ### What a rule says -/

/-- The event meets the glob and the category of the pattern and the conditions of both. -/
def EventPattern.meets (rule : CorrelationRule) (p : EventPattern) (e : EventRecord) : Bool :=
  fnmatch e.eventType p.eventType &&
    p.category.all (fun wanted => wanted == "" || e.category == some wanted) &&
    payloadMatches py e.payload p.conditions &&
    rule.conditions.all (payloadMatches py e.payload)

/-- Of the events of the scope in the rule's window, every pattern has as many as it asks for. -/
def Defined (s : Store) (c : Call) (rule : CorrelationRule) (key : String) : Prop :=
  ∀ p ∈ rule.eventPatterns, p.minCount ≤ (s.events.countP fun e =>
    decide (e.organizationId = c.organizationId ∧ scopeKey rule.scope e = key ∧
      c.now - seconds rule.timeWindowSeconds ≤ e.timestamp ∧ e.timestamp ≤ c.now) &&
    p.meets py rule e : Nat)

/-- The run links an event to an incident of the rule in the scope. -/
def Fires (s : Store) (c : Call) (rule : CorrelationRule) (key : String) : Prop :=
  ∃ s' counts, correlate py s c = .ok (s', counts) ∧
    ∃ i ∈ s'.incidents, i.Of rule.organizationId rule.id key ∧
      ∃ l ∈ s'.links, l.incidentId = i.id ∧ l ∉ s.links

/-- What a run that is no dry run creates; one that raises is rolled back. -/
def createdCount (s : Store) (c : Call) : Nat :=
  match correlate py s c with
  | .ok (_, counts) => counts.created
  | .error _ => 0

/-- The rules fire on their definitions, and a dry run announces what the run creates. -/
def Judges (s : Store) (c : Call) : Prop :=
  (∀ rule ∈ activeRules s c, ∀ key, Fires py s c rule key ↔ Defined py s c rule key) ∧
    (correlateDry py s c).created = createdCount py s c

/-! ### What the code looks at -/

/-- The event is of the scope, the site of the call, and both windows. -/
def InSight (c : Call) (rule : CorrelationRule) (key : String) (e : EventRecord) : Prop :=
  e.organizationId = c.organizationId ∧ scopeKey rule.scope e = key ∧
    c.now - seconds rule.timeWindowSeconds ≤ e.timestamp ∧
    c.now - seconds (60 * c.timeWindowMinutes) ≤ e.timestamp ∧ ∀ site ∈ c.siteId, e.siteId = some site

instance (c : Call) (rule : CorrelationRule) (key : String) (e : EventRecord) :
    Decidable (InSight c rule key e) := inferInstanceAs (Decidable (_ ∧ _))

/-- Of the events in sight, every pattern accepts as many as it asks for, and one that is accepted passes
the conditions of the rule. -/
def Found (s : Store) (c : Call) (rule : CorrelationRule) (key : String) : Prop :=
  (∀ p ∈ rule.eventPatterns,
    p.minCount ≤ (s.events.countP fun e => decide (InSight c rule key e) && p.accepts py e : Nat)) ∧
  ∃ e ∈ s.events, InSight c rule key e ∧ admits py rule.conditions e = true ∧
    ∃ p ∈ rule.eventPatterns, p.accepts py e = true

/-- No incident of the rule in the scope is open or investigated. -/
def Idle (s : Store) (rule : CorrelationRule) (key : String) : Prop :=
  ∀ i ∈ s.incidents, i.status ∈ [IncidentStatus.open_, .investigating] →
    ¬ i.Of rule.organizationId rule.id key

/-- The states and calls on which the code and the definitions agree. -/
structure Plain (s : Store) (c : Call) : Prop where
  /-- Nothing is gained by events of the future, without a category or against the rule's conditions. -/
  gained : ∀ rule ∈ activeRules s c, ∀ key, Found py s c rule key → Defined py s c rule key
  /-- Nothing is lost with the events before the call's window or of other sites, and no rule is met by
  nothing. -/
  lost : ∀ rule ∈ activeRules s c, ∀ key, Defined py s c rule key → Found py s c rule key
  idle : ∀ rule ∈ activeRules s c, ∀ key, Found py s c rule key → Idle s rule key
  /-- No event in sight is accepted by two patterns. -/
  apart : ∀ rule ∈ activeRules s c, ∀ key, Found py s c rule key →
    rule.eventPatterns.Pairwise fun p q => ∀ e ∈ s.events, InSight c rule key e →
      admits py rule.conditions e = true → ¬ (p.accepts py e = true ∧ q.accepts py e = true)

/-- The keys of the tables, and an identifier that is not in use. -/
structure Stored (s : Store) : Prop where
  events : (s.events.map (·.id)).Nodup
  rules : (s.rules.map (·.id)).Nodup
  fresh : ∀ i ∈ s.incidents, i.id < s.nextId
  linked : ∀ l ∈ s.links, l.incidentId < s.nextId

/-! ### Groups -/

variable {py} {s s' : Store} {c : Call} {g : Group} {rule : CorrelationRule} {key : String}
  {patterns : List EventPattern} {events : List EventRecord} {conditions : Option Dict} {todo : List Group}

theorem collectMatches_isSome : (collectMatches py events patterns).isSome = true ↔
    ∀ p ∈ patterns, p.minCount ≤ (events.countP (p.accepts py) : Nat) := by
  induction patterns with
  | nil => simp [collectMatches]
  | cons p patterns ih =>
    rw [collectMatches, List.forall_mem_cons, ← ih, List.countP_eq_length_filter]
    split
    · rename_i few
      simp [few]
    · rename_i enough
      simp [Int.not_lt.mp enough]

/-- Patterns match when each has enough, and something is left. -/
theorem matchPatterns_ne : matchPatterns py events patterns conditions ≠ [] ↔
    (∀ p ∈ patterns, p.minCount ≤ (events.countP (p.accepts py) : Nat)) ∧
      ∃ e ∈ events, admits py conditions e = true ∧ ∃ p ∈ patterns, p.accepts py e = true := by
  rw [← collectMatches_isSome, matchPatterns]
  cases collected : collectMatches py events patterns with
  | none => simp
  | some found =>
    rw [Option.getD_some, Option.isSome_some, eq_self, true_and]
    constructor
    · intro some_
      obtain ⟨e, mem⟩ := List.exists_mem_of_ne_nil _ some_
      obtain ⟨here, admitted⟩ := List.mem_filter.mp mem
      obtain ⟨p, listed, there, accepts⟩ := (collectMatches_mem collected).mp here
      exact ⟨e, there, admitted, p, listed, accepts⟩
    · rintro ⟨e, there, admitted, p, listed, accepts⟩
      have mem := (collectMatches_mem collected).mpr ⟨p, listed, there, accepts⟩
      exact List.ne_nil_of_mem (List.mem_filter.mpr ⟨mem, admitted⟩)

/-- The events that a group has are those in sight. -/
theorem group_perm (s : Store) (c : Call) (rule : CorrelationRule) (key : String) :
    ((ruleEvents s c rule).filter fun e => decide (scopeKey rule.scope e = key)).Perm
      (s.events.filter fun e => decide (InSight c rule key e)) := by
  have same : (ruleEvents s c rule).filter (fun e => decide (scopeKey rule.scope e = key)) =
      (s.events.insertionSort fun a b => b.timestamp ≤ a.timestamp).filter
        fun e => decide (InSight c rule key e) := by
    unfold ruleEvents recentEvents
    rw [List.filter_filter, List.filter_filter]
    refine List.filter_congr fun e _ => ?_
    rw [← Bool.decide_and, ← Bool.decide_and]
    apply decide_eq_decide.mpr
    unfold InSight
    tauto
  rw [same]
  exact (List.perm_insertionSort _ _).filter _

/-- The group of a rule and a scope. -/
def groupOf (s : Store) (c : Call) (rule : CorrelationRule) (key : String) : Group :=
  ⟨rule, key, (ruleEvents s c rule).filter fun e => decide (scopeKey rule.scope e = key)⟩

theorem mem_groupOf {e : EventRecord} : e ∈ (groupOf s c rule key).events ↔
    e ∈ s.events ∧ InSight c rule key e := by
  refine (group_perm s c rule key).mem_iff.trans ?_
  rw [List.mem_filter, decide_eq_true_iff]

/-- A group matches when the code finds what it looks for. -/
theorem found_iff : Found py s c rule key ↔ (groupOf s c rule key).matched py ≠ [] := by
  unfold Group.matched
  rw [matchPatterns_ne]
  have count (p : EventPattern) : (groupOf s c rule key).events.countP (p.accepts py) =
      s.events.countP fun e => decide (InSight c rule key e) && p.accepts py e := by
    refine ((group_perm s c rule key).countP_eq _).trans ?_
    rw [List.countP_filter]
    exact List.countP_congr fun e _ => by rw [Bool.and_comm]
  simp only [count, mem_groupOf, and_assoc]
  exact Iff.rfl

theorem eq_groupOf (mem : g ∈ groups s c) : g = groupOf s c g.rule g.key := by
  obtain ⟨rule, key, events⟩ := g
  obtain ⟨-, -, same⟩ := mem_groups.mp mem
  exact congrArg _ same

theorem groupOf_mem (active : rule ∈ activeRules s c) (found : Found py s c rule key) :
    groupOf s c rule key ∈ groups s c := by
  refine mem_groups.mpr ⟨active, ?_, rfl⟩
  obtain ⟨-, e, mem, sight, -⟩ := found
  exact List.ne_nil_of_mem (mem_groupOf.mpr ⟨mem, sight⟩)

/-- No two groups are of one rule and one scope. -/
theorem groups_apart (k : Stored s) (c : Call) :
    ((groups s c).map fun g => (g.rule.id, g.key)).Nodup := by
  unfold groups
  rw [List.map_flatMap, List.nodup_flatMap]
  constructor
  · intro rule _
    rw [List.map_map]
    refine List.Nodup.of_map Prod.snd ?_
    rw [List.map_map]
    exact (groupByScope_grouped _ _).1
  · have distinct : ((activeRules s c).map (·.id)).Nodup := (List.filter_sublist.map _).nodup k.rules
    refine (List.pairwise_map.mp distinct).imp ?_
    intro a b other
    refine List.disjoint_left.mpr ?_
    intro pair first second
    obtain ⟨g, mem, rfl⟩ := List.mem_map.mp first
    obtain ⟨h, mem', same⟩ := List.mem_map.mp second
    obtain ⟨_, _, rfl⟩ := List.mem_map.mp mem
    obtain ⟨_, _, rfl⟩ := List.mem_map.mp mem'
    exact other (Prod.mk.inj same).1.symm

/-! ### Runs that only create -/

/-- The store with an incident for every group that matches. -/
def book (py : Python) : Store → List Group → Store
  | s, [] => s
  | s, g :: todo =>
    if g.matched py = [] then book py s todo else book py (withIncident s g (g.matched py)) todo

/-- A group that matches has no event twice and no open incident. -/
def Quiet (py : Python) (s : Store) (g : Group) : Prop :=
  g.matched py ≠ [] → ((g.matched py).map (·.id)).Nodup ∧ Idle s g.rule g.key

theorem find_idle (idle : Idle s g.rule g.key) :
    findExistingIncident s g.rule.organizationId g.rule.id g.key = .ok none := by
  have none_ : s.incidents.filter (fun i => decide (i.organizationId = g.rule.organizationId ∧
      i.ruleId = some g.rule.id ∧ i.status ∈ [IncidentStatus.open_, .investigating] ∧
      i.scopeKey = g.key)) = [] := by
    apply List.eq_nil_iff_forall_not_mem.mpr
    intro i mem
    obtain ⟨here, live, of_⟩ := mem_found.mp mem
    exact idle i here live of_
  unfold findExistingIncident
  rw [none_]

theorem withIncident_linked (linked : ∀ l ∈ s.links, l.incidentId < s.nextId) (g : Group)
    (matched : List EventRecord) :
    ∀ l ∈ (withIncident s g matched).links, l.incidentId < (withIncident s g matched).nextId := by
  intro l mem
  rcases List.mem_append.mp mem with old | new
  · exact Nat.lt_succ_of_lt (linked l old)
  · obtain ⟨e, -, rfl⟩ := List.mem_map.mp new
    exact Nat.lt_succ_self _

theorem withIncident_idle {h : Group} (idle : Idle s h.rule h.key) (matched : List EventRecord)
    (other : (h.rule.id, h.key) ≠ (g.rule.id, g.key)) :
    Idle (withIncident s g matched) h.rule h.key := by
  intro i mem live of_
  rcases List.mem_append.mp mem with old | new
  · exact idle i old live of_
  · obtain rfl := List.mem_singleton.mp new
    obtain ⟨-, rule, key⟩ := of_
    exact other (Prod.ext (Option.some.inj rule).symm key.symm)

/-- Quiet groups are booked one by one. -/
theorem correlateGroups_books (linked : ∀ l ∈ s.links, l.incidentId < s.nextId)
    (apart : (todo.map fun g => (g.rule.id, g.key)).Nodup) (quiet : ∀ g ∈ todo, Quiet py s g) :
    ∃ counts, correlateGroups py s todo = .ok (book py s todo, counts) ∧
      counts.created = (dryRunGroups py todo).created := by
  induction todo generalizing s with
  | nil => exact ⟨{}, rfl, rfl⟩
  | cons g todo ih =>
    obtain ⟨fresh, apart⟩ := List.nodup_cons.mp apart
    by_cases empty : g.matched py = []
    · obtain ⟨counts, booked, created⟩ := ih linked apart fun h mem => quiet h (List.mem_cons_of_mem _ mem)
      refine ⟨⟨0 + counts.created, 0 + counts.updated, 0 + counts.correlated⟩, ?_, ?_⟩
      · rw [correlateGroups, correlateGroup, if_pos empty]
        change (correlateGroups py s todo >>= _) = _
        rw [ok_bind booked, book, if_pos empty]
        rfl
      · rw [dryRunGroups, if_pos empty, ← created]
        exact Nat.zero_add _
    · obtain ⟨distinct, idle⟩ := quiet g List.mem_cons_self empty
      have later : ∀ h ∈ todo, Quiet py (withIncident s g (g.matched py)) h := by
        intro h mem fires
        obtain ⟨distinct', idle'⟩ := quiet h (List.mem_cons_of_mem _ mem) fires
        refine ⟨distinct', withIncident_idle idle' _ fun same => fresh ?_⟩
        exact List.mem_map.mpr ⟨h, mem, same⟩
      obtain ⟨counts, booked, created⟩ := ih (withIncident_linked linked g _) apart later
      have first : correlateGroup py s g = .ok (withIncident s g (g.matched py),
          { created := 1, correlated := (g.matched py).length }) := by
        rw [correlateGroup, if_neg empty, ok_bind (find_idle idle)]
        exact createIncident_eq linked distinct
      refine ⟨⟨1 + counts.created, 0 + counts.updated, (g.matched py).length + counts.correlated⟩, ?_, ?_⟩
      · rw [correlateGroups, ok_bind first]
        dsimp only
        rw [ok_bind booked, book, if_neg empty]
        rfl
      · rw [dryRunGroups, if_neg empty, ← created]

theorem insertLinks_nodup {links new out : List IncidentEvent} (h : insertLinks links new = .ok out) :
    new.Nodup := by
  have apart : new.Nodup ∧ ∀ l ∈ new, l ∉ links := by
    induction new generalizing links with
    | nil => exact ⟨List.nodup_nil, fun l mem => by cases mem⟩
    | cons l new ih =>
      rw [insertLinks] at h
      split at h
      · cases h
      · rename_i here
        obtain ⟨nodup, fresh⟩ := ih h
        refine ⟨List.nodup_cons.mpr ⟨fun mem => fresh l mem (by simp), nodup⟩, ?_⟩
        rw [List.forall_mem_cons]
        exact ⟨here, fun k mem old => fresh k mem (List.mem_append_left _ old)⟩
  exact apart.1

theorem linksOf_ids {incident : Nat} (h : (linksOf incident events).Nodup) :
    (events.map (·.id)).Nodup := by
  refine List.Nodup.of_map (IncidentEvent.mk incident) ?_
  rw [List.map_map]
  exact h

/-- What a run creates is at most what a dry run announces, and as much only if every group that matches is
quiet. -/
theorem created_le {counts : Counts} (ran : correlateGroups py s todo = .ok (s', counts)) :
    counts.created ≤ (dryRunGroups py todo).created ∧
      (counts.created = (dryRunGroups py todo).created → ∀ g ∈ todo, Quiet py s g) := by
  induction todo generalizing s s' counts with
  | nil =>
    obtain ⟨-, rfl⟩ := Prod.mk.inj (Except.ok.inj ran)
    exact ⟨Nat.le_refl _, fun _ g mem => by cases mem⟩
  | cons g todo ih =>
    rw [correlateGroups] at ran
    obtain ⟨⟨s₁, first⟩, one, ran⟩ := bind_ok ran
    obtain ⟨⟨s₂, rest⟩, others, ran⟩ := bind_ok ran
    obtain ⟨-, rfl⟩ := Prod.mk.inj (Except.ok.inj ran)
    obtain ⟨least, all⟩ := ih others
    dsimp only
    rw [correlateGroup] at one
    by_cases empty : g.matched py = []
    · rw [if_pos empty] at one
      obtain ⟨rfl, rfl⟩ := Prod.mk.inj (Except.ok.inj one)
      rw [dryRunGroups, if_pos empty, Nat.zero_add]
      refine ⟨least, fun same h mem => ?_⟩
      rcases List.mem_cons.mp mem with rfl | later
      · exact fun some_ => absurd empty some_
      · exact all same h later
    · rw [if_neg empty] at one
      rw [dryRunGroups, if_neg empty]
      dsimp only
      obtain ⟨found, lookup, one⟩ := bind_ok one
      cases found with
      | some existing =>
        obtain ⟨links, -, one⟩ := bind_ok one
        obtain ⟨-, rfl⟩ := Prod.mk.inj (Except.ok.inj one)
        dsimp only
        exact ⟨by omega, by omega⟩
      | none =>
        have idle : Idle s g.rule g.key := by
          intro i mem live of_
          have here := mem_found.mpr ⟨mem, live, of_⟩
          unfold findExistingIncident at lookup
          split at lookup
          · rename_i none_
            rw [none_] at here
            cases here
          · cases lookup
          · cases lookup
        obtain ⟨links, inserted, one⟩ := bind_ok one
        obtain ⟨rfl, rfl⟩ := Prod.mk.inj (Except.ok.inj one)
        dsimp only
        refine ⟨by omega, fun same h mem => ?_⟩
        rcases List.mem_cons.mp mem with rfl | later
        · exact fun _ => ⟨linksOf_ids (insertLinks_nodup inserted), idle⟩
        · intro fires
          obtain ⟨distinct, idle'⟩ := all (by omega) h later fires
          exact ⟨distinct, fun i mem => idle' i (List.mem_append_left _ mem)⟩

/-! ### What a run that only creates leaves -/

theorem book_grows (s : Store) (todo : List Group) : (∀ i ∈ s.incidents, i ∈ (book py s todo).incidents) ∧
    (∀ l ∈ s.links, l ∈ (book py s todo).links) := by
  induction todo generalizing s with
  | nil => exact ⟨fun _ mem => mem, fun _ mem => mem⟩
  | cons g todo ih =>
    rw [book]
    split
    · exact ih s
    · obtain ⟨incidents, links⟩ := ih (withIncident s g (g.matched py))
      exact ⟨fun i mem => incidents i (List.mem_append_left _ mem),
        fun l mem => links l (List.mem_append_left _ mem)⟩

theorem book_new (s : Store) (todo : List Group) :
    ∀ i ∈ (book py s todo).incidents, i ∈ s.incidents ∨ s.nextId ≤ i.id := by
  induction todo generalizing s with
  | nil => exact fun i mem => .inl mem
  | cons g todo ih =>
    intro i mem
    rw [book] at mem
    split at mem
    · exact ih s i mem
    · rcases ih _ i mem with here | late
      · rcases List.mem_append.mp here with old | new
        · exact .inl old
        · rw [List.mem_singleton.mp new]
          exact .inr (Nat.le_refl _)
      · exact .inr (Nat.le_of_succ_le late)

/-- A group that matches has an incident with links of its own. -/
theorem book_made (linked : ∀ l ∈ s.links, l.incidentId < s.nextId) (mem : g ∈ todo)
    (fires : g.matched py ≠ []) : ∃ i ∈ (book py s todo).incidents,
      i.Of g.rule.organizationId g.rule.id g.key ∧
        ∃ l ∈ (book py s todo).links, l.incidentId = i.id ∧ l ∉ s.links := by
  induction todo generalizing s with
  | nil => cases mem
  | cons h todo ih =>
    by_cases here : g = h
    · subst here
      obtain ⟨e, first⟩ := List.exists_mem_of_ne_nil _ fires
      obtain ⟨incidents, links⟩ := @book_grows py (withIncident s g (g.matched py)) todo
      rw [book, if_neg fires]
      refine ⟨newIncident s g (g.matched py), incidents _ (List.mem_append_right _ List.mem_cons_self),
        ⟨rfl, rfl, rfl⟩, ⟨s.nextId, e.id⟩, links _ (List.mem_append_right _ ?_), rfl, fun old => ?_⟩
      · exact List.mem_map.mpr ⟨e, first, rfl⟩
      · exact absurd (linked _ old) (Nat.lt_irrefl _)
    · have later : g ∈ todo := (List.mem_cons.mp mem).resolve_left here
      rw [book]
      split
      · exact ih linked later
      · obtain ⟨i, there, of_, l, link, same, new⟩ := ih (withIncident_linked linked h _) later
        exact ⟨i, there, of_, l, link, same, fun old => new (List.mem_append_left _ old)⟩

/-- A link that is new is one of a group that matches. -/
theorem book_linked (fresh : ∀ i ∈ s.incidents, i.id < s.nextId) {l : IncidentEvent}
    (mem : l ∈ (book py s todo).links) (new : l ∉ s.links) {i : Incident}
    (here : i ∈ (book py s todo).incidents) (same : l.incidentId = i.id) :
    ∃ g ∈ todo, g.matched py ≠ [] ∧ i.Of g.rule.organizationId g.rule.id g.key := by
  induction todo generalizing s with
  | nil => exact absurd mem new
  | cons g todo ih =>
    rw [book] at mem here
    split at mem
    · rename_i empty
      rw [if_pos empty] at here
      obtain ⟨h, later, fires, of_⟩ := ih fresh mem new here
      exact ⟨h, List.mem_cons_of_mem _ later, fires, of_⟩
    · rename_i fires
      rw [if_neg fires] at here
      by_cases own : l ∈ (withIncident s g (g.matched py)).links
      · -- The link is one of the incident that was created for this group.
        obtain ⟨e, -, rfl⟩ := List.mem_map.mp ((List.mem_append.mp own).resolve_left new)
        refine ⟨g, List.mem_cons_self, fires, ?_⟩
        rcases book_new _ _ i here with there | late
        · rcases List.mem_append.mp there with old | created
          · exact absurd same (Nat.ne_of_gt (fresh i old))
          · rw [List.mem_singleton.mp created]
            exact ⟨rfl, rfl, rfl⟩
        · exact absurd same (Nat.ne_of_lt late)
      · have fresh' : ∀ i ∈ (withIncident s g (g.matched py)).incidents,
            i.id < (withIncident s g (g.matched py)).nextId := by
          intro i mem
          rcases List.mem_append.mp mem with old | created
          · exact Nat.lt_succ_of_lt (fresh i old)
          · rw [List.mem_singleton.mp created]
            exact Nat.lt_succ_self _
        obtain ⟨h, later, fires', of_⟩ := ih fresh' mem own here
        exact ⟨h, List.mem_cons_of_mem _ later, fires', of_⟩

/-! ### The verdict -/

/-- In a quiet run a rule fires where the code finds what it looks for. -/
theorem fires_iff (k : Stored s) (quiet : ∀ g ∈ groups s c, Quiet py s g) (active : rule ∈ activeRules s c)
    (key : String) : Fires py s c rule key ↔ Found py s c rule key := by
  obtain ⟨counts, booked, -⟩ := correlateGroups_books k.linked (groups_apart k c) quiet
  constructor
  · rintro ⟨s', counts', ran, i, here, of_, l, link, same, new⟩
    obtain ⟨rfl, -⟩ := Prod.mk.inj (Except.ok.inj (booked.symm.trans ran))
    obtain ⟨g, mem, fires, of'⟩ := book_linked k.fresh link new here same
    obtain ⟨active', -⟩ := mem_groups.mp mem
    have ids : g.rule.id = rule.id := Option.some.inj (of'.2.1.symm.trans of_.2.1)
    have rules : g.rule = rule := List.inj_on_of_nodup_map k.rules
      (List.mem_filter.mp active').1 (List.mem_filter.mp active).1 ids
    have keys : g.key = key := of'.2.2.symm.trans of_.2.2
    rw [eq_groupOf mem, rules, keys] at fires
    exact found_iff.mpr fires
  · intro found
    obtain ⟨i, here, of_, l, link, same, new⟩ :=
      book_made k.linked (groupOf_mem active found) (found_iff.mp found)
    exact ⟨_, counts, booked, i, here, of_, l, link, same, new⟩

/-- The events that a group matches are told apart exactly where no event is accepted by two patterns. -/
theorem collectMatches_apart {found : List EventRecord} (distinct : (events.map (·.id)).Nodup)
    (h : collectMatches py events patterns = some found) :
    ((found.filter (admits py conditions)).map (·.id)).Nodup ↔
      patterns.Pairwise fun p q => ∀ e ∈ events, admits py conditions e = true →
        ¬ (p.accepts py e = true ∧ q.accepts py e = true) := by
  constructor
  · intro once
    induction patterns generalizing found with
    | nil => exact .nil
    | cons p patterns ih =>
      rw [collectMatches] at h
      split at h
      · cases h
      · obtain ⟨rest, collected, rfl⟩ := Option.map_eq_some_iff.mp h
        rw [List.filter_append, List.map_append, List.nodup_append'] at once
        refine .cons ?_ (ih collected once.2.1)
        rintro q later e mem admitted ⟨accepted, accepts⟩
        refine once.2.2 (?_ : e.id ∈ _) ?_
        · exact List.mem_map_of_mem (List.mem_filter.mpr ⟨List.mem_filter.mpr ⟨mem, accepted⟩, admitted⟩)
        · exact List.mem_map_of_mem (List.mem_filter.mpr
            ⟨(collectMatches_mem collected).mpr ⟨q, later, mem, accepts⟩, admitted⟩)
  · intro apart
    have once := collectMatches_nodup (List.Nodup.of_map _ distinct) apart h
    refine once.map_on fun a ha b hb same => ?_
    have inside {e : EventRecord} (mem : e ∈ found.filter (admits py conditions)) : e ∈ events := by
      obtain ⟨-, -, there, -⟩ := (collectMatches_mem h).mp (List.mem_filter.mp mem).1
      exact there
    exact List.inj_on_of_nodup_map distinct (inside ha) (inside hb) same

theorem groupOf_ids (k : Stored s) (c : Call) (rule : CorrelationRule) (key : String) :
    ((groupOf s c rule key).events.map (·.id)).Nodup :=
  ((group_perm s c rule key).map _).nodup_iff.mpr ((List.filter_sublist.map _).nodup k.events)

theorem quiet_iff (k : Stored s) : Quiet py s (groupOf s c rule key) ↔ (Found py s c rule key →
    (rule.eventPatterns.Pairwise fun p q => ∀ e ∈ s.events, InSight c rule key e →
      admits py rule.conditions e = true → ¬ (p.accepts py e = true ∧ q.accepts py e = true)) ∧
    Idle s rule key) := by
  unfold Quiet
  rw [← found_iff]
  refine imp_congr_right fun found => and_congr_left' ?_
  have some_ := found_iff.mp found
  unfold Group.matched matchPatterns at some_ ⊢
  cases collected : collectMatches py (groupOf s c rule key).events rule.eventPatterns with
  | none =>
    rw [show (groupOf s c rule key).rule.eventPatterns = rule.eventPatterns from rfl, collected] at some_
    exact absurd rfl some_
  | some all =>
    rw [show (groupOf s c rule key).rule.eventPatterns = rule.eventPatterns from rfl, collected,
      Option.getD_some, collectMatches_apart (groupOf_ids k c rule key) collected]
    simp only [mem_groupOf, and_imp]
    exact Iff.rfl

theorem quiet_groups : (∀ g ∈ groups s c, Quiet py s g) ↔
    ∀ rule ∈ activeRules s c, ∀ key, Found py s c rule key → Quiet py s (groupOf s c rule key) := by
  constructor
  · exact fun quiet rule active key found => quiet _ (groupOf_mem active found)
  · intro quiet g mem fires
    rw [eq_groupOf mem] at fires ⊢
    exact quiet g.rule (mem_groups.mp mem).1 g.key (found_iff.mpr fires) fires

theorem dryRunGroups_pos (mem : g ∈ todo) (fires : g.matched py ≠ []) :
    (dryRunGroups py todo).created ≠ 0 := by
  induction todo with
  | nil => cases mem
  | cons h todo ih =>
    rw [dryRunGroups]
    split
    · rename_i empty
      refine ih ((List.mem_cons.mp mem).resolve_left ?_)
      rintro rfl
      exact fires empty
    · dsimp only
      omega

/-- A dry run announces what the run creates only if every group is quiet. -/
theorem quiet_of_judges (judges : Judges py s c) : ∀ g ∈ groups s c, Quiet py s g := by
  obtain ⟨-, same⟩ := judges
  unfold createdCount correlateDry at same
  cases ran : correlate py s c with
  | ok result =>
    obtain ⟨s', counts⟩ := result
    rw [ran] at same
    exact (created_le ran).2 same.symm
  | error e =>
    rw [ran] at same
    intro g mem fires
    exact absurd same (dryRunGroups_pos mem fires)

/-- `correlate` is right about its rules exactly in the plain cases. -/
theorem correlate_judges (py : Python) {s : Store} (k : Stored s) (c : Call) :
    Judges py s c ↔ Plain py s c := by
  constructor
  · intro judges
    have quiet := quiet_of_judges judges
    have agree : ∀ rule ∈ activeRules s c, ∀ key, Found py s c rule key ↔ Defined py s c rule key :=
      fun rule active key => (fires_iff k quiet active key).symm.trans (judges.1 rule active key)
    have calm (rule : CorrelationRule) (active : rule ∈ activeRules s c) (key : String)
        (found : Found py s c rule key) :=
      (quiet_iff k).mp (quiet_groups.mp quiet rule active key found) found
    exact ⟨fun rule active key => (agree rule active key).mp, fun rule active key => (agree rule active key).mpr,
      fun rule active key found => (calm rule active key found).2,
      fun rule active key found => (calm rule active key found).1⟩
  · intro plain
    have quiet : ∀ g ∈ groups s c, Quiet py s g := quiet_groups.mpr fun rule active key _ =>
      (quiet_iff k).mpr fun found => ⟨plain.apart rule active key found, plain.idle rule active key found⟩
    refine ⟨fun rule active key => ?_, ?_⟩
    · rw [fires_iff k quiet active key]
      exact ⟨plain.gained rule active key, plain.lost rule active key⟩
    · obtain ⟨counts, booked, created⟩ := correlateGroups_books k.linked (groups_apart k c) quiet
      unfold createdCount
      rw [show correlate py s c = _ from booked]
      exact created.symm

/-! ### An outage -/

theorem outageStore_stored {events : List EventRecord} (distinct : (events.map (·.id)).Nodup) :
    Stored (outageStore events) where
  events := distinct
  rules := List.nodup_singleton _
  fresh := by simp [outageStore]
  linked := by simp [outageStore]

theorem outage_key {key : String} (here : ∃ e ∈ outageEvents, scopeKey "site" e = key) :
    key ∈ ["north", "south"] := by
  obtain ⟨e, mem, rfl⟩ := here
  have keys : ∀ e ∈ outageEvents, scopeKey "site" e ∈ ["north", "south"] := by decide +kernel
  exact keys e mem

theorem outage_defined {key : String} (defined : Defined plainPython (outageStore outageEvents)
    (quarterHour 60) (siteRule outage) key) : key ∈ ["north", "south"] := by
  have some_ := defined { eventType := "gateway.*" } (List.mem_cons_of_mem _ List.mem_cons_self)
  have positive : 0 < List.countP _ (outageStore outageEvents).events := Int.ofNat_lt.mp some_
  obtain ⟨e, mem, met⟩ := List.countP_pos_iff.mp positive
  exact outage_key ⟨e, mem, (of_decide_eq_true (Bool.and_eq_true_iff.mp met).1).2.1⟩

instance (py : Python) (s : Store) (c : Call) (rule : CorrelationRule) (key : String) :
    Decidable (Found py s c rule key) :=
  inferInstanceAs (Decidable ((∀ p ∈ rule.eventPatterns, _ ≤ _) ∧ ∃ e ∈ s.events, _ ∧ _ ∧
    ∃ p ∈ rule.eventPatterns, _))

instance (py : Python) (s : Store) (c : Call) (rule : CorrelationRule) (key : String) :
    Decidable (Defined py s c rule key) := inferInstanceAs (Decidable (∀ p ∈ rule.eventPatterns, _ ≤ _))

/-- A rule with two patterns, one of which asks for two events, over the events of two sites. -/
theorem outage_judged : Judges plainPython (outageStore outageEvents) (quarterHour 60) := by
  refine (correlate_judges plainPython (outageStore_stored (by decide)) (quarterHour 60)).mpr ?_
  have rules {rule : CorrelationRule} (active : rule ∈ activeRules (outageStore outageEvents) (quarterHour 60)) :
      rule = siteRule outage := List.mem_singleton.mp (List.mem_filter.mp active).1
  have agree : ∀ key ∈ ["north", "south"],
      (Found plainPython (outageStore outageEvents) (quarterHour 60) (siteRule outage) key ↔
        Defined plainPython (outageStore outageEvents) (quarterHour 60) (siteRule outage) key) := by
    decide +kernel
  refine ⟨?_, ?_, ?_, ?_⟩
  · intro rule active key found
    obtain rfl := rules active
    obtain ⟨e, mem, sight, -⟩ := found.2
    exact (agree key (outage_key ⟨e, mem, sight.2.1⟩)).mp found
  · intro rule active key defined
    obtain rfl := rules active
    exact (agree key (outage_defined defined)).mpr defined
  · intro rule _ key _ i mem
    cases mem
  · intro rule active key found
    obtain rfl := rules active
    have apart : outage.Pairwise fun p q => ∀ e ∈ outageEvents, ¬ (p.accepts plainPython e = true ∧
        q.accepts plainPython e = true) := by decide +kernel
    exact apart.imp fun distinct e mem _ _ => distinct e mem

/-! ### One event -/

/-- The pattern of the one event. -/
def devices : EventPattern := { eventType := "device.*" }

/-- A rule over an hour. -/
def hourRule : CorrelationRule := { siteRule [devices] with timeWindowSeconds := 3600 }

def hourly : Store := { newStore [devices] with rules := [hourRule] }

/-- The incident of the one event is there already. -/
def booked : Store := { newStore [devices] with
  incidents := [⟨0, "org", some "rule", .open_, 1, "site", none, none, none⟩]
  links := [⟨0, "e1"⟩], nextId := 1 }

/-- The call's fifteen minutes cut the rule's hour, and a dry run announces an incident that is there. -/
theorem cut_and_announced :
    ¬ Judges plainPython hourly ⟨"org", 15, none, seconds 1200⟩ ∧
      ¬ Judges plainPython booked (quarterHour 60) := by
  constructor
  · intro judges
    have active : hourRule ∈ activeRules hourly ⟨"org", 15, none, seconds 1200⟩ :=
      List.mem_filter.mpr ⟨List.mem_cons_self, by decide⟩
    have defined : Defined plainPython hourly ⟨"org", 15, none, seconds 1200⟩ hourRule "site" := by
      unfold Defined
      decide +kernel
    obtain ⟨s', counts, ran, i, -, -, l, mem, -⟩ := (judges.1 hourRule active "site").mpr defined
    have links : (correlate plainPython hourly ⟨"org", 15, none, seconds 1200⟩).map (·.1.links) = .ok [] := by
      decide +kernel
    rw [ran] at links
    rw [show s'.links = [] from Except.ok.inj links] at mem
    cases mem
  · intro judges
    exact absurd judges.2 (by decide +kernel)

end FreeSdn.Correlation
