import FreeSdn.Lib.Run
import FreeSdn.Lib.Table
import FreeSdn.Correlation.Matching
import Mathlib.Data.List.Sort

/-! Incidents (`services/correlation.py`): what `correlate`, `update_incident` and
`auto_resolve_incidents` do to the incidents and to the links between incidents and events.  A call
that raises is rolled back. -/

namespace FreeSdn.Correlation

open FreeSdn.Lib FreeSdn.Automation

inductive IncidentStatus
  | open_ | investigating | mitigating | resolved | closed
  deriving DecidableEq, Repr

inductive CorrelationRuleStatus
  | active | disabled | draft
  deriving DecidableEq, Repr

structure CorrelationRule where
  id : Uuid
  organizationId : Uuid
  status : CorrelationRuleStatus
  eventPatterns : List EventPattern
  timeWindowSeconds : Int
  scope : String
  conditions : Option Dict
  autoResolveSeconds : Option Int

structure Incident where
  id : Nat
  organizationId : Uuid
  ruleId : Option Uuid
  status : IncidentStatus
  eventCount : Int
  /-- `context["scope_key"]`. -/
  scopeKey : String
  acknowledgedAt : Option Int
  resolvedAt : Option Int
  closedAt : Option Int
  deriving DecidableEq

/-- A row of `incident_events`. -/
structure IncidentEvent where
  incidentId : Nat
  eventId : Uuid
  deriving DecidableEq

structure Store where
  rules : List CorrelationRule
  events : List EventRecord
  incidents : List Incident
  links : List IncidentEvent
  /-- The identifier that the next incident gets. -/
  nextId : Nat

instance : Keyed Incident Nat := ⟨Incident.id⟩

@[simp] theorem key_incident (i : Incident) : Keyed.key i = i.id := rfl

/-- Why a call raises. -/
inductive Failure
  | uniqueViolation
  | multipleResultsFound
  deriving DecidableEq, Repr

/-! ### Linking -/

/-- Flushes new rows of `incident_events` under `uq_incident_event`. -/
def insertLinks (links : List IncidentEvent) : List IncidentEvent → Except Failure (List IncidentEvent)
  | [] => .ok links
  | link :: rest =>
    if link ∈ links then .error .uniqueViolation else insertLinks (links ++ [link]) rest

/-- `_find_existing_incident`. -/
def findExistingIncident (s : Store) (organizationId ruleId : Uuid) (key : String) :
    Except Failure (Option Incident) :=
  match s.incidents.filter fun i => decide (i.organizationId = organizationId ∧
      i.ruleId = some ruleId ∧ i.status ∈ [.open_, .investigating] ∧ i.scopeKey = key) with
  | [] => .ok none
  | [i] => .ok (some i)
  | _ => .error .multipleResultsFound

/-- The events of `_add_events_to_incident` that are not linked yet, as often as they are listed. -/
def newEvents (s : Store) (incident : Nat) (matched : List EventRecord) : List EventRecord :=
  matched.filter fun e => decide ((⟨incident, e.id⟩ : IncidentEvent) ∉ s.links)

def linksOf (incident : Nat) (events : List EventRecord) : List IncidentEvent :=
  events.map fun e => ⟨incident, e.id⟩

/-- What `correlate` reports of its work. -/
structure Counts where
  created : Nat := 0
  updated : Nat := 0
  correlated : Nat := 0
  deriving DecidableEq, Repr

/-- The events are added to the incident that is there. -/
def addEvents (s : Store) (existing : Incident) (matched : List EventRecord) :
    Except Failure (Store × Counts) := do
  let added := newEvents s existing.id matched
  let links ← insertLinks s.links (linksOf existing.id added)
  return ({ s with
      incidents := Table.update s.incidents existing.id fun i =>
        { i with eventCount := i.eventCount + added.length }
      links := links },
    { updated := if added.isEmpty then 0 else 1, correlated := added.length })

/-- A new incident for the rule and the scope. -/
def createIncident (s : Store) (rule : CorrelationRule) (key : String) (matched : List EventRecord) :
    Except Failure (Store × Counts) := do
  let links ← insertLinks s.links (linksOf s.nextId matched)
  return ({ s with
      incidents := s.incidents ++ [
        { id := s.nextId, organizationId := rule.organizationId, ruleId := some rule.id
          status := .open_, eventCount := matched.length, scopeKey := key
          acknowledgedAt := none, resolvedAt := none, closedAt := none }]
      links := links, nextId := s.nextId + 1 },
    { created := 1, correlated := matched.length })

/-! ### `correlate` -/

variable (py : Python)

/-- A group of a rule's scope that is to be matched. -/
structure Group where
  rule : CorrelationRule
  key : String
  events : List EventRecord

def Group.matched (g : Group) : List EventRecord :=
  matchPatterns py g.events g.rule.eventPatterns g.rule.conditions

/-- The body of the inner loop. -/
def correlateGroup (s : Store) (g : Group) : Except Failure (Store × Counts) :=
  if g.matched py = [] then .ok (s, {})
  else do
    match ← findExistingIncident s g.rule.organizationId g.rule.id g.key with
    | some existing => addEvents s existing (g.matched py)
    | none => createIncident s g.rule g.key (g.matched py)

/-- The loop over the groups. -/
def correlateGroups (s : Store) : List Group → Except Failure (Store × Counts)
  | [] => .ok (s, {})
  | g :: groups => do
    let (s, first) ← correlateGroup py s g
    let (s, rest) ← correlateGroups s groups
    return (s, ⟨first.created + rest.created, first.updated + rest.updated,
      first.correlated + rest.correlated⟩)

/-- The arguments of `correlate`, and the instant at which it is called. -/
structure Call where
  organizationId : Uuid
  timeWindowMinutes : Int
  siteId : Option Uuid
  now : Int

def seconds (n : Int) : Int := n * 1000000

/-- The events of the organization in the widest window, latest first. -/
def recentEvents (s : Store) (c : Call) : List EventRecord :=
  (s.events.insertionSort fun a b => b.timestamp ≤ a.timestamp).filter fun e =>
    decide (e.organizationId = c.organizationId ∧
      c.now - seconds (60 * c.timeWindowMinutes) ≤ e.timestamp ∧
      ∀ site ∈ c.siteId, e.siteId = some site)

def activeRules (s : Store) (c : Call) : List CorrelationRule :=
  s.rules.filter fun r => decide (r.organizationId = c.organizationId ∧ r.status = .active)

/-- The events of a rule's own window. -/
def ruleEvents (s : Store) (c : Call) (rule : CorrelationRule) : List EventRecord :=
  (recentEvents s c).filter fun e => decide (c.now - seconds rule.timeWindowSeconds ≤ e.timestamp)

/-- What the two loops of `correlate` go through. -/
def groups (s : Store) (c : Call) : List Group :=
  (activeRules s c).flatMap fun rule =>
    (groupByScope (ruleEvents s c rule) rule.scope).map fun g => ⟨rule, g.1, g.2⟩

/-- `correlate` with `dry_run=False`. -/
def correlate (s : Store) (c : Call) : Except Failure (Store × Counts) :=
  correlateGroups py s (groups s c)

/-! ### The other calls -/

/-- `update_incident` with a status. -/
def updateIncident (s : Store) (id : Nat) (status : IncidentStatus) (now : Int) : Store :=
  { s with
    incidents := Table.update s.incidents id fun i =>
      if status = i.status then i
      else { i with
        status := status
        acknowledgedAt := if status = .investigating then some now else i.acknowledgedAt
        resolvedAt := if status = .resolved then some now
          else if status = .closed then i.resolvedAt.or (some now) else i.resolvedAt
        closedAt := if status = .closed then some now else i.closedAt } }

/-- The timestamp of the latest event linked to an incident. -/
def latestEvent (s : Store) (i : Incident) : Option Int :=
  ((s.links.filter fun l => decide (l.incidentId = i.id)).filterMap fun l =>
    (s.events.find? fun e => decide (e.id = l.eventId)).map (·.timestamp)).max?

/-- The incident is due for `auto_resolve_incidents`. -/
def isQuiet (s : Store) (organizationId : Uuid) (now : Int) (i : Incident) : Bool :=
  decide (i.organizationId = organizationId) && decide (i.status ∈ [.open_, .investigating]) &&
    (s.rules.find? fun r => decide (some r.id = i.ruleId)).any fun r =>
      r.autoResolveSeconds.any fun limit => decide (limit ≠ 0) &&
        (latestEvent s i).any fun latest => decide (seconds limit < now - latest)

/-- `auto_resolve_incidents`. -/
def autoResolveIncidents (s : Store) (organizationId : Uuid) (now : Int) : Store :=
  { s with
    incidents := s.incidents.map fun i =>
      if isQuiet s organizationId now i then { i with status := .resolved, resolvedAt := some now }
      else i }

/-! ### Steps -/

inductive Step
  | correlate (c : Call)
  | update (id : Nat) (status : IncidentStatus) (now : Int)
  | autoResolve (organizationId : Uuid) (now : Int)
  /-- An event arrives in the log. -/
  | observe (e : EventRecord)
  /-- The rules are edited; the incidents of a rule that is gone lose it. -/
  | configure (rules : List CorrelationRule)

/-- `ON DELETE SET NULL`: the incident loses a rule that is gone. -/
def Incident.detached (rules : List CorrelationRule) (i : Incident) : Incident :=
  if i.ruleId.any (fun id => decide (id ∈ rules.map (·.id))) then i else { i with ruleId := none }

/-- One step; the primary key refuses an event that is there already. -/
def step (s : Store) : Step → Option Store
  | .correlate c =>
    match correlate py s c with
    | .ok (next, _) => some next
    | .error _ => some s
  | .update id status now => some (updateIncident s id status now)
  | .autoResolve organizationId now => some (autoResolveIncidents s organizationId now)
  | .observe e =>
    if e.id ∈ s.events.map (·.id) then none else some { s with events := s.events ++ [e] }
  | .configure rules =>
    if (rules.map (·.id)).Nodup then
      some { s with rules := rules, incidents := s.incidents.map (Incident.detached rules) }
    else none

end FreeSdn.Correlation
