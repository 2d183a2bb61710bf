import FreeSdn.Gateway.Execution
import FreeSdn.Gateway.Retraction

/-! The check of the brain's DHCP scopes (`_check_brain_dhcp` of `services/drift_service.py`): the canonical
scopes of managed VLANs against the interfaces on which the brain has an enabled scope. -/

namespace FreeSdn.Gateway

open FreeSdn.Lib
open FreeSdn.Staging (get truthy)

/-! ### Scopes and events -/

/-- A row of `gw_canonical_dhcp_scopes`, with the columns that the check reads. -/
structure DhcpScope where
  id : Uuid
  organizationId : Uuid
  siteId : Uuid
  vlanId : Uuid
  rangeStart : String
  rangeEnd : String

structure DriftEvent where
  organizationId : Uuid
  siteId : Uuid
  deviceId : Uuid
  driftType : String
  resourceType : String
  resourceId : Uuid
  expectedValue : Dict
  actualValue : Json
  severity : String
  message : String

/-- What a method of the brain's adapter comes to; not every adapter has each method. -/
inductive Reading
  | absent
  | raised (e : Raised)
  | result (success : Bool) (data : Json)

/-- What the check gets from the brain: its adapter, its leases and its scopes. -/
structure BrainReading where
  session : Session
  leases : Reading
  scopes : Reading

/-! ### The interfaces of the brain -/

def hashable : Json → Bool
  | .arr _ => false
  | .obj _ => false
  | _ => true

/-- The interface of a scope that is enabled. -/
def scopeInterface (s : Json) : Except Raised (Option Json) := do
  let scope ← fieldsOf s
  let interface := (get scope "interface").getD (.str "")
  if truthy ((get scope "enabled").getD .null) && truthy interface then
    if hashable interface then .ok (some interface)
    else .error ⟨"TypeError", "unhashable type: '" ++ typeName interface ++ "'"⟩
  else .ok none

/-- The set of the interfaces with an enabled scope, here in the order of the scopes. -/
def enabledInterfaces (data : Json) : Except Raised (List Json) :=
  if truthy data then do
    let members ← fieldsOf data
    let scopes ← elements ((get members "scopes").getD (.arr []))
    let interfaces ← scopes.mapM scopeInterface
    .ok (interfaces.filterMap id)
  else .ok []

def deviceInterfaces : Reading → Except Raised (List Json)
  | .absent => .ok []
  | .raised e => .error e
  | .result true data => enabledInterfaces data
  | .result false _ => .ok []

/-- The interfaces with an enabled scope; `none` where the check ends before it compares. -/
def probe (reading : BrainReading) : Except Raised (Option (List Json)) :=
  match reading.session with
  | .broken e => .error e
  | .unreachable e => .error e
  | .connected =>
    match reading.leases with
    | .absent => .ok none
    | .raised e => .error e
    | .result false _ => .ok none
    | .result true _ => (deviceInterfaces reading.scopes).map some

/-! ### The check -/

/-- `_get_brain_gw`: the brain, if its gateway is there. -/
def brainGateway (m : RoleMap) (gateways : Uuid → Bool) : Option Assignment :=
  m.brain.filter fun a => (a.gatewayId.map gateways).getD false

/-- The canonical scopes of the site. -/
def siteScopes (m : RoleMap) (org : Uuid) (scopes : List DhcpScope) : List DhcpScope :=
  scopes.filter fun cs => cs.organizationId = org && cs.siteId = m.siteId

/-- The managed VLAN of a scope, by its primary key. -/
def managedVlan (t : Table) (cs : DhcpScope) : Option Vlan :=
  t.rows.find? fun v => v.id = cs.vlanId && !v.deleted && v.managementState = "managed"

def isText (text : String) : Json → Bool
  | .str s => s = text
  | _ => false

def scopeMissing (brain : Assignment) (vlan : Vlan) (cs : DhcpScope) : DriftEvent where
  organizationId := cs.organizationId
  siteId := cs.siteId
  deviceId := brain.gatewayId.getD ""
  driftType := "resource_missing"
  resourceType := "dhcp_scope"
  resourceId := cs.id
  expectedValue := [("interface", .str vlan.interface), ("range_start", .str cs.rangeStart),
    ("range_end", .str cs.rangeEnd)]
  actualValue := .null
  severity := "warning"
  message := "DHCP scope for " ++ vlan.interface ++ " (" ++ cs.rangeStart ++ "-" ++ cs.rangeEnd ++
    ") missing on brain device"

/-- The comparison of one canonical scope; no scope is missing from an empty set. -/
def checkScope (brain : Assignment) (t : Table) (interfaces : List Json) (cs : DhcpScope) :
    Option DriftEvent :=
  match managedVlan t cs with
  | none => none
  | some vlan =>
    if !interfaces.isEmpty && !interfaces.any (isText vlan.interface) then
      some (scopeMissing brain vlan cs)
    else none

/-- `_check_brain_dhcp`. An error after the adapter was built ends the check without events. -/
def checkBrainDhcp (m : RoleMap) (org : Uuid) (gateways : Uuid → Bool) (scopes : List DhcpScope)
    (t : Table) (reading : BrainReading) : Except Raised (List DriftEvent) :=
  match brainGateway m gateways with
  | none => .ok []
  | some brain =>
    match siteScopes m org scopes with
    | [] => .ok []
    | canonicalScopes =>
      match reading.session, probe reading with
      | .broken e, _ => .error e
      | _, .error _ => .ok []
      | _, .ok none => .ok []
      | _, .ok (some interfaces) => .ok (canonicalScopes.filterMap (checkScope brain t interfaces))

/-! ### Two answers -/

variable {m : RoleMap} {org : Uuid} {gateways : Uuid → Bool} {scopes : List DhcpScope} {t : Table}
  {brain : Assignment} {reading less more : BrainReading} {interfaces lost kept : List Json}

/-- The brain answers with success and has enabled scopes on these interfaces. -/
def Answers (reading : BrainReading) (interfaces : List Json) : Prop :=
  reading.session = .connected ∧ (∃ leases, reading.leases = .result true leases) ∧
    ∃ data, reading.scopes = .result true data ∧ enabledInterfaces data = .ok interfaces

/-- The events for the canonical scopes of managed VLANs whose interface has no enabled scope. -/
def missingScopes (m : RoleMap) (org : Uuid) (scopes : List DhcpScope) (t : Table)
    (brain : Assignment) (interfaces : List Json) : List DriftEvent :=
  (siteScopes m org scopes).filterMap fun cs =>
    (managedVlan t cs).bind fun vlan =>
      if interfaces.any (isText vlan.interface) then none else some (scopeMissing brain vlan cs)

/-- Every event under the answer with more interfaces is one under the other, and under each answer the
events are those of the scopes that are missing. -/
def DriftMonotone (m : RoleMap) (org : Uuid) (gateways : Uuid → Bool) (scopes : List DhcpScope)
    (t : Table) (brain : Assignment) (less more : BrainReading) (lost kept : List Json) : Prop :=
  ∃ events events', checkBrainDhcp m org gateways scopes t less = .ok events ∧
    checkBrainDhcp m org gateways scopes t more = .ok events' ∧ events' ⊆ events ∧
    events = missingScopes m org scopes t brain lost ∧
    events' = missingScopes m org scopes t brain kept

theorem check_answers (org : Uuid) (scopes : List DhcpScope) (t : Table)
    (found : brainGateway m gateways = some brain)
    (answers : Answers reading interfaces) :
    checkBrainDhcp m org gateways scopes t reading =
      .ok ((siteScopes m org scopes).filterMap (checkScope brain t interfaces)) := by
  obtain ⟨connected, ⟨leases, leased⟩, data, listed, enabled⟩ := answers
  have probed : probe reading = .ok (some interfaces) := by
    unfold probe
    rw [connected, leased, listed]
    simp only [deviceInterfaces, enabled]
    rfl
  unfold checkBrainDhcp
  rw [found]
  cases siteScopes m org scopes with
  | nil => rfl
  | cons cs rest => rw [connected, probed]

/-- With an enabled scope left, the check reports the missing scopes. -/
theorem checkScope_some (some : interfaces ≠ []) :
    (siteScopes m org scopes).filterMap (checkScope brain t interfaces) =
      missingScopes m org scopes t brain interfaces := by
  refine List.filterMap_congr fun cs _ => ?_
  unfold checkScope
  have left : interfaces.isEmpty = false := by simpa using some
  cases managedVlan t cs with
  | none => rfl
  | some vlan =>
    simp only [left, Bool.not_false, Bool.true_and, Option.bind_some]
    cases interfaces.any (isText vlan.interface) <;> rfl

theorem checkScope_none :
    (siteScopes m org scopes).filterMap (checkScope brain t []) = [] := by
  refine List.filterMap_eq_nil_iff.mpr fun cs _ => ?_
  unfold checkScope
  cases managedVlan t cs <;> rfl

/-- An interface that is lost loses nothing but events of its own. -/
theorem missingScopes_subset (sub : lost ⊆ kept) :
    missingScopes m org scopes t brain kept ⊆ missingScopes m org scopes t brain lost := by
  intro event mem
  obtain ⟨cs, site, same⟩ := List.mem_filterMap.mp mem
  refine List.mem_filterMap.mpr ⟨cs, site, ?_⟩
  obtain ⟨vlan, managed, absent⟩ := Option.bind_eq_some_iff.mp same
  rw [managed, Option.bind_some]
  split at absent
  · cases absent
  · rename_i none
    rw [if_neg, absent]
    rw [List.any_eq_true] at none ⊢
    exact fun ⟨i, here, text⟩ => none ⟨i, sub here, text⟩

/-- The check is monotone in the interfaces and reports the missing scopes, exactly when an interface is
left or no canonical scope has a managed VLAN. -/
theorem dhcp_monotone_iff (found : brainGateway m gateways = some brain) (sub : lost ⊆ kept)
    (answersLess : Answers less lost) (answersMore : Answers more kept) :
    DriftMonotone m org gateways scopes t brain less more lost kept ↔
      lost ≠ [] ∨ ∀ cs ∈ siteScopes m org scopes, managedVlan t cs = none := by
  have first := check_answers org scopes t found answersLess
  have second := check_answers org scopes t found answersMore
  constructor
  · rintro ⟨events, events', checked, -, -, exact, -⟩
    by_contra none
    push Not at none
    obtain ⟨empty, cs, site, managed⟩ := none
    subst empty
    obtain ⟨vlan, managed⟩ := Option.ne_none_iff_exists'.mp managed
    rw [checkScope_none, checked] at first
    rw [Except.ok.inj first] at exact
    -- The scope of the managed VLAN is missing and is not reported.
    have missing : scopeMissing brain vlan cs ∈ missingScopes m org scopes t brain [] :=
      List.mem_filterMap.mpr ⟨cs, site, by rw [managed]; rfl⟩
    rw [← exact] at missing
    exact List.not_mem_nil missing
  · intro condition
    have exact : ∀ interfaces, lost ⊆ interfaces →
        (siteScopes m org scopes).filterMap (checkScope brain t interfaces) =
          missingScopes m org scopes t brain interfaces := by
      intro interfaces sub
      rcases condition with left | unmanaged
      · exact checkScope_some fun empty => left (List.eq_nil_of_subset_nil (empty ▸ sub))
      · refine List.filterMap_congr fun cs site => ?_
        rw [checkScope, unmanaged cs site]
        rfl
    refine ⟨_, _, first, second, ?_, exact lost (List.Subset.refl lost), exact kept sub⟩
    rw [exact lost (List.Subset.refl lost), exact kept sub]
    exact missingScopes_subset sub

def lanScope : DhcpScope := ⟨"scope", "org", "site", "vlan", "10.0.10.100", "10.0.10.200"⟩

/-- The brain answers with these scopes. -/
def scopesAnswer (scopes : List Json) : BrainReading :=
  ⟨.connected, .result true (.arr []), .result true (.obj [("scopes", .arr scopes)])⟩

def enabledScope (interface : String) : Json :=
  .obj [("interface", .str interface), ("enabled", .bool true)]

theorem dhcp_monotone_left :
    DriftMonotone ⟨"site", [router]⟩ "org" (fun _ => true) [lanScope] ⟨[lanVlan], by decide⟩ router
      (scopesAnswer [enabledScope "vlan20"])
      (scopesAnswer [enabledScope "vlan20", enabledScope "vlan10"])
      [.str "vlan20"] [.str "vlan20", .str "vlan10"] :=
  (dhcp_monotone_iff rfl (List.subset_def.mpr fun h => List.mem_cons.mpr (.inl (List.mem_singleton.mp h)))
    ⟨rfl, ⟨_, rfl⟩, _, rfl, rfl⟩ ⟨rfl, ⟨_, rfl⟩, _, rfl, rfl⟩).mpr (.inl (List.cons_ne_nil _ _))

/-- The last enabled scope is lost, which the check does not report. -/
theorem last_scope_unreported :
    ¬ DriftMonotone ⟨"site", [router]⟩ "org" (fun _ => true) [lanScope] ⟨[lanVlan], by decide⟩ router
      (scopesAnswer []) (scopesAnswer [enabledScope "vlan10"]) [] [.str "vlan10"] := by
  rintro ⟨events, events', checked, -, -, exact, -⟩
  have quiet : checkBrainDhcp ⟨"site", [router]⟩ "org" (fun _ => true) [lanScope]
      ⟨[lanVlan], by decide⟩ (scopesAnswer []) = .ok [] := rfl
  have missing : missingScopes ⟨"site", [router]⟩ "org" [lanScope] ⟨[lanVlan], by decide⟩ router [] =
      [scopeMissing router lanVlan lanScope] := rfl
  rw [quiet] at checked
  rw [missing, ← Except.ok.inj checked] at exact
  cases exact

end FreeSdn.Gateway
