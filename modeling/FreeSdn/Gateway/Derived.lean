import FreeSdn.Gateway.Vlans
import FreeSdn.Lib.Run

/-! The canonical VLANs and what is derived from them (`services/canonical_service.py`): `create_vlan` writes
the DHCP scope and the address group of a VLAN, `update_vlan` and `delete_vlan` write the VLAN alone. -/

namespace FreeSdn.Gateway.Derived

open FreeSdn.Lib

/-! ### Rows -/

/-- A row of `gw_canonical_vlans`. -/
structure Vlan where
  id : Uuid
  organizationId : Uuid
  siteId : Uuid
  vlanId : Int
  name : String
  description : Option String
  subnet : String
  gatewayIp : String
  dhcpEnabled : Bool
  dhcpRangeStart : Option String
  dhcpRangeEnd : Option String
  dhcpLeaseTime : Int
  dhcpDnsServers : List String
  dhcpDomain : Option String
  purpose : String
  templateId : Option Uuid
  deletedAt : Option Int
  deriving DecidableEq

/-- A row of `gw_canonical_dhcp_scopes`. -/
structure Scope where
  id : Uuid
  organizationId : Uuid
  siteId : Uuid
  vlanId : Uuid
  rangeStart : String
  rangeEnd : String
  subnetMask : String
  gateway : String
  leaseTime : Int
  dnsServers : List String
  domainName : Option String
  deriving DecidableEq

/-- A row of `gw_canonical_address_groups`. -/
structure AddressGroup where
  id : Uuid
  organizationId : Uuid
  siteId : Uuid
  name : String
  description : Option String
  groupType : String
  members : List String
  autoGenerated : Bool
  sourceVlanId : Option Uuid
  deriving DecidableEq

/-- The three tables, with their primary key and foreign keys. -/
structure Tables where
  vlans : List Vlan
  scopes : List Scope
  groups : List AddressGroup
  distinct : (vlans.map Vlan.id).Nodup
  scopeOwner : ∀ s ∈ scopes, s.vlanId ∈ vlans.map Vlan.id
  groupSource : ∀ g ∈ groups, ∀ id, g.sourceVlanId = some id → id ∈ vlans.map Vlan.id

def Tables.empty : Tables := ⟨[], [], [], by simp, by simp, by simp⟩

/-- What the service takes from its surroundings. -/
structure Surroundings where
  /-- The site is one of the organization. -/
  siteInOrg : Uuid → Uuid → Bool
  /-- `_subnet_to_mask`, nothing when `ip_network` raises. -/
  subnetToMask : String → Option String
  /-- The columns hold the row and those derived from it. -/
  accepts : Vlan → Bool

inductive Refusal
  | siteNotInOrg | conflict | notFound | invalidSubnet | rejected
  deriving DecidableEq

/-! ### Operations -/

/-- A text that counts as set. -/
def isSet (text : Option String) : Bool := text.any (· ≠ "")

/-- DHCP has both ends of its range. -/
def Vlan.ranged (v : Vlan) : Bool := isSet v.dhcpRangeStart && isSet v.dhcpRangeEnd

/-- The fields of a new VLAN; nothing stands for a field that is not given. -/
structure Fields where
  siteId : Uuid
  vlanId : Int
  name : String
  description : Option String
  subnet : String
  gatewayIp : String
  dhcpEnabled : Option Bool
  dhcpRangeStart : Option String
  dhcpRangeEnd : Option String
  dhcpLeaseTime : Option Int
  dhcpDnsServers : Option (List String)
  dhcpDomain : Option String
  purpose : Option String
  templateId : Option Uuid

def Fields.vlan (f : Fields) (org id : Uuid) : Vlan where
  id := id
  organizationId := org
  siteId := f.siteId
  vlanId := f.vlanId
  name := f.name
  description := f.description
  subnet := f.subnet
  gatewayIp := f.gatewayIp
  dhcpEnabled := f.dhcpEnabled.getD true
  dhcpRangeStart := f.dhcpRangeStart
  dhcpRangeEnd := f.dhcpRangeEnd
  dhcpLeaseTime := f.dhcpLeaseTime.getD 86400
  dhcpDnsServers := f.dhcpDnsServers.getD []
  dhcpDomain := f.dhcpDomain
  purpose := f.purpose.getD "general"
  templateId := f.templateId
  deletedAt := none

/-- The scope of a new VLAN. -/
def Vlan.scope (v : Vlan) (id : Uuid) (mask : String) : Scope where
  id := id
  organizationId := v.organizationId
  siteId := v.siteId
  vlanId := v.id
  rangeStart := v.dhcpRangeStart.getD ""
  rangeEnd := v.dhcpRangeEnd.getD ""
  subnetMask := mask
  gateway := v.gatewayIp
  leaseTime := v.dhcpLeaseTime
  dnsServers := v.dhcpDnsServers
  domainName := v.dhcpDomain

/-- The address group of a new VLAN. -/
def Vlan.group (v : Vlan) (id : Uuid) : AddressGroup where
  id := id
  organizationId := v.organizationId
  siteId := v.siteId
  name := "FreeSdn_VLAN" ++ toString v.vlanId ++ "_net"
  description := some ("[FreeSdn:managed] " ++ v.name ++ " subnet")
  groupType := "network"
  members := [v.subnet]
  autoGenerated := true
  sourceVlanId := some v.id

/-- The fields that `update_vlan` sets; nothing stands for a field that is not given or `None`. -/
structure Update where
  name : Option String
  description : Option String
  subnet : Option String
  gatewayIp : Option String
  dhcpEnabled : Option Bool
  dhcpRangeStart : Option String
  dhcpRangeEnd : Option String
  dhcpLeaseTime : Option Int
  dhcpDnsServers : Option (List String)
  dhcpDomain : Option String
  purpose : Option String

/-- The `setattr` loop. -/
def Vlan.updated (v : Vlan) (u : Update) : Vlan :=
  { v with
    name := u.name.getD v.name
    description := u.description.or v.description
    subnet := u.subnet.getD v.subnet
    gatewayIp := u.gatewayIp.getD v.gatewayIp
    dhcpEnabled := u.dhcpEnabled.getD v.dhcpEnabled
    dhcpRangeStart := u.dhcpRangeStart.or v.dhcpRangeStart
    dhcpRangeEnd := u.dhcpRangeEnd.or v.dhcpRangeEnd
    dhcpLeaseTime := u.dhcpLeaseTime.getD v.dhcpLeaseTime
    dhcpDnsServers := u.dhcpDnsServers.getD v.dhcpDnsServers
    dhcpDomain := u.dhcpDomain.or v.dhcpDomain
    purpose := u.purpose.getD v.purpose }

/-- Who calls: the organization asked for, and the sites that the user may access. -/
structure Caller where
  orgId : Option Uuid
  mayAccess : Uuid → Bool

/-- `get_vlan`; `none` is `VLANNotFoundError`. -/
def getVlan (t : Tables) (caller : Caller) (id : Uuid) : Option Vlan :=
  t.vlans.find? fun v => v.id = id && v.deletedAt.isNone &&
    caller.orgId.all (· = v.organizationId) && caller.mayAccess v.siteId

theorem getVlan_some {t : Tables} {caller : Caller} {id : Uuid} {v : Vlan}
    (h : getVlan t caller id = some v) : v ∈ t.vlans ∧ v.id = id ∧ v.deletedAt = none := by
  have found := List.find?_some h
  simp only [Bool.and_eq_true, decide_eq_true_eq, Option.isNone_iff_eq_none] at found
  exact ⟨List.mem_of_find?_eq_some h, found.1.1.1, found.1.1.2⟩

/-- A VLAN in the place of the one with its identifier. -/
def replaced (vlans : List Vlan) (v : Vlan) : List Vlan :=
  vlans.map fun w => if w.id = v.id then v else w

theorem ids_replaced (vlans : List Vlan) (v : Vlan) :
    (replaced vlans v).map Vlan.id = vlans.map Vlan.id := by
  rw [replaced, List.map_map]
  refine List.map_congr_left ?_
  intro w _
  simp only [Function.comp_apply]
  split <;> simp_all

def Tables.replace (t : Tables) (v : Vlan) : Tables where
  vlans := replaced t.vlans v
  scopes := t.scopes
  groups := t.groups
  distinct := by rw [ids_replaced]; exact t.distinct
  scopeOwner := by rw [ids_replaced]; exact t.scopeOwner
  groupSource := by rw [ids_replaced]; exact t.groupSource

/-- A VLAN with a new identifier, its scope if it has one, and its group. -/
def Tables.insert (t : Tables) (v : Vlan) (scope : Option Scope) (group : AddressGroup)
    (fresh : v.id ∉ t.vlans.map Vlan.id) (scopeOf : ∀ s ∈ scope, s.vlanId = v.id)
    (groupOf : group.sourceVlanId = some v.id) : Tables where
  vlans := t.vlans ++ [v]
  scopes := t.scopes ++ scope.toList
  groups := t.groups ++ [group]
  distinct := by
    rw [List.map_append, List.nodup_append]
    refine ⟨t.distinct, by simp, ?_⟩
    rintro a known b new rfl
    simp only [List.map_cons, List.map_nil, List.mem_singleton] at new
    exact fresh (new ▸ known)
  scopeOwner := by
    intro s mem
    rw [List.map_append, List.mem_append]
    rcases List.mem_append.mp mem with old | new
    · exact Or.inl (t.scopeOwner s old)
    · exact Or.inr (by simp [scopeOf s (by simpa using new)])
  groupSource := by
    intro g mem id source
    rw [List.map_append, List.mem_append]
    rcases List.mem_append.mp mem with old | new
    · exact Or.inl (t.groupSource g old id source)
    · obtain rfl := List.mem_singleton.mp new
      obtain rfl := Option.some.inj (groupOf.symm.trans source)
      exact Or.inr (by simp)

section

variable (env : Surroundings)

/-- The scope that `create_vlan` adds, if DHCP is enabled and has its range. -/
def newScope (v : Vlan) (id : Uuid) : Except Refusal (Option Scope) :=
  if v.dhcpEnabled && v.ranged then
    match env.subnetToMask v.subnet with
    | some mask => .ok (some (v.scope id mask))
    | none => .error .invalidSubnet
  else .ok none

theorem newScope_owner {v : Vlan} {id : Uuid} {scope : Option Scope}
    (h : newScope env v id = .ok scope) : ∀ s ∈ scope, s.vlanId = v.id := by
  unfold newScope at h
  split at h
  · split at h
    · obtain rfl := Except.ok.inj h
      rintro s mem
      obtain rfl := Option.some.inj mem
      rfl
    · cases h
  · obtain rfl := Except.ok.inj h
    simp

/-- `create_vlan`, with the identifiers that the new rows get. -/
def createVlan (t : Tables) (org id scopeId groupId : Uuid) (f : Fields) : Except Refusal Tables :=
  let v := f.vlan org id
  if !env.siteInOrg f.siteId org then .error .siteNotInOrg
  else if t.vlans.any fun w => w.organizationId = org && w.siteId = f.siteId &&
      w.vlanId = f.vlanId && w.deletedAt.isNone then .error .conflict
  else if h : v.id ∉ t.vlans.map Vlan.id then
    -- the unique constraint also sees the deleted rows
    if (t.vlans.any fun w => w.siteId = f.siteId && w.vlanId = f.vlanId) || !env.accepts v then
      .error .rejected
    else
      match scope : newScope env v scopeId with
      | .ok new => .ok (t.insert v new (v.group groupId) h (newScope_owner env scope) rfl)
      | .error refusal => .error refusal
  else .error .rejected

/-- `update_vlan`. -/
def updateVlan (t : Tables) (caller : Caller) (id : Uuid) (u : Update) : Except Refusal Tables :=
  match getVlan t caller id with
  | none => .error .notFound
  | some v => if env.accepts (v.updated u) then .ok (t.replace (v.updated u)) else .error .rejected

/-- `delete_vlan`, at the time `now`. -/
def deleteVlan (t : Tables) (caller : Caller) (id : Uuid) (now : Int) : Except Refusal Tables :=
  match getVlan t caller id with
  | none => .error .notFound
  | some v => .ok (t.replace { v with deletedAt := some now })

inductive Op
  | create (org id scopeId groupId : Uuid) (f : Fields)
  | update (caller : Caller) (id : Uuid) (u : Update)
  | delete (caller : Caller) (id : Uuid) (now : Int)

def perform (t : Tables) : Op → Except Refusal Tables
  | .create org id scopeId groupId f => createVlan env t org id scopeId groupId f
  | .update caller id u => updateVlan env t caller id u
  | .delete caller id now => deleteVlan t caller id now

/-- The tables behind a request: a refused one is rolled back. -/
def apply (t : Tables) (op : Op) : Tables :=
  match perform env t op with
  | .ok t => t
  | .error _ => t

/-! ### What is derived -/

/-- The scopes of a VLAN. -/
def scopesOf (t : Tables) (id : Uuid) : List Scope := t.scopes.filter fun s => s.vlanId = id

/-- The groups that were generated for a VLAN. -/
def groupsOf (t : Tables) (id : Uuid) : List AddressGroup :=
  t.groups.filter fun g => g.autoGenerated && g.sourceVlanId = some id

/-- The scope has the values of the VLAN. -/
def Serves (s : Scope) (v : Vlan) : Prop :=
  some s.rangeStart = v.dhcpRangeStart ∧ some s.rangeEnd = v.dhcpRangeEnd ∧
    some s.subnetMask = env.subnetToMask v.subnet ∧ s.gateway = v.gatewayIp ∧
    s.leaseTime = v.dhcpLeaseTime ∧ s.dnsServers = v.dhcpDnsServers ∧ s.domainName = v.dhcpDomain

/-- The scopes are those that the VLAN asks for: one with its values, or none where DHCP is off.  With
half a range it asks for nothing. -/
def Fits (scopes : List Scope) (v : Vlan) : Prop :=
  if v.dhcpEnabled then v.ranged = true → ∃ s, scopes = [s] ∧ Serves env s v else scopes = []

/-- What is derived from a VLAN follows it. -/
def Followed (t : Tables) (v : Vlan) : Prop :=
  if v.deletedAt = none then
    (groupsOf t v.id).map AddressGroup.members = [[v.subnet]] ∧ Fits env (scopesOf t v.id) v
  else groupsOf t v.id = [] ∧ scopesOf t v.id = []

/-- The derived rows follow their VLANs. -/
def Follows (t : Tables) : Prop := ∀ v ∈ t.vlans, Followed env t v

/-- The request leaves the derived rows behind no VLAN: an update keeps the subnet and fits the scopes
that the VLAN has, and nothing is deleted. -/
def Harmless (t : Tables) : Op → Prop
  | .create .. => True
  | .update caller id u => ∀ v, getVlan t caller id = some v → env.accepts (v.updated u) = true →
      (v.updated u).subnet = v.subnet ∧ Fits env (scopesOf t v.id) (v.updated u)
  | .delete caller id _ => getVlan t caller id = none

variable {env}

theorem isSet_some {text : Option String} (h : isSet text = true) : some (text.getD "") = text := by
  cases text with
  | none => simp [isSet] at h
  | some s => rfl

theorem newScope_fits {v : Vlan} {id : Uuid} {scope : Option Scope}
    (h : newScope env v id = .ok scope) : Fits env scope.toList v := by
  unfold newScope at h
  unfold Fits
  split at h
  · rename_i on
    simp only [Bool.and_eq_true] at on
    split at h
    · rename_i mask known
      obtain rfl := Except.ok.inj h
      have ends := on.2
      simp only [Vlan.ranged, Bool.and_eq_true] at ends
      rw [if_pos on.1]
      refine fun _ => ⟨v.scope id mask, rfl, ?_⟩
      exact ⟨isSet_some ends.1, isSet_some ends.2, known.symm, rfl, rfl, rfl, rfl⟩
    · cases h
  · rename_i off
    obtain rfl := Except.ok.inj h
    split
    · rename_i on
      exact fun ranged => absurd (by simp [on, ranged]) off
    · rfl

/-! ### One request -/

/-- Nothing refers to an identifier that no VLAN has. -/
theorem scopesOf_fresh {t : Tables} {id : Uuid} (fresh : id ∉ t.vlans.map Vlan.id) :
    scopesOf t id = [] := by
  refine List.filter_eq_nil_iff.mpr ?_
  intro s mem same
  exact fresh (of_decide_eq_true same ▸ t.scopeOwner s mem)

theorem groupsOf_fresh {t : Tables} {id : Uuid} (fresh : id ∉ t.vlans.map Vlan.id) :
    groupsOf t id = [] := by
  refine List.filter_eq_nil_iff.mpr ?_
  intro g mem same
  simp only [Bool.and_eq_true, decide_eq_true_eq] at same
  exact fresh (t.groupSource g mem id same.2)

theorem insert_follows {t : Tables} {v : Vlan} {scope : Option Scope} {groupId : Uuid}
    (follows : Follows env t) (live : v.deletedAt = none) (fresh : v.id ∉ t.vlans.map Vlan.id)
    (owner : ∀ s ∈ scope, s.vlanId = v.id) (fits : Fits env scope.toList v) :
    Follows env (t.insert v scope (v.group groupId) fresh owner rfl) := by
  have scopes (id : Uuid) : scopesOf (t.insert v scope (v.group groupId) fresh owner rfl) id =
      scopesOf t id ++ if v.id = id then scope.toList else [] := by
    unfold scopesOf Tables.insert
    rw [List.filter_append]
    congr 1
    cases scope with
    | none => simp
    | some s =>
      rw [← owner s rfl]
      by_cases same : s.vlanId = id <;> simp [same]
  have groups (id : Uuid) : groupsOf (t.insert v scope (v.group groupId) fresh owner rfl) id =
      groupsOf t id ++ if v.id = id then [v.group groupId] else [] := by
    unfold groupsOf Tables.insert
    rw [List.filter_append]
    congr 1
    by_cases same : v.id = id <;> simp [Vlan.group, same]
  intro w mem
  unfold Followed
  rw [scopes, groups]
  rcases List.mem_append.mp mem with old | new
  · have other : v.id ≠ w.id := fun same => fresh (same ▸ List.mem_map_of_mem old)
    have before := follows w old
    unfold Followed at before
    simpa [other] using before
  · obtain rfl := List.mem_singleton.mp new
    rw [if_pos live, scopesOf_fresh fresh, groupsOf_fresh fresh]
    simpa [Vlan.group] using fits

theorem replace_follows {t : Tables} {v w : Vlan} (follows : Follows env t) (mem : v ∈ t.vlans)
    (same : w.id = v.id) : Follows env (t.replace w) ↔ Followed env t w := by
  have keeps (u : Vlan) : Followed env (t.replace w) u ↔ Followed env t u := Iff.rfl
  constructor
  · intro after
    have inside : w ∈ (t.replace w).vlans :=
      List.mem_map.mpr ⟨v, mem, by simp [same]⟩
    exact (keeps w).mp (after w inside)
  · intro here u inside
    obtain ⟨x, old, rfl⟩ := List.mem_map.mp inside
    rw [keeps]
    split
    · exact here
    · exact follows x old

/-- One request: the derived rows still follow exactly when it is harmless. -/
theorem apply_follows (t : Tables) (op : Op) (follows : Follows env t) :
    Follows env (apply env t op) ↔ Harmless env t op := by
  cases op with
  | create org id scopeId groupId f =>
    refine iff_of_true ?_ trivial
    simp only [apply, perform, createVlan]
    split
    · rename_i t' done
      split at done
      · cases done
      split at done
      · cases done
      split at done
      · split at done
        · cases done
        split at done
        · rename_i new made
          obtain rfl := Except.ok.inj done
          exact insert_follows follows rfl _ _ (newScope_fits made)
        · cases done
      · cases done
    · exact follows
  | update caller id u =>
    simp only [apply, perform, updateVlan, Harmless]
    cases found : getVlan t caller id with
    | none => simpa using follows
    | some v =>
      obtain ⟨mem, rfl, live⟩ := getVlan_some found
      have before := follows v mem
      unfold Followed at before
      rw [if_pos live] at before
      by_cases accepted : env.accepts (v.updated u) = true
      · have updated : (v.updated u).deletedAt = none := live
        simp only [accepted, if_true, Option.some.injEq, forall_eq', true_imp_iff]
        rw [replace_follows (w := v.updated u) follows mem rfl, Followed, if_pos updated]
        refine and_congr_left fun _ => ?_
        rw [show (v.updated u).id = v.id from rfl, before.1]
        simp [eq_comm]
      · simpa [accepted] using follows
  | delete caller id now =>
    simp only [apply, perform, deleteVlan, Harmless]
    cases found : getVlan t caller id with
    | none => simpa using follows
    | some v =>
      obtain ⟨mem, rfl, live⟩ := getVlan_some found
      have before := follows v mem
      unfold Followed at before
      rw [if_pos live] at before
      refine iff_of_false ?_ (by simp)
      intro after
      have gone := (replace_follows (w := { v with deletedAt := some now }) follows mem rfl).mp after
      rw [Followed, if_neg (by simp)] at gone
      have none_left : groupsOf t v.id = [] := gone.1
      simp [none_left] at before

/-! ### Runs -/

variable (env)

/-- The tables behind a sequence of requests, from empty tables. -/
def run (ops : List Op) : Tables := ops.foldl (apply env) .empty

theorem empty_follows : Follows env .empty := by
  intro v mem
  simp [Tables.empty] at mem

/-- In every state of a run the derived rows follow their VLANs, exactly if every request of the run is
harmless where it is made. -/
theorem derived_follows_iff (ops : List Op) :
    (∀ before, before <+: ops → Follows env (run env before)) ↔
      ∀ before op, before ++ [op] <+: ops → Harmless env (run env before) op :=
  always_iff apply_follows (empty_follows env) ops

end

/-! ### A changed subnet -/

/-- A site with one organization, and IPv4 masks of 24 bits. -/
def branch : Surroundings where
  siteInOrg _ _ := true
  subnetToMask _ := some "255.255.255.0"
  accepts _ := true

def guestVlan : Op := .create "org" "vlan" "scope" "group"
  { siteId := "site", vlanId := 30, name := "Guest", description := none, subnet := "10.30.0.0/24"
    gatewayIp := "10.30.0.1", dhcpEnabled := none, dhcpRangeStart := some "10.30.0.100"
    dhcpRangeEnd := some "10.30.0.200", dhcpLeaseTime := none, dhcpDnsServers := none
    dhcpDomain := none, purpose := none, templateId := none }

def renumbered : Op := .update ⟨some "org", fun _ => true⟩ "vlan"
  { name := none, description := none, subnet := some "10.31.0.0/24", gatewayIp := some "10.31.0.1"
    dhcpEnabled := none, dhcpRangeStart := some "10.31.0.100", dhcpRangeEnd := some "10.31.0.200"
    dhcpLeaseTime := none, dhcpDnsServers := none, dhcpDomain := none, purpose := none }

/-- A VLAN moves to another subnet: its address group and its scope keep the old one. -/
theorem renumbered_left_behind : ¬ ∀ ops before, before <+: ops → Follows branch (run branch before) := by
  intro always
  have harmless := (apply_follows (run branch [guestVlan]) renumbered
    (always [guestVlan] [guestVlan] (List.prefix_refl _))).mp
      (always [guestVlan, renumbered] [guestVlan, renumbered] (List.prefix_refl _))
  have changed := (harmless _ rfl rfl).1
  exact absurd changed (by decide)

end FreeSdn.Gateway.Derived
