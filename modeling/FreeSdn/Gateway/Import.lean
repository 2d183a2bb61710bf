import FreeSdn.Gateway.Vlans
import FreeSdn.Lib.Dictionary
import FreeSdn.Lib.Except

/-! The import of the brain's VLANs (`import_from_brain` of `services/reconciliation_service.py`): one
pass over the reported entries, which compares each with the canonical VLAN of its id and updates
or creates it, and the flush of what was written. -/

namespace FreeSdn.Gateway

open FreeSdn.Lib
open FreeSdn.Staging (get truthy)

/-- `vlan_data`. -/
structure VlanData where
  vlanId : Int
  name : String
  subnet : String
  gatewayIp : String
  externalId : String
  deriving DecidableEq

/-- A canonical VLAN that the brain did not report. -/
structure Orphan where
  canonicalVlanUuid : Uuid
  vlanId : Int
  name : String
  subnet : String
  deriving DecidableEq

/-- `ImportResult`. -/
structure ImportResult where
  created : Nat
  updated : Nat
  unchanged : Nat
  errors : List String
  vlans : List VlanData
  orphaned : List Orphan
  deriving DecidableEq

def ImportResult.failed (error : String) : ImportResult := ⟨0, 0, 0, [error], [], []⟩

/-- What the import depends on: the site's role map and organization, the conversions, what the
brain answers, what the database stores in the columns of a row, and the identifiers it gives to
new rows. -/
structure Site where
  roleMap : RoleMap
  org : Uuid
  py : Python
  accepts : Vlan → Bool
  newId : Int → Uuid

variable (s : Site)

/-! ### Entries -/

/-- The truncated text of the first true value. -/
def textOf (d : Dict) (keys : List String) (default : String) : String :=
  let v := firstTrue d keys
  if truthy v then toStr s.py v else default

/-- One entry; `none` for an entry without an id, which is passed over. -/
def readEntry (d : Dict) : Except Raised (Option VlanData) :=
  match firstTrue d vlanIdKeys with
  | .null => .ok none
  | v =>
    match toInt s.py v with
    | .invalid => .ok none
    | .overflow => .error ⟨"OverflowError", "cannot convert float infinity to integer"⟩
    | .number n => .ok (some {
        vlanId := n
        name := truncate 64 (textOf s d ["name", "description"] ("VLAN " ++ toStr s.py (.int n)))
        subnet := truncate 18 (textOf s d ["subnet", "ipv4_address"] "")
        gatewayIp := truncate 45 (textOf s d ["gateway", "ipv4_address"] "")
        externalId := textOf s d ["external_id", "if", "interface"] "" })

/-- The entries that have an id, in order. -/
def readEntries (entries : List Dict) : Except Raised (List VlanData) := do
  let read ← entries.mapM (readEntry s)
  .ok (read.filterMap id)

/-! ### The loop -/

/-- The comparison of a canonical VLAN with an entry. -/
def changed (v : Vlan) (x : VlanData) : Bool :=
  v.name ≠ x.name || v.subnet ≠ x.subnet || v.gatewayIp ≠ x.gatewayIp

/-- `str(brain.gateway_id)`. -/
def Site.brainId : Uuid := ((s.roleMap.brain.bind (·.gatewayId))).getD ""

def Vlan.adopt (v : Vlan) (x : VlanData) : Vlan :=
  { v with
    name := x.name
    subnet := x.subnet
    gatewayIp := x.gatewayIp
    externalIds := Dictionary.setItem v.externalIds s.brainId x.externalId }

def newVlan (x : VlanData) : Vlan where
  id := s.newId x.vlanId
  organizationId := s.org
  siteId := s.roleMap.siteId
  deleted := false
  vlanId := x.vlanId
  name := x.name
  subnet := if x.subnet = "" then "0.0.0.0/0" else x.subnet
  gatewayIp := if x.gatewayIp = "" then "0.0.0.0" else x.gatewayIp
  dhcpEnabled := true
  dhcpRangeStart := none
  dhcpRangeEnd := none
  sourceDeviceId := some s.brainId
  managementState := "adopted"
  purpose := "general"
  externalIds := [(s.brainId, x.externalId)]

/-- The map of known VLANs, the rows to add and the counts. -/
structure Progress where
  known : List (Int × Vlan)
  added : List Vlan
  created : Nat
  updated : Nat
  unchanged : Nat

/-- One turn of the loop. The map gets no entry for a VLAN that is created. -/
def reconcile (dryRun : Bool) (p : Progress) (x : VlanData) : Progress :=
  match p.known.lookup x.vlanId with
  | some v =>
    if changed v x then
      { p with
        known := if dryRun then p.known else Dictionary.setItem p.known x.vlanId (v.adopt s x)
        updated := p.updated + 1 }
    else { p with unchanged := p.unchanged + 1 }
  | none =>
    { p with
      added := if dryRun then p.added else p.added ++ [newVlan s x]
      created := p.created + 1 }

def orphans (known : List (Int × Vlan)) (xs : List VlanData) : List Orphan :=
  (known.filter fun m => m.1 ∉ xs.map VlanData.vlanId).map fun m =>
    ⟨m.2.id, m.1, m.2.name, m.2.subnet⟩

/-! ### The flush -/

/-- A row after the loop: the one in the map, if it is a live row of the site. -/
def written (known : List (Int × Vlan)) (v : Vlan) : Vlan :=
  if v.live s.roleMap.siteId s.org then (known.lookup v.vlanId).getD v else v

/-- `db.flush()`: the rows that changed and the new ones are written, under the constraints of the
table. -/
def flush (t : Table) (p : Progress) : Except Raised Table :=
  let rows := t.rows.map (written s p.known) ++ p.added
  if t.rows.all (fun v => written s p.known v = v || s.accepts (written s p.known v)) &&
      p.added.all s.accepts then
    if unique : (rows.map Vlan.key).Nodup then .ok ⟨rows, unique⟩
    else .error ⟨"IntegrityError", "uq_gw_vlan_per_site"⟩
  else .error ⟨"DBAPIError", ""⟩

/-- The loop over the entries, the orphans and the flush. -/
def importEntries (dryRun : Bool) (entries : List Dict) (t : Table) :
    Except Raised (ImportResult × Table) := do
  let xs ← readEntries s entries
  let known := byId (t.live s.roleMap.siteId s.org)
  let p := xs.foldl (reconcile s dryRun) ⟨known, [], 0, 0, 0⟩
  let result := ⟨p.created, p.updated, p.unchanged, [], xs, orphans p.known xs⟩
  if dryRun then .ok (result, t)
  else do
    let t' ← flush s t p
    .ok (result, t')

/-- `import_from_brain`. -/
def importFromBrain (dryRun : Bool) (reply : Reply) (t : Table) :
    Except Raised (ImportResult × Table) :=
  match s.roleMap.brain with
  | none => .ok (.failed "No brain device assigned to this site", t)
  | some brain =>
    if brain.deviceType ≠ "gateway" ∨ brain.gatewayId = none then
      .ok (.failed "Brain must be a gateway device", t)
    else
      match reply with
      | .noAdapter e => .ok (.failed ("Cannot connect to brain: " ++ e.message), t)
      | .timeout => .ok (.failed "Timeout reading VLANs from brain", t)
      | .raised e => .ok (.failed ("Error reading brain VLANs: " ++ e.message), t)
      | .result false _ error =>
        let error := error.getD ""
        let why := if error = "" then "unknown" else error
        .ok (.failed ("Brain returned error: " ++ why), t)
      | .result true data _ => do
        let values ← items data
        let entries ← values.mapM fieldsOf
        importEntries s dryRun entries t

end FreeSdn.Gateway
