import FreeSdn.Proxmox.Tasks

/-! The readbacks of the reviewed operation families.  Each follows its source branch by branch
over what it reads: the plan of the row, the acknowledgement the row keeps, and the provider's
answers, parsed as far as the branch needs them.  A step that raises, or that the poll's deadline
cuts off, is `none`. -/

namespace FreeSdn.Proxmox

open FreeSdn.Lib FreeSdn.Staging

/-- The part of an observation that a readback sets. -/
structure Readback where
  status : TaskStatus
  detail : String
  deriving DecidableEq, Repr

/-- A step of the observer: its result, or `none` when it raises or times out. -/
abbrev Reply (α : Type) := Option α

/-- An `AdapterResult`: the data of a successful answer. -/
abbrev Answered (α : Type) := Option α

def unknown (detail : String) : Readback := ⟨.unknown, detail⟩

def succeeded (detail : String) : Readback := ⟨.succeeded, detail⟩

/-- `(change.applied_response or {}).get("data", {})`. -/
def acknowledgement (c : PendingChange) : Json :=
  ((c.appliedResponse.getD []) |> (get · "data")).getD (.obj [])

/-- The task type and the task's own id in a UPID: `upid.split(":")[5:7]`. -/
def taskKind (upid : String) : List String :=
  (((splitChars ':' upid.toList).drop 5).take 2).map String.ofList

/-! ### Task control -/

structure TaskDetail where
  upid : String
  node : String
  status : String
  exitstatus : Json
  deriving DecidableEq

namespace TaskStop

structure Plan where
  node : String
  upid : String
  expectedDigest : String
  deriving DecidableEq, Repr

def isTargetNodeChar (c : Char) : Bool := isAsciiAlnum c || c == '-'

/-- `TaskStopTarget`. -/
def validTarget (node upid : String) : Bool :=
  allIn isTargetNodeChar 1 63 node.toList && 10 ≤ upid.toList.length &&
    upid.toList.length ≤ 512 && taskNode upid == some node

/-- `TaskStopRequest.expected_digest`. -/
def validDigest (digest : String) : Bool := allIn isLowerHexDigit 64 64 digest.toList

/-- `validated_plan` of `hypervisor_task_control.py`; `sha256` gives the hexadecimal digest that
`target_id` computes. -/
def validatedPlan (sha256 : String → String) (c : PendingChange) : Option Plan :=
  match get c.payload "node", get c.payload "upid", get c.payload "expected_digest" with
  | some (.str node), some (.str upid), some (.str digest) =>
    if isReviewedTaskStop c ∧ validTarget node upid ∧ validDigest digest ∧
        c.operation = "create" ∧ c.targetId = some (sha256 upid) ∧
        (c.payload.all fun m =>
          decide (m.1 ∈ ["confirmed", "task_stop_version", "node", "upid", "expected_digest"])) then
      some ⟨node, upid, digest⟩
    else none
  | _, _, _ => none

/-- `readback` of `hypervisor_task_control.py`. -/
def readback (plan : Reply Plan) (ack : Json) (answer : Reply (Answered TaskDetail)) :
    Reply Readback := do
  let plan ← plan
  if ack ≠ .obj [("node", .str plan.node), ("task_stop", .str plan.upid)] then
    return unknown "task_stop_acknowledgement_unavailable"
  match ← answer with
  | none => return unknown "task_stop_observation_unavailable"
  | some task =>
    if task.upid ≠ plan.upid ∨ task.node ≠ plan.node then
      return unknown "task_stop_observation_unavailable"
    if task.status = "running" then
      return ⟨.running, "task_stop_requested_worker_still_running"⟩
    if task.status = "stopped" then
      return succeeded "task_no_longer_running_effects_unverified"
    return unknown "task_stop_state_not_verified"

end TaskStop

/-! ### Firewall -/

namespace Firewall

/-- The action of the plan and `digest(plan)`. -/
structure Plan where
  action : String
  digest : String
  deriving DecidableEq

/-- `readback` of `hypervisor_firewall_operations.py`; `current` is the configuration without its
two digests. -/
def readback (plan : Reply Plan) (ack : Json) (current : Reply Json) : Reply Readback := do
  let plan ← plan
  if field ack "intent_digest" ≠ some (.str plan.digest) ∨
      field ack "firewall_operation" ≠ some (.str plan.action) then
    return unknown "firewall_acknowledgement_unavailable"
  match field ack "expected" with
  | some (.obj expected) =>
    if (← current) ≠ .obj expected then
      return unknown "firewall_configuration_not_verified"
    return succeeded "firewall_configuration_verified_effective_policy_unverified"
  | _ => return unknown "firewall_acknowledgement_unavailable"

end Firewall

/-! ### Backup jobs -/

namespace BackupJob

structure Plan where
  action : String
  jobId : String
  deriving DecidableEq

/-- The job is gone after a delete, or is there as expected. -/
def verified (plan : Plan) (expected : Json) (jobs : List (String × Reply Json)) : Reply Bool :=
  match jobs.find? (fun job => job.1 = plan.jobId) with
  | none => some (plan.action = "delete")
  | some (_, actual) =>
    if plan.action = "delete" then some false else actual.map (decide <| · = expected)

/-- `readback` of `hypervisor_backup_jobs.py`; each job is its id with what `_job` makes of it. -/
def readback (plan : Reply Plan) (ack : Json) (jobs : Reply (List (String × Reply Json))) :
    Reply Readback := do
  let plan ← plan
  if field ack "backup_job" ≠ some (.str plan.action) ∨
      field ack "job_id" ≠ some (.str plan.jobId) then
    return unknown "backup_job_acknowledgement_unavailable"
  match field ack "expected" with
  | none => return unknown "backup_job_acknowledgement_unavailable"
  | some expected =>
    return if ← verified plan expected (← jobs) then succeeded "backup_job_configuration_verified"
      else unknown "backup_job_configuration_not_verified"

end BackupJob

/-! ### Certificates -/

namespace Certificate

inductive Action
  | upload | delete | renew
  deriving DecidableEq, Repr

/-- The plan with its baseline; `uploaded` is the fingerprint of the first certificate of an
upload. -/
structure Plan where
  node : String
  action : Action
  restart : Bool
  fallback : String
  custom : Option String
  domains : List String
  uploaded : Reply String
  deriving DecidableEq

/-- `_metadata` of a certificate, with its validity at the time of the poll. -/
structure Metadata where
  fingerprint : String
  san : List String
  valid : Bool
  deriving DecidableEq

/-- The parts of `get_certificate_operation_state`: `_inventory`, `_acme` and the status. -/
structure State where
  custom : Option Metadata
  fallback : Metadata
  acme : Reply (List String)
  localNodes : List Json
  peer : Json
  deriving DecidableEq

def matchesTask (upid : Option String) (node : String) : Bool :=
  match upid with
  | some upid => taskNode upid == some node && taskKind upid == ["acmerenew", ""]
  | none => false

/-- The fingerprint that the endpoint must present, or `none` when the inventory does not show the
planned certificate. -/
def expected (plan : Plan) (state : State) : Reply (Option String) := do
  match plan.action with
  | .delete =>
    return if state.custom.isNone ∧ state.fallback.fingerprint = plan.fallback ∧
      state.fallback.valid then some plan.fallback else none
  | .upload =>
    match state.custom with
    | none => return none
    | some actual =>
      return if actual.fingerprint = (← plan.uploaded) ∧ actual.valid then
        some actual.fingerprint else none
  | .renew =>
    match state.custom with
    | none => return none
    | some actual =>
      if some actual.fingerprint = plan.custom ∨ actual.san ≠ plan.domains then return none
      return if (← state.acme) = plan.domains ∧ actual.valid then
        some actual.fingerprint else none

/-- `readback` of `hypervisor_certificates.py`; the inner reply is the parsed inventory. -/
def readback (plan : Reply Plan) (upid : Option String) (answer : Reply (Answered (Reply State))) :
    Reply Readback := do
  let plan ← plan
  if plan.action = .renew ∧ !matchesTask upid plan.node then
    return unknown "task_identity_mismatch"
  match ← answer with
  | none => return unknown "certificate_not_verified"
  | some state =>
    let state ← state
    match ← expected plan state with
    | none => return unknown "certificate_not_verified"
    | some fingerprint =>
      if state.localNodes ≠ [.str plan.node] then
        return unknown "certificate_endpoint_requires_manual_verification"
      if state.peer ≠ .str fingerprint then
        return ⟨if plan.action ≠ .renew ∧ !plan.restart then .pending else .unknown,
          "certificate_stored_activation_unverified"⟩
      return succeeded (if plan.action = .delete then "certificate_fallback_endpoint_verified"
        else "certificate_endpoint_verified")

end Certificate

/-! ### Cluster operations -/

namespace Cluster

structure Plan where
  action : String
  target : String
  deriving DecidableEq

/-- `readback` of `hypervisor_cluster_operations.py`; `rows` are the HA entries, each its identity
with whether it matches the planned options. -/
def readback (plan : Reply Plan) (answer : Reply (Answered (Reply (List (String × Bool))))) :
    Reply Readback := do
  let plan ← plan
  if startsWith plan.action "node." then
    return unknown "node_power_requires_manual_verification"
  match ← answer with
  | none => return unknown "ha_configuration_unavailable"
  | some rows =>
    let actual := (← rows).find? fun row => row.1 = plan.target
    let matched :=
      if endsWith plan.action "create" then (actual.map (·.2)).getD false else actual.isNone
    return if matched then succeeded "ha_configuration_verified"
      else unknown "ha_configuration_not_verified"

end Cluster

/-! ### Storage -/

namespace Storage

inductive Action
  | upload | delete
  deriving DecidableEq, Repr

structure Plan where
  node : String
  storage : String
  action : Action
  endpointNode : String
  owner : Option String
  storageDigest : String
  volume : String
  size : Json
  deriving DecidableEq

/-- The digest of the storage configuration and the inventory: volumes with their sizes. -/
structure State where
  digest : String
  items : List (String × Json)
  deriving DecidableEq

def matchesTask (upid : String) (plan : Plan) : Bool :=
  let node := if plan.action = .upload then plan.endpointNode else plan.node
  let identity := (plan.owner.map (· ++ "@")).getD "" ++ plan.storage
  taskNode upid == some node &&
    taskKind upid == (if plan.action = .upload then ["imgcopy", ""] else ["imgdel", identity])

def isInt : Json → Bool
  | .int _ => true
  | _ => false

/-- `readback` of `hypervisor_storage_operations.py`. -/
def readback (plan : Reply Plan) (upid : String) (answer : Reply (Answered (Reply State))) :
    Reply Readback := do
  let plan ← plan
  if !matchesTask upid plan then return unknown "task_identity_mismatch"
  match ← answer with
  | none => return unknown "storage_state_not_verified"
  | some state =>
    let state ← state
    if state.digest ≠ plan.storageDigest then return unknown "storage_state_not_verified"
    let item := state.items.find? fun item => item.1 = plan.volume
    if plan.action = .delete then
      return if item.isNone then succeeded "storage_volume_absence_verified"
        else unknown "storage_state_not_verified"
    match item with
    | none => return unknown "storage_state_not_verified"
    | some (_, size) =>
      return if isInt size ∧ size = plan.size then succeeded "storage_upload_inventory_verified"
        else unknown "storage_state_not_verified"

end Storage

/-! ### Guest creation -/

namespace Creation

structure Plan where
  node : String
  vmid : Nat
  vmType : String
  startAfterCreate : Bool
  deriving DecidableEq

structure Inventory where
  node : Json
  type : Json
  status : Json
  deriving DecidableEq

/-- What the checks of the guest's configuration find; `disk` is `none` when a size does not
parse. -/
structure Config where
  marked : Bool
  locked : Bool
  named : Bool
  sized : Bool
  disk : Option Bool
  deriving DecidableEq

def matchesTask (upid : String) (plan : Plan) : Bool :=
  taskNode upid == some plan.node &&
    taskKind upid == [if plan.vmType = "qemu" then "qmcreate" else "vzcreate", toString plan.vmid]

/-- `readback` of `hypervisor_creation.py`; `guests` are the inventory entries with the plan's
VMID. -/
def readback (plan : Reply Plan) (upid : String) (guests : Reply (Answered (List Inventory)))
    (config : Reply (Answered Config)) : Reply Readback := do
  let plan ← plan
  if !matchesTask upid plan then return unknown "task_identity_mismatch"
  match ← guests with
  | some [guest] =>
    if guest.node ≠ .str plan.node ∨ guest.type ≠ .str plan.vmType ∨
        (plan.startAfterCreate ∧ guest.status ≠ .str "running") then
      return unknown "guest_creation_not_verified"
    match ← config with
    | none => return unknown "guest_creation_not_verified"
    | some config =>
      return if config.marked ∧ !config.locked ∧ config.named ∧ config.sized ∧
        config.disk = some true then succeeded "guest_creation_verified"
        else unknown "guest_creation_not_verified"
  | _ => return unknown "guest_creation_not_verified"

end Creation

/-! ### Guest deletion -/

namespace Deletion

structure Plan where
  node : String
  vmid : Nat
  vmType : String
  deriving DecidableEq

def matchesTask (upid : String) (plan : Plan) : Bool :=
  taskNode upid == some plan.node &&
    taskKind upid == [if plan.vmType = "qemu" then "qmdestroy" else "vzdestroy", toString plan.vmid]

/-- `readback` of `hypervisor_deletion.py`. -/
def readback (plan : Reply Plan) (upid : String) (answer : Reply (Answered Json)) :
    Reply Readback := do
  let plan ← plan
  if !matchesTask upid plan then return unknown "task_identity_mismatch"
  return if (← answer) = some (.int plan.vmid) then succeeded "guest_deletion_verified"
    else unknown "guest_absence_not_verified"

end Deletion

/-! ### Guest changes -/

namespace Guest

inductive Plan
  | resize (targetSizeBytes : Nat)
  | config
  | template
  deriving DecidableEq, Repr

/-- The configuration of the guest: `disk_bytes` of the planned disk, the template flag, and
whether it matches the planned configuration. -/
structure Config where
  diskBytes : Reply Nat
  template : Json
  matched : Bool
  deriving DecidableEq

/-- `latest.get("template") in (1, True, "1")`. -/
def isTemplate (flag : Json) : Bool :=
  match flag with
  | .int n => n == 1
  | .bool b => b
  | .str s => s == "1"
  | .float t => t.chars == "1.0".toList
  | _ => false

/-- `readback` of `hypervisor_guest_changes.py`. -/
def readback (plan : Reply Plan) (latest current : Reply Config) : Reply Readback := do
  let plan ← plan
  let latest ← latest
  match plan with
  | .resize target =>
    return if (← latest.diskBytes) = target then succeeded "guest_state_verified"
      else unknown "guest_state_not_verified"
  | .template =>
    return if isTemplate latest.template then succeeded "guest_state_verified"
      else unknown "guest_state_not_verified"
  | .config =>
    if !latest.matched then return unknown "guest_state_not_verified"
    return if (← current).matched then succeeded "guest_state_verified"
      else ⟨.pending, "configuration_pending_restart"⟩

end Guest

end FreeSdn.Proxmox
