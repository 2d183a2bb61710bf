import FreeSdn.Staging.Outcome
import FreeSdn.Proxmox.Observe

/-! The transactions of `AdapterStagingService`: staging, the claim of `apply_change` with its
preflights and conflict guards, discarding, and the recovery of stale claims.  Each function maps
the committed rows that the transaction reads to the row that it commits. -/

namespace FreeSdn.Staging

open FreeSdn.Lib FreeSdn.Proxmox

/-- The parts the service calls but that no law here depends on: hashing, printing, the preflights
of the other vendors (given the change and the confirmation of the request), and the plan contracts
of the families other than task-stop. -/
structure Env where
  sha256 : String → String
  print : Printing
  vendorPreflight : PendingChange → Bool → Except HttpError Unit
  validatedPlan : Family → PendingChange → Except HttpError Unit

/-- `assert_site_access_for_request`: the sites of a site-limited caller, `none` for any other. -/
def assertSiteAccess (granted : Option (List Uuid)) (siteId : Option Uuid) (detail : String) :
    Except HttpError Unit :=
  match granted, siteId with
  | some sites, some site => if site ∈ sites then .ok () else .error (notFound detail)
  | _, _ => .ok ()

def refuseIf (condition : Bool) (error : HttpError) : Except HttpError Unit :=
  if condition then .error error else .ok ()

/-! ### Staging -/

structure StageRequest where
  organizationId : Uuid
  controllerId : Option Uuid
  feature : String
  operation : String
  payload : Dict
  siteId : Option Uuid
  targetId : Option String
  actorId : Option Uuid
  changeId : Option Uuid
  granted : Option (List Uuid)
  deriving DecidableEq

/-- `WRITE_BLOCKED` of `adapters/proxmox/sdn.py`. -/
def writeBlocked : String :=
  "SDN writes require a qualified reviewed lock/apply workflow; use native Proxmox management " ++
    "with independent recovery access"

/-- `_MAX_PENDING_PER_ORG`. -/
def maxPendingPerOrg : Nat := 2000

inductive StageError
  | http (error : HttpError)
  | integrity
  deriving DecidableEq

/-- The row that `stage_change` builds; `generated` is the identifier it gets without a stable
one. -/
def StageRequest.row (request : StageRequest) (generated : Uuid) (now : Time) : PendingChange :=
  { id := request.changeId.getD generated, organizationId := request.organizationId
    controllerId := request.controllerId, siteId := request.siteId, feature := request.feature
    operation := request.operation, targetId := request.targetId
    payload := request.payload.filter fun m => m.1 ≠ "confirmed"
    status := .pending, appliedAt := none, appliedResponse := none, providerTask := none
    nextPollAt := none, failureReason := none, createdBy := request.actorId, updatedBy := none
    updatedAt := now }

/-- A feature that may only be staged by its own endpoint, with a stable identifier and a valid
plan. -/
def requirePlan (applies : Bool) (request : StageRequest) (endpoint : String)
    (plan : Except HttpError Unit) : Except HttpError Unit :=
  if applies then
    match request.changeId with
    | none => .error (badRequest ("Use the reviewed " ++ endpoint ++ " endpoint"))
    | some _ => plan
  else .ok ()

def taskStopPlan (env : Env) (c : PendingChange) : Except HttpError TaskStop.Plan :=
  match TaskStop.validatedPlan env.sha256 c with
  | some plan => .ok plan
  | none => .error (badRequest "Use a reviewed task-stop request; review legacy intents again")

/-- The checks of `stage_change` before the insert. -/
def stageChecks (env : Env) (rows : List PendingChange) (request : StageRequest)
    (row : PendingChange) : Except HttpError Unit := do
  refuseIf (startsWith request.feature "proxmox.sdn.") (conflict writeBlocked)
  refuseIf (request.controllerId.isNone && !startsWith request.feature "overlay.")
    (badRequest ("feature " ++ env.print.repr request.feature ++
      " requires a controller_id (only overlay.* may be controllerless)"))
  refuseIf (decide (request.operation ∉ ["create", "update", "delete"]))
    (badRequest ("operation must be create|update|delete, got " ++
      env.print.repr request.operation))
  assertSiteAccess request.granted request.siteId "site not found"
  match request.targetId with
  | some target => validateId target "target_id"
  | none => .ok ()
  validateUrlPathPayloadKeys env.print request.payload
  let pendingCount := rows.countP fun r =>
    r.organizationId == request.organizationId && r.status == .pending
  refuseIf (maxPendingPerOrg ≤ pendingCount)
    ⟨429, "pending-change limit reached for this organization (2000); apply or discard some " ++
      "before staging more"⟩
  refuseIf (decide (request.feature ∈ Firewall.legacyFeatures))
    (badRequest "Use the reviewed firewall operation endpoint")
  requirePlan (request.feature == Firewall.feature) request "firewall operation"
    (env.validatedPlan .firewall row)
  requirePlan (request.feature == TaskStop.feature) request "hypervisor task-stop"
    ((taskStopPlan env row).map fun _ => ())
  requirePlan (request.feature == BackupJob.feature) request "hypervisor backup job"
    (env.validatedPlan .backupJob row)
  requirePlan (decide (request.feature ∈ Storage.features)) request "hypervisor storage"
    (env.validatedPlan .storage row)
  requirePlan (decide (request.feature ∈ Certificate.features)) request "hypervisor certificate"
    (env.validatedPlan .certificate row)
  if request.feature ∈ Cluster.features then env.validatedPlan .cluster row else .ok ()
  requirePlan (decide (request.feature ∈ Creation.features)) request "hypervisor creation"
    (env.validatedPlan .creation row)

/-- `stage_change`: the row that is inserted.  The primary key refuses an identifier in use. -/
def stageChange (env : Env) (rows : List PendingChange) (request : StageRequest) (generated : Uuid)
    (now : Time) : Except StageError PendingChange :=
  let row := request.row generated now
  match stageChecks env rows request row with
  | .error e => .error (.http e)
  | .ok () => if (Table.lookup rows row.id).isSome then .error .integrity else .ok row

/-! ### Preflights -/

inductive Risk
  | safe | destructive | catastrophic
  deriving DecidableEq, Repr

/-- The catastrophic entries of `_FEATURE_RISK` of `adapter_proxmox_preflight.py`. -/
def catastrophicFeatures : List String :=
  ["proxmox.ha.resource", "proxmox.ha.group", "proxmox.vm.destroy",
   "proxmox.vm.convert_to_template", "proxmox.vm.guest_agent_exec",
   "proxmox.vm.guest_agent_file_write", "proxmox.vm.remote_migrate",
   "proxmox.container.remote_migrate", "proxmox.node.reboot", "proxmox.node.shutdown",
   "proxmox.node.certificate_upload", "proxmox.node.acme_renew", "proxmox.snapshot.rollback",
   "proxmox.storage.delete_volume", "proxmox.backup.restore", "proxmox.backup.prune"]

/-- The destructive entries of `_FEATURE_RISK`. -/
def destructiveFeatures : List String :=
  ["proxmox.vm.stop", "proxmox.vm.shutdown", "proxmox.vm.reboot", "proxmox.vm.suspend",
   "proxmox.vm.migrate", "proxmox.snapshot.delete"]

def isDelete (operation : String) : Bool :=
  operation.toList.map Char.toLower == "delete".toList

/-- `classify` of `adapter_proxmox_preflight.py`. -/
def classify (feature operation : String) : Risk :=
  if feature ∈ catastrophicFeatures then .catastrophic
  else if feature ∈ destructiveFeatures then .destructive
  else if isDelete operation then .catastrophic
  else .safe

/-- `enforce_proxmox_preflight`; the confirmation is the one of the apply request. -/
def enforceProxmoxPreflight (c : PendingChange) (confirmed : Bool) : Except HttpError Unit :=
  refuseIf (isProxmox c && classify c.feature c.operation == .catastrophic && !confirmed)
    (conflict (c.feature ++ " (" ++ c.operation ++ ") is a catastrophic / irreversible Proxmox " ++
      "operation; re-stage the change with confirmed=true to proceed"))

/-- The backstop for deletes of every vendor. -/
def enforceDeleteConfirmation (c : PendingChange) (confirmed : Bool) : Except HttpError Unit :=
  refuseIf (isDelete c.operation && !confirmed)
    (conflict (c.feature ++ " (delete) is a destructive operation; re-apply with confirmed=true " ++
      "(the Pending-Changes drawer's typed-APPLY step)."))

/-! ### Conflict guards -/

/-- The applied row of the worker that a task-stop names, which the guard exempts. -/
def originalWorker (plan : TaskStop.Plan) (r : PendingChange) : Bool :=
  r.status == .applied && r.feature != TaskStop.feature &&
    (r.providerTask.bind (·.id)) == some plan.upid &&
    (r.providerTask.bind (·.node)) == some plan.node

/-- The rows that the query of `guard_cluster_conflicts` selects for the claim of `c`. -/
def clusterConflict (plan : Option TaskStop.Plan) (c r : PendingChange) : Bool :=
  r.organizationId == c.organizationId && r.controllerId == c.controllerId && r.id != c.id &&
    isProxmox r && active r && !(plan.any fun p => originalWorker p r) &&
    (isDisruptive c || isDisruptive r)

/-- The plan that a task-stop must have before its exemption is granted. -/
def stopPlan (env : Env) (c : PendingChange) : Except HttpError (Option TaskStop.Plan) :=
  if c.feature = TaskStop.feature then (taskStopPlan env c).map some else .ok none

/-- `guard_cluster_conflicts`.  The advisory lock lasts until the claim commits, so the query sees
the rows that the claim is added to. -/
def guardClusterConflicts (env : Env) (rows : List PendingChange) (c : PendingChange) :
    Except HttpError Unit :=
  if !isProxmox c || c.controllerId.isNone then .ok ()
  else do
    let plan ← stopPlan env c
    refuseIf (rows.any (clusterConflict plan c))
      (conflict "A cluster or guest operation is active or unresolved; inspect Pending Changes")

/-- `str(payload.get("vmid", change.target_id or ""))`, where it is decimal. -/
def guestVmid (c : PendingChange) : Option String :=
  let text : Option String := match get c.payload "vmid" with
    | none => some (c.targetId.getD "")
    | some (.str s) => some s
    | some (.int n) => some (String.ofList (Lib.Json.intText n))
    -- the text of any other value contains a letter, a dot or a bracket
    | some _ => none
  text.filter isDecimal

/-- `payload["vmid"].astext`. -/
def vmidColumn (print : Printing) (r : PendingChange) : Option String :=
  match get r.payload "vmid" with
  | some (.str s) => some s
  | some (.int n) => some (String.ofList (Lib.Json.intText n))
  | some (.bool b) => some (if b then "true" else "false")
  | some (.float t) => some (print.floatText t)
  | some .null | none => none
  | some v => some (print.str v)

/-- The rows that the query of `guard_guest_conflicts` selects for the claim of `c`. -/
def guestConflict (print : Printing) (vmid : String) (c r : PendingChange) : Bool :=
  r.controllerId == c.controllerId && r.organizationId == c.organizationId && r.id != c.id &&
    isProxmox r && vmidColumn print r == some vmid && active r

/-- `guard_guest_conflicts`. -/
def guardGuestConflicts (env : Env) (rows : List PendingChange) (c : PendingChange) :
    Except HttpError Unit :=
  if !isGuestOperation c then .ok ()
  else
    match guestVmid c with
    | none => .error (badRequest "A guest target is required")
    | some vmid =>
      refuseIf (rows.any (guestConflict env.print vmid c))
        (conflict ("Another guest operation is active or unresolved; inspect Pending Changes " ++
          "before retrying"))

/-! ### The claim -/

structure ApplyRequest where
  changeId : Uuid
  readOnly : Bool
  force : Bool
  confirmed : Bool
  hasApplier : Bool
  actorId : Option Uuid
  granted : Option (List Uuid)
  deriving DecidableEq

/-- The gates of `apply_change` that do not read the row. -/
def applyGates (request : ApplyRequest) : Except HttpError Unit := do
  refuseIf request.readOnly
    ⟨403, "ADAPTER_READ_ONLY is enabled; set it to false to apply changes"⟩
  refuseIf (!request.force) ⟨403, "force=true is required to apply a staged change"⟩
  refuseIf (!request.hasApplier)
    ⟨500, "no applier provided — feature modules must pass an applier callable that knows how " ++
      "to talk to the controller for this feature"⟩

/-- The checks on the locked row. -/
def claimChecks (env : Env) (rows : List PendingChange) (request : ApplyRequest)
    (c : PendingChange) : Except HttpError Unit := do
  assertSiteAccess request.granted c.siteId "pending change not found"
  refuseIf (c.status != .pending) (conflict ("change is " ++ c.status.text ++ ", not pending"))
  env.vendorPreflight c request.confirmed
  enforceProxmoxPreflight c request.confirmed
  enforceDeleteConfirmation c request.confirmed
  guardClusterConflicts env rows c
  guardGuestConflicts env rows c

/-- The claim of `apply_change`: from the row's lock to the commit that sets `applying`. -/
def claim (env : Env) (rows : List PendingChange) (request : ApplyRequest) (now : Time) :
    Except HttpError PendingChange := do
  applyGates request
  match Table.lookup rows request.changeId with
  | none => .error (notFound "pending change not found")
  | some c =>
    claimChecks env rows request c
    .ok { c with status := .applying, updatedBy := request.actorId, updatedAt := now }

/-! ### Discarding and recovery -/

structure DiscardRequest where
  changeId : Uuid
  organizationId : Uuid
  actorId : Option Uuid
  force : Bool
  granted : Option (List Uuid)
  deriving DecidableEq

/-- `resolved_observation`. -/
def resolvedObservation (force : Bool) (c : PendingChange) : Bool :=
  force && c.status == .applied && isReviewedOperation c &&
    (c.providerTask.map (·.status)) == some .unknown

/-- `change.status in allowed`. -/
def discardable (force : Bool) (status : Status) : Bool :=
  status == .pending || (force && (status == .applying || status == .reconciliationRequired))

/-- `discard`: the row that is committed. -/
def discard (print : Printing) (rows : List PendingChange) (request : DiscardRequest) (now : Time) :
    Except HttpError PendingChange :=
  match Table.lookup rows request.changeId with
  | none => .error (notFound "pending change not found")
  | some c => do
    refuseIf (c.organizationId != request.organizationId) (notFound "pending change not found")
    assertSiteAccess request.granted c.siteId "pending change not found"
    let resolved := resolvedObservation request.force c
    refuseIf (!discardable request.force c.status && !resolved)
      (conflict ("cannot discard a change with status=" ++ print.repr c.status.text))
    .ok
      { c with
        status := .discarded, nextPollAt := none
        providerTask := if resolved then
            c.providerTask.map ({ · with detail := .str "operator_resolved_unknown_outcome" })
          else c.providerTask
        updatedBy := request.actorId, updatedAt := now }

/-- `APPLYING_TTL_SECONDS`. -/
def applyingTtl : Time := seconds 300

def staleReason : String :=
  "apply timed out in the 'applying' state: the outcome on the controller is UNKNOWN. Verify the " ++
    "device before re-staging - the change may already have been applied."

/-- The rows that `_recover_stale_applying` moves. -/
def stale (organization : Option Uuid) (now : Time) (c : PendingChange) : Bool :=
  c.status == .applying && c.updatedAt + applyingTtl < now &&
    (organization.all fun o => c.organizationId == o)

/-- `_recover_stale_applying`. -/
def recoverStaleApplying (rows : List PendingChange) (organization : Option Uuid) (now : Time) :
    List PendingChange :=
  rows.map fun c =>
    if stale organization now c then
      { c with
        status := .reconciliationRequired, failureReason := some staleReason, updatedAt := now }
    else c

/-- The rows that `poll_due_tasks` selects. -/
def due (now : Time) (c : PendingChange) : Bool :=
  c.status == .applied && isProxmox c && c.nextPollAt.any (· ≤ now)

end FreeSdn.Staging
