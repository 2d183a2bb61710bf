import FreeSdn.Proxmox.Readback

/-! `observe_task` of `proxmox_task_tracking.py`: one read-only poll of an applied change. -/

namespace FreeSdn.Proxmox

open FreeSdn.Lib FreeSdn.Staging

/-- The controller and its site, as the poll's locking join reads them. -/
structure Target where
  controllerType : String
  controllerDeleted : Bool
  controllerActive : Bool
  syncEnabled : Bool
  siteDeleted : Bool
  siteActive : Bool
  siteOrganizationId : Uuid
  siteId : Uuid
  deriving DecidableEq

/-- What one poll meets: the target rows, whether the adapter connects, the answer to
`get_task_status`, and what each readback reads. -/
structure Poll where
  target : Option Target
  connect : Reply Unit
  taskStatus : Reply (Answered TaskDetail)
  firewallPlan : Reply Firewall.Plan
  firewallCurrent : Reply Json
  stopStatus : Reply (Answered TaskDetail)
  backupPlan : Reply BackupJob.Plan
  backupJobs : Reply (List (String × Reply Json))
  certificatePlan : Reply Certificate.Plan
  certificateState : Reply (Answered (Reply Certificate.State))
  clusterPlan : Reply Cluster.Plan
  clusterRows : Reply (Answered (Reply (List (String × Bool))))
  storagePlan : Reply Storage.Plan
  storageState : Reply (Answered (Reply Storage.State))
  creationPlan : Reply Creation.Plan
  creationGuests : Reply (Answered (List Creation.Inventory))
  creationConfig : Reply (Answered Creation.Config)
  deletionPlan : Reply Deletion.Plan
  deletionUnused : Reply (Answered Json)
  guestPlan : Reply Guest.Plan
  guestLatest : Reply Guest.Config
  guestCurrent : Reply Guest.Config

/-- A poll that no provider answers. -/
def Poll.silent : Poll :=
  { target := none, connect := none, taskStatus := none, firewallPlan := none,
    firewallCurrent := none, stopStatus := none, backupPlan := none, backupJobs := none,
    certificatePlan := none, certificateState := none, clusterPlan := none, clusterRows := none,
    storagePlan := none, storageState := none, creationPlan := none, creationGuests := none,
    creationConfig := none, deletionPlan := none, deletionUnused := none, guestPlan := none,
    guestLatest := none, guestCurrent := none }

/-- The status and the detail that a poll settles on. -/
structure Observation where
  status : TaskStatus
  detail : Json
  deriving DecidableEq

def Readback.observation (r : Readback) : Observation := ⟨r.status, .str r.detail⟩

def unobserved (detail : String) : Observation := ⟨.unknown, .str detail⟩

/-- The target may be asked with its credentials: a live Proxmox controller of the change's own
organization and site. -/
def available (c : PendingChange) (t : Target) : Bool :=
  (t.controllerType == "proxmox" || t.controllerType == "pve") && !t.controllerDeleted &&
    t.controllerActive && t.syncEnabled && !t.siteDeleted && t.siteActive &&
    t.siteOrganizationId == c.organizationId && c.siteId == some t.siteId

/-- `WARNINGS: [0-9]+`. -/
def isWarnings (s : String) : Bool :=
  let count := s.toList.drop "WARNINGS: ".length
  startsWith s "WARNINGS: " && !count.isEmpty && count.all isAsciiDigit

/-- The provider's verdict on a task.  Matching the warnings pattern against an exit status that is
not a string raises. -/
def classifyTask (upid node : String) (task : TaskDetail) : Reply Observation :=
  if task.upid ≠ upid ∨ task.node ≠ node then some (unobserved "task_identity_mismatch")
  else if task.status = "running" then some ⟨.running, .null⟩
  else if task.status = "stopped" ∧ truthy task.exitstatus then
    match task.exitstatus with
    | .str exit =>
      if exit = "OK" then some ⟨.succeeded, .null⟩
      else if isWarnings exit then some ⟨.warnings, .str "provider_warnings"⟩
      else if exit = "unexpected status" ∨
          startsWith exit "unable to get last line from task log" then
        some (unobserved "provider_result_unavailable")
      else some ⟨.failed, .str "provider_task_failed"⟩
    | _ => none
  else some (unobserved "provider_result_unavailable")

/-- The readback that `observe_task` runs for a change of the family.  The families with a
mandatory task assert that the identity is a string. -/
def readbackOf (sha256 : String → String) (poll : Poll) (c : PendingChange) (upid : Option String) :
    Family → Reply Readback
  | .firewall => Firewall.readback poll.firewallPlan (acknowledgement c) poll.firewallCurrent
  | .taskStop =>
    TaskStop.readback (TaskStop.validatedPlan sha256 c) (acknowledgement c) poll.stopStatus
  | .backupJob => BackupJob.readback poll.backupPlan (acknowledgement c) poll.backupJobs
  | .certificate => Certificate.readback poll.certificatePlan upid poll.certificateState
  | .cluster => Cluster.readback poll.clusterPlan poll.clusterRows
  | .storage => do Storage.readback poll.storagePlan (← upid) poll.storageState
  | .creation => do
    Creation.readback poll.creationPlan (← upid) poll.creationGuests poll.creationConfig
  | .deletion => do Deletion.readback poll.deletionPlan (← upid) poll.deletionUnused
  | .guestChange => Guest.readback poll.guestPlan poll.guestLatest poll.guestCurrent

/-- A success is reset to unknown and stands only if the readback says so. -/
def confirm (applies : Bool) (readback : Reply Readback) (o : Observation) : Reply Observation :=
  if applies ∧ o.status = .succeeded then readback.map Readback.observation else some o

/-- As `confirm`, for the families where a failed task may have taken effect and where warnings
are read back too. -/
def confirmUncertain (applies : Bool) (failed warned : String) (readback : Reply Readback)
    (o : Observation) : Reply Observation :=
  if !applies then some o
  else
    match o.status with
    | .failed => some (unobserved failed)
    | .succeeded => readback.map Readback.observation
    | .warnings => readback.map fun r =>
      if r.status = .succeeded then ⟨.warnings, .str warned⟩ else r.observation
    | _ => some o

/-- The verifications after a task's own verdict, in the order of the source. -/
def verifyTask (readback : Family → Reply Readback) (c : PendingChange) (o : Observation) :
    Reply Observation := do
  let o ← confirmUncertain (Family.storage.reviewed c) "storage_provider_task_failed"
    "storage_verified_with_warnings" (readback .storage) o
  let o ← confirmUncertain (Family.certificate.reviewed c) "certificate_provider_task_failed"
    "certificate_endpoint_verified_with_warnings" (readback .certificate) o
  let o ← confirm (Family.creation.reviewed c) (readback .creation) o
  let o ← confirm (Family.deletion.reviewed c) (readback .deletion) o
  confirm (Family.guestChange.reviewed c) (readback .guestChange) o

/-- The status of the tracked task, verified. -/
def askTask (poll : Poll) (readback : Family → Reply Readback) (c : PendingChange)
    (upid node : String) : Reply Observation :=
  match poll.taskStatus with
  | none => none
  | some none => some (unobserved "observation_unavailable")
  | some (some detail) => (classifyTask upid node detail).bind (verifyTask readback c)

/-- What the provider is asked, once the target may be asked; `task` is the identity and the node
of the tracked task. -/
def askProvider (sha256 : String → String) (poll : Poll) (c : PendingChange)
    (task : Option (String × String)) : Reply Observation :=
  let readback := readbackOf sha256 poll c (task.map (·.1))
  let observed (f : Family) := (readback f).map Readback.observation
  if poll.connect = none then none
  else if Family.firewall.reviewed c then observed .firewall
  else if Family.taskStop.reviewed c then observed .taskStop
  else if Family.backupJob.reviewed c then observed .backupJob
  else if Family.certificate.reviewed c && task.isNone then observed .certificate
  else if Family.cluster.reviewed c then observed .cluster
  else
    match task with
    | none => observed .guestChange
    | some (upid, node) => askTask poll readback c upid node

/-- `has_task`, with the identity and the node of the task. -/
def trackedTask (c : PendingChange) : Option (String × String) := do
  let previous ← c.providerTask
  let upid ← previous.id
  let node ← taskNode upid
  if previous.node = some node then some (upid, node) else none

/-- The families that are observed without a task. -/
def observableWithoutTask (c : PendingChange) : Bool :=
  Family.guestChange.reviewed c || Family.cluster.reviewed c || Family.certificate.reviewed c ||
    Family.backupJob.reviewed c || Family.taskStop.reviewed c || Family.firewall.reviewed c

def week : Time := seconds (7 * 24 * 3600)

/-- The end of `observe_task`: what is recorded, and when the change is polled again. -/
def record (c : PendingChange) (o : Observation) (now : Time) : PendingChange :=
  let task : ProviderTask :=
    { id := c.providerTask.bind (·.id), node := c.providerTask.bind (·.node), status := o.status,
      detail := o.detail, checkedAt := some now, finishedAt := none }
  if o.status.terminal then
    { c with providerTask := some { task with finishedAt := some now }, nextPollAt := none }
  else if o.status = .running then
    { c with providerTask := some task, nextPollAt := some (now + seconds 30) }
  else if (c.appliedAt.map (· + week)).any (· < now) then
    -- only a guest change or a certificate can still be pending here
    { c with
      providerTask := some
        { task with
          status := if Family.guestChange.reviewed c || Family.certificate.reviewed c
            then .unknown else o.status
          detail := .str "manual_verification_required" }
      nextPollAt := none }
  else
    { c with providerTask := some task, nextPollAt := some (now + seconds 300) }

/-- `observe_task`. -/
def observeTask (sha256 : String → String) (c : PendingChange) (poll : Poll) (now : Time) :
    PendingChange :=
  if (c.providerTask.map (·.status.terminal)).getD false then { c with nextPollAt := none }
  else
    let task := trackedTask c
    if task = none ∧ !observableWithoutTask c then
      { c with
        providerTask := some
          { id := none, node := none, status := .unknown, detail := .str "invalid_task_id",
            checkedAt := some now, finishedAt := none }
        nextPollAt := none }
    else
      match poll.target with
      | none => record c (unobserved "target_unavailable_or_scope_changed") now
      | some target =>
        if available c target then
          record c ((askProvider sha256 poll c task).getD (unobserved "observation_unavailable")) now
        else record c (unobserved "target_unavailable_or_scope_changed") now

/-! ### What a poll leaves alone -/

section Frame

variable {sha256 : String → String} {c : PendingChange} {poll : Poll} {o : Observation} {now : Time}

/-- The identity and the node of the task, as the conflict query reads them. -/
def taskIdentity (c : PendingChange) : Option String × Option String :=
  (c.providerTask.bind (·.id), c.providerTask.bind (·.node))

theorem record_frame :
    record c o now =
      { c with
        providerTask := (record c o now).providerTask
        nextPollAt := (record c o now).nextPollAt } := by
  unfold record
  dsimp only
  split
  · rfl
  · split
    · rfl
    · split <;> rfl

/-- A poll writes the provider task and the time of the next poll, and nothing else. -/
theorem observeTask_frame :
    observeTask sha256 c poll now =
      { c with
        providerTask := (observeTask sha256 c poll now).providerTask
        nextPollAt := (observeTask sha256 c poll now).nextPollAt } := by
  unfold observeTask
  dsimp only
  split
  · rfl
  · split
    · rfl
    · split
      · exact record_frame
      · split <;> exact record_frame

variable (c o now) in
theorem record_task :
    ∃ task, (record c o now).providerTask = some task ∧ task.id = c.providerTask.bind (·.id) ∧
      task.node = c.providerTask.bind (·.node) := by
  unfold record
  dsimp only
  split
  · exact ⟨_, rfl, rfl, rfl⟩
  · split
    · exact ⟨_, rfl, rfl, rfl⟩
    · split <;> exact ⟨_, rfl, rfl, rfl⟩

theorem record_identity : taskIdentity (record c o now) = taskIdentity c := by
  obtain ⟨task, found, id, node⟩ := record_task c o now
  simp [taskIdentity, found, id, node]

/-- An identified task that names its worker is tracked. -/
theorem trackedTask_none (identified : ∀ task ∈ c.providerTask, Identified task)
    (h : trackedTask c = none) : taskIdentity c = (none, none) := by
  unfold taskIdentity
  cases known : c.providerTask with
  | none => rfl
  | some task =>
    have shape := identified task (by simp [known])
    cases hid : task.id with
    | none =>
      have : task.node = none := by simpa [hid] using shape.1
      simp [hid, this]
    | some upid =>
      obtain ⟨node, hn, named⟩ := shape.taskNode hid
      simp [trackedTask, known, hid, named, hn] at h

variable (sha256 poll now) in
/-- Polls keep the identity of the task. -/
theorem observeTask_identity (identified : ∀ task ∈ c.providerTask, Identified task) :
    taskIdentity (observeTask sha256 c poll now) = taskIdentity c := by
  unfold observeTask
  dsimp only
  split
  · rfl
  · split
    · rename_i untrackable
      rw [trackedTask_none identified untrackable.1]
      rfl
    · split
      · exact record_identity
      · split <;> exact record_identity

/-- A task that is over is not touched again. -/
theorem observeTask_terminal {task : ProviderTask} (known : c.providerTask = some task)
    (ended : task.status.terminal) : observeTask sha256 c poll now = { c with nextPollAt := none } := by
  simp [observeTask, known, ended]

/-- A change that stays scheduled has a task. -/
theorem observeTask_scheduled (h : (observeTask sha256 c poll now).nextPollAt ≠ none) :
    (observeTask sha256 c poll now).providerTask ≠ none := by
  have recorded (o : Observation) : (record c o now).providerTask ≠ none := by
    obtain ⟨task, found, -⟩ := record_task c o now
    simp [found]
  revert h
  unfold observeTask
  dsimp only
  split
  · intro h
    exact absurd rfl h
  · intro _
    split
    · simp
    · split
      · exact recorded _
      · split <;> exact recorded _

end Frame

end FreeSdn.Proxmox
