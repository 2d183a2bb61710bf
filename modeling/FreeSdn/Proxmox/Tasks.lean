import FreeSdn.Staging.Change

/-! Task identities of Proxmox, and what the staging service keeps of an acknowledged write
(`task_node` and `accepted_task` of `proxmox_task_tracking.py`). -/

namespace FreeSdn.Proxmox

open FreeSdn.Lib FreeSdn.Staging

/-! ### Task identities -/

/-- `[A-Za-z0-9](?:[A-Za-z0-9-]*[A-Za-z0-9])?`. -/
def isNodeName (cs : List Char) : Bool :=
  match cs.head?, cs.getLast? with
  | some first, some last =>
    isAsciiAlnum first && isAsciiAlnum last && cs.all fun c => isAsciiAlnum c || c == '-'
  | _, _ => false

def isTaskTypeChar (c : Char) : Bool := isAsciiAlnum c || c == '_' || c == '.' || c == '-'

def isTaskIdChar (c : Char) : Bool := isTaskTypeChar c || c == '@'

def isTaskUserChar (c : Char) : Bool := isTaskIdChar c || c == '!'

/-- The node of a text that `_UPID` matches in full.  No field of the pattern contains a colon, so
the fields are those between the colons. -/
def upidNode (cs : List Char) : Option (List Char) :=
  match splitChars ':' cs with
  | [mark, node, pid, pstart, start, type, id, user, rest] =>
    if mark = "UPID".toList ∧ isNodeName node ∧ allIn isHexDigit 8 8 pid ∧
        allIn isHexDigit 8 9 pstart ∧ allIn isHexDigit 8 8 start ∧ type.all isTaskTypeChar ∧
        type ≠ [] ∧ id.all isTaskIdChar ∧ user.all isTaskUserChar ∧ user ≠ [] ∧ rest = [] then
      some node
    else none
  | _ => none

/-- `task_node`, on a string. -/
def taskNode (upid : String) : Option String :=
  if upid.toList.length > 512 then none
  else if hasDotDot upid.toList then none
  else (upidNode upid.toList).map String.ofList

/-- `task_node`, on any value of the answer. -/
def taskNodeOf : Option Json → Option (String × String)
  | some (.str upid) => (taskNode upid).map fun node => (upid, node)
  | _ => none

/-! ### The acknowledgement of a write -/

/-- `ACTIONS` of `hypervisor_certificates.py`: the feature of an action. -/
def Certificate.actionFeature : String → Option String
  | "upload" => some "proxmox.node.certificate_upload"
  | "delete" => some "proxmox.node.certificate_delete"
  | "renew" => some "proxmox.node.acme_renew"
  | _ => none

/-- `ACTIONS` of `hypervisor_cluster_operations.py`: the feature of an action. -/
def Cluster.actionFeature : String → Option String
  | "node.reboot" => some "proxmox.node.reboot"
  | "node.shutdown" => some "proxmox.node.shutdown"
  | "ha.resource.create" => some "proxmox.ha.resource"
  | "ha.resource.delete" => some "proxmox.ha.resource"
  | "ha.group.create" => some "proxmox.ha.group"
  | "ha.group.delete" => some "proxmox.ha.group"
  | _ => none

/-- `_REQUIRED_TASK_FEATURES`. -/
def requiredTaskFeatures : List String :=
  ["proxmox.storage.delete_volume", "proxmox.storage.upload", "proxmox.vm.create",
   "proxmox.container.create", "proxmox.snapshot.create", "proxmox.snapshot.delete",
   "proxmox.snapshot.rollback", "proxmox.backup.run", "proxmox.backup.restore",
   "proxmox.vm.destroy", "proxmox.container.destroy", "proxmox.vm.clone", "proxmox.vm.migrate",
   "proxmox.container.clone", "proxmox.container.migrate", "proxmox.vm.start", "proxmox.vm.stop",
   "proxmox.vm.shutdown", "proxmox.vm.reboot", "proxmox.vm.suspend", "proxmox.vm.resume",
   "proxmox.container.start", "proxmox.container.stop", "proxmox.container.shutdown",
   "proxmox.container.reboot"]

/-- An observation that names no provider task. -/
def untracked (status : TaskStatus) (detail : String) : ProviderTask :=
  { id := none, node := none, status, detail := .str detail, checkedAt := none, finishedAt := none }

/-- An observation of the task `upid` on `node`, not yet polled. -/
def tracked (upid node : String) (detail : Json) : ProviderTask :=
  { id := some upid, node := some node, status := .pending, detail, checkedAt := none,
    finishedAt := none }

/-- The members of an answer that is an object. -/
def members : Json → Option Dict
  | .obj d => some d
  | _ => none

/-- A key of an answer that is an object. -/
def field (data : Json) (key : String) : Option Json := (members data).bind (get · key)

/-- The string under a key of an answer. -/
def textField (data : Json) (key : String) : Option String :=
  match field data key with
  | some (.str s) => some s
  | _ => none

/-- `accepted_readback` of `hypervisor_guest_changes.py`.  Testing a list or an object for
membership in the set of statuses raises `TypeError`. -/
def acceptedReadback (feature : String) (data : Json) (now : Time) :
    Except String (Option ProviderTask) :=
  if feature ∉ Guest.features then .ok none
  else
    match field data "guest_change" with
    | some (.obj result) =>
      match get result "status" with
      | some (.str "succeeded") =>
        .ok (some { id := none, node := none, status := .succeeded,
                    detail := (get result "detail").getD .null, checkedAt := some now,
                    finishedAt := some now })
      | some (.str "pending") =>
        .ok (some { id := none, node := none, status := .pending,
                    detail := (get result "detail").getD .null, checkedAt := some now,
                    finishedAt := none })
      | some (.arr _) | some (.obj _) => .error "TypeError"
      | _ => .ok none
    | _ => .ok none

/-- `candidate` of `accepted_task`: the `upid` slot of an object, or the answer itself. -/
def taskSlot (data : Json) : Option Json :=
  match members data with
  | some d => get d "upid"
  | none => some data

/-- A string that starts like a task identity. -/
def looksLikeTask : Option Json → Bool
  | some (.str s) => startsWith s "UPID:"
  | _ => false

/-- `accepted_task`: what to observe after an acknowledged write, if anything. -/
def acceptedTask (feature : String) (response : Dict) (now : Time) :
    Except String (Option ProviderTask) :=
  if !startsWith feature "proxmox." then .ok none
  else
    let data := (get response "data").getD (.obj response)
    if feature = Firewall.feature then
      match textField data "firewall_operation" with
      | some operation =>
        if operation ∈ ["create", "update", "delete", "move", "options"] then
          .ok (some (untracked .pending "firewall_awaiting_configuration_readback"))
        else .ok (some (untracked .unknown "invalid_firewall_acknowledgement"))
      | none => .ok (some (untracked .unknown "invalid_firewall_acknowledgement"))
    else if feature = TaskStop.feature then
      match taskNodeOf (field data "task_stop") with
      | some (upid, node) =>
        if field data "node" = some (.str node) then
          .ok (some (tracked upid node (.str "task_stop_awaiting_observation")))
        else .ok (some (untracked .unknown "invalid_task_stop_acknowledgement"))
      | none => .ok (some (untracked .unknown "invalid_task_stop_acknowledgement"))
    else
      match taskNodeOf (taskSlot data) with
      | some (upid, node) => .ok (some (tracked upid node .null))
      | none =>
        if feature = BackupJob.feature then
          match textField data "backup_job" with
          | some action =>
            if action ∈ ["create", "update", "delete"] then
              .ok (some (untracked .pending "backup_job_awaiting_configuration_readback"))
            else .ok (some (untracked .unknown "invalid_backup_job_acknowledgement"))
          | none => .ok (some (untracked .unknown "invalid_backup_job_acknowledgement"))
        else if feature ∈ Certificate.features then
          match textField data "certificate_operation" with
          | some action =>
            if action ∈ ["upload", "delete"] ∧ Certificate.actionFeature action = some feature then
              .ok (some (untracked .pending "certificate_awaiting_readback"))
            else .ok (some (untracked .unknown "invalid_certificate_acknowledgement"))
          | none => .ok (some (untracked .unknown "invalid_certificate_acknowledgement"))
        else if feature ∈ Cluster.features then
          match textField data "cluster_operation" with
          | some action =>
            if Cluster.actionFeature action = some feature then
              if startsWith action "node." then
                .ok (some (untracked .unknown "node_power_requires_manual_verification"))
              else .ok (some (untracked .pending "ha_configuration_awaiting_readback"))
            else .ok (some (untracked .unknown "invalid_cluster_acknowledgement"))
          | none => .ok (some (untracked .unknown "invalid_cluster_acknowledgement"))
        else
          match acceptedReadback feature data now with
          | .error e => .error e
          | .ok (some verified) => .ok (some verified)
          | .ok none =>
            if feature ∈ requiredTaskFeatures ∨ field data "upid" ≠ none ∨
                looksLikeTask (taskSlot data) then
              .ok (some (untracked .unknown "invalid_task_id"))
            else .ok none

/-- A task whose node is the one its identity names; without an identity there is no node. -/
def Identified (task : ProviderTask) : Prop :=
  task.node = task.id.bind taskNode ∧ task.node.isSome = task.id.isSome

instance (task : ProviderTask) : Decidable (Identified task) :=
  inferInstanceAs (Decidable (_ ∧ _))

theorem Identified.taskNode {task : ProviderTask} (h : Identified task) {upid : String}
    (known : task.id = some upid) : ∃ node, task.node = some node ∧ taskNode upid = some node := by
  obtain ⟨same, shape⟩ := h
  rw [known] at same shape
  obtain ⟨node, hn⟩ := Option.isSome_iff_exists.mp shape
  exact ⟨node, hn, same.symm.trans hn⟩

theorem identified_untracked (status : TaskStatus) (detail : String) :
    Identified (untracked status detail) := ⟨rfl, rfl⟩

theorem identified_tracked {upid node : String} (detail : Json) (h : taskNode upid = some node) :
    Identified (tracked upid node detail) := ⟨h.symm, rfl⟩

theorem taskNodeOf_some {value : Option Json} {upid node : String}
    (h : taskNodeOf value = some (upid, node)) : taskNode upid = some node := by
  unfold taskNodeOf at h
  split at h
  · obtain ⟨found, hf, same⟩ := Option.map_eq_some_iff.mp h
    obtain ⟨rfl, rfl⟩ := Prod.mk.inj same
    exact hf
  · simp at h

/-- The tasks of an answer, where it has one, are identified. -/
def OnlyIdentified (answer : Except String (Option ProviderTask)) : Prop :=
  ∀ task, answer = .ok (some task) → Identified task

theorem onlyIdentified_error (e : String) : OnlyIdentified (.error e) := by
  intro task h
  simp at h

theorem onlyIdentified_none : OnlyIdentified (.ok none) := by
  intro task h
  simp at h

theorem onlyIdentified_some {task : ProviderTask} (h : Identified task) :
    OnlyIdentified (.ok (some task)) := by
  intro found same
  simp only [Except.ok.injEq, Option.some.injEq] at same
  exact same ▸ h

theorem acceptedReadback_identified (feature : String) (data : Json) (now : Time) :
    OnlyIdentified (acceptedReadback feature data now) := by
  unfold acceptedReadback
  split
  · exact onlyIdentified_none
  · split
    · split
      · exact onlyIdentified_some ⟨rfl, rfl⟩
      · exact onlyIdentified_some ⟨rfl, rfl⟩
      · exact onlyIdentified_error _
      · exact onlyIdentified_error _
      · exact onlyIdentified_none
    · exact onlyIdentified_none

theorem acceptedTask_identified (feature : String) (response : Dict) (now : Time) :
    OnlyIdentified (acceptedTask feature response now) := by
  have plain (status : TaskStatus) (detail : String) :
      OnlyIdentified (.ok (some (untracked status detail))) :=
    onlyIdentified_some (identified_untracked status detail)
  unfold acceptedTask
  split
  · exact onlyIdentified_none
  · dsimp only
    split
    · -- firewall
      split <;> try split
      all_goals exact plain _ _
    · split
      · -- task stop
        split
        · rename_i upid node found
          split
          · exact onlyIdentified_some (identified_tracked _ (taskNodeOf_some found))
          · exact plain _ _
        · exact plain _ _
      · split
        · rename_i upid node found
          exact onlyIdentified_some (identified_tracked _ (taskNodeOf_some found))
        · split
          · -- backup job
            split <;> try split
            all_goals exact plain _ _
          · split
            · -- certificates
              split <;> try split
              all_goals exact plain _ _
            · split
              · -- cluster operations
                split <;> try split
                all_goals first | exact plain _ _ | (split <;> exact plain _ _)
              · have readback := acceptedReadback_identified feature
                  ((get response "data").getD (.obj response)) now
                split
                · exact onlyIdentified_error _
                · rename_i verified found
                  exact onlyIdentified_some (readback verified found)
                · split
                  · exact plain _ _
                  · exact onlyIdentified_none

end FreeSdn.Proxmox
