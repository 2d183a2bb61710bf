import FreeSdn.Lib.Json
import FreeSdn.Lib.Table
import FreeSdn.Lib.Text

/-! The staged change (`models/staging.py`), the families of reviewed hypervisor operations, and
when a change counts as active. -/

namespace FreeSdn.Staging

open FreeSdn.Lib

/-- A UUID, as the number it writes. -/
abbrev Uuid := Nat

/-- Microseconds since the epoch. -/
abbrev Time := Nat

def seconds (n : Nat) : Time := n * 1000000

structure HttpError where
  status : Nat
  detail : String
  deriving DecidableEq, Repr

/-- `d.get(key)`, with `none` for a missing key. -/
def get (d : Dict) (key : String) : Option Json := (d.find? fun m => m.1 = key).map (·.2)

/-- `key in d`. -/
def hasKey (d : Dict) (key : String) : Bool := (get d key).isSome

/-- Python's truth value of a JSON value. -/
def truthy : Json → Bool
  | .null => false
  | .bool b => b
  | .int n => n != 0
  | .float t => t.chars != "0.0".toList && t.chars != "-0.0".toList
  | .str s => s != ""
  | .arr items => !items.isEmpty
  | .obj members => !members.isEmpty

/-- `AdapterPendingChange.status`. -/
inductive Status
  | pending | applying | applied | discarded | failed | reconciliationRequired
  deriving DecidableEq, Repr

def Status.text : Status → String
  | .pending => "pending"
  | .applying => "applying"
  | .applied => "applied"
  | .discarded => "discarded"
  | .failed => "failed"
  | .reconciliationRequired => "reconciliation_required"

/-- `provider_task["status"]`. -/
inductive TaskStatus
  | pending | running | unknown | succeeded | warnings | failed
  deriving DecidableEq, Repr

/-- `_TERMINAL` of `proxmox_task_tracking.py`. -/
def TaskStatus.terminal : TaskStatus → Bool
  | .succeeded | .warnings | .failed => true
  | _ => false

/-- `AdapterPendingChange.provider_task`: a missing key and a null value read the same. -/
structure ProviderTask where
  id : Option String
  node : Option String
  status : TaskStatus
  detail : Json
  checkedAt : Option Time
  finishedAt : Option Time
  deriving DecidableEq

/-- The columns of `AdapterPendingChange` that the staging service reads or writes. -/
structure PendingChange where
  id : Uuid
  organizationId : Uuid
  controllerId : Option Uuid
  siteId : Option Uuid
  feature : String
  operation : String
  targetId : Option String
  payload : Dict
  status : Status
  appliedAt : Option Time
  appliedResponse : Option Dict
  providerTask : Option ProviderTask
  nextPollAt : Option Time
  failureReason : Option String
  createdBy : Option Uuid
  updatedBy : Option Uuid
  updatedAt : Time
  deriving DecidableEq

instance : Keyed PendingChange Uuid := ⟨PendingChange.id⟩

@[simp] theorem key_change (c : PendingChange) : Keyed.key c = c.id := rfl

/-! ### The reviewed operation families -/

namespace Firewall

/-- `FEATURE` of `hypervisor_firewall_operations.py`. -/
def feature : String := "proxmox.firewall.operation"

/-- `LEGACY_FEATURES` of `hypervisor_firewall_operations.py`. -/
def legacyFeatures : List String :=
  ["proxmox.firewall.cluster_rule", "proxmox.firewall.guest_rule", "proxmox.firewall.guest_options",
   "proxmox.cluster.firewall_options"]

end Firewall

/-- `FEATURE` of `hypervisor_task_control.py`. -/
def TaskStop.feature : String := "proxmox.cluster.task_stop"

/-- `FEATURE` of `hypervisor_backup_jobs.py`. -/
def BackupJob.feature : String := "proxmox.backup.job"

/-- `FEATURES` of `hypervisor_storage_operations.py`. -/
def Storage.features : List String := ["proxmox.storage.delete_volume", "proxmox.storage.upload"]

/-- `FEATURES` of `hypervisor_certificates.py`. -/
def Certificate.features : List String :=
  ["proxmox.node.certificate_upload", "proxmox.node.certificate_delete", "proxmox.node.acme_renew"]

/-- `FEATURES` of `hypervisor_cluster_operations.py`. -/
def Cluster.features : List String :=
  ["proxmox.node.reboot", "proxmox.node.shutdown", "proxmox.ha.resource", "proxmox.ha.group"]

/-- `FEATURES` of `hypervisor_creation.py`. -/
def Creation.features : List String := ["proxmox.vm.create", "proxmox.container.create"]

/-- `FEATURES` of `hypervisor_deletion.py`. -/
def Deletion.features : List String := ["proxmox.vm.destroy", "proxmox.container.destroy"]

/-- `_FEATURES` of `hypervisor_guest_changes.py`. -/
def Guest.features : List String :=
  ["proxmox.vm.resize_disk", "proxmox.container.resize_disk", "proxmox.vm.config",
   "proxmox.container.config", "proxmox.vm.convert_to_template"]

/-- A change of one of the features whose payload carries version 1 of the family's contract, as
an integer. -/
def isReviewed (features : List String) (version : String) (c : PendingChange) : Bool :=
  decide (c.feature ∈ features) && get c.payload version == some (.int 1)

def isReviewedFirewall : PendingChange → Bool :=
  isReviewed [Firewall.feature] "firewall_operation_version"

def isReviewedTaskStop : PendingChange → Bool := isReviewed [TaskStop.feature] "task_stop_version"

def isReviewedBackupJob : PendingChange → Bool :=
  isReviewed [BackupJob.feature] "backup_job_version"

def isReviewedStorage : PendingChange → Bool := isReviewed Storage.features "storage_version"

def isReviewedCertificate : PendingChange → Bool :=
  isReviewed Certificate.features "certificate_version"

def isReviewedClusterOperation : PendingChange → Bool :=
  isReviewed Cluster.features "cluster_operation_version"

def isReviewedCreation : PendingChange → Bool := isReviewed Creation.features "creation_version"

def isReviewedDeletion : PendingChange → Bool := isReviewed Deletion.features "deletion_version"

def isReviewedGuestChange : PendingChange → Bool := isReviewed Guest.features "guest_change_version"

/-- The disjunction that `discard` tests before it resolves an unknown observation. -/
def isReviewedOperation (c : PendingChange) : Bool :=
  isReviewedClusterOperation c || isReviewedGuestChange c || isReviewedDeletion c ||
    isReviewedCreation c || isReviewedCertificate c || isReviewedStorage c ||
    isReviewedBackupJob c || isReviewedTaskStop c || isReviewedFirewall c

/-- The nine families; no feature belongs to two of them. -/
inductive Family
  | firewall | taskStop | backupJob | storage | certificate | cluster | creation | deletion
  | guestChange
  deriving DecidableEq, Repr

/-- `is_reviewed_*` of a family. -/
def Family.reviewed : Family → PendingChange → Bool
  | .firewall => isReviewedFirewall
  | .taskStop => isReviewedTaskStop
  | .backupJob => isReviewedBackupJob
  | .storage => isReviewedStorage
  | .certificate => isReviewedCertificate
  | .cluster => isReviewedClusterOperation
  | .creation => isReviewedCreation
  | .deletion => isReviewedDeletion
  | .guestChange => isReviewedGuestChange

/-- The features of a family. -/
def Family.features : Family → List String
  | .firewall => [Firewall.feature]
  | .taskStop => [TaskStop.feature]
  | .backupJob => [BackupJob.feature]
  | .storage => Storage.features
  | .certificate => Certificate.features
  | .cluster => Cluster.features
  | .creation => Creation.features
  | .deletion => Deletion.features
  | .guestChange => Guest.features

theorem reviewed_feature {c : PendingChange} {f : Family} (h : f.reviewed c) :
    c.feature ∈ f.features := by
  cases f <;>
    · simp only [Family.reviewed, isReviewedFirewall, isReviewedTaskStop, isReviewedBackupJob,
        isReviewedStorage, isReviewedCertificate, isReviewedClusterOperation, isReviewedCreation,
        isReviewedDeletion, isReviewedGuestChange, isReviewed, Bool.and_eq_true,
        decide_eq_true_eq] at h
      exact h.1

theorem features_disjoint {f g : Family} {feature : String} (hf : feature ∈ f.features)
    (hg : feature ∈ g.features) : f = g := by
  have apart : ∀ s ∈ f.features, s ∈ g.features → f = g := by
    cases f <;> cases g <;> decide
  exact apart feature hf hg

/-- A change is reviewed in at most one family. -/
theorem reviewed_unique {c : PendingChange} {f g : Family} (hf : f.reviewed c)
    (hg : g.reviewed c) : f = g :=
  features_disjoint (reviewed_feature hf) (reviewed_feature hg)

theorem isReviewedOperation_iff {c : PendingChange} :
    isReviewedOperation c ↔ ∃ f : Family, f.reviewed c := by
  constructor
  · intro h
    simp only [isReviewedOperation, Bool.or_eq_true] at h
    rcases h with (((((((h | h) | h) | h) | h) | h) | h) | h) | h
    · exact ⟨.cluster, h⟩
    · exact ⟨.guestChange, h⟩
    · exact ⟨.deletion, h⟩
    · exact ⟨.creation, h⟩
    · exact ⟨.certificate, h⟩
    · exact ⟨.storage, h⟩
    · exact ⟨.backupJob, h⟩
    · exact ⟨.taskStop, h⟩
    · exact ⟨.firewall, h⟩
  · rintro ⟨f, h⟩
    cases f <;> simp only [Family.reviewed] at h <;> simp [isReviewedOperation, h]

/-! ### Active changes -/

def isProxmox (c : PendingChange) : Bool := startsWith c.feature "proxmox."

/-- `disruptive` of `guard_cluster_conflicts`. -/
def disruptive : List String :=
  Cluster.features ++ Certificate.features ++ Storage.features ++
    [BackupJob.feature, TaskStop.feature, Firewall.feature]

def isDisruptive (c : PendingChange) : Bool := decide (c.feature ∈ disruptive)

/-- The features that `guard_guest_conflicts` arbitrates. -/
def guestFamily : List String := Guest.features ++ Deletion.features ++ Creation.features

def isGuestOperation (c : PendingChange) : Bool := decide (c.feature ∈ guestFamily)

/-- The provider task is pending, running or unknown. -/
def openTask (c : PendingChange) : Bool :=
  match c.providerTask with
  | some task => !task.status.terminal
  | none => false

/-- The statuses that both conflict queries select: an apply in flight or of unknown outcome, or
an applied change whose provider task is not over. -/
def active (c : PendingChange) : Bool :=
  match c.status with
  | .applying | .reconciliationRequired => true
  | .applied => openTask c
  | _ => false

end FreeSdn.Staging
