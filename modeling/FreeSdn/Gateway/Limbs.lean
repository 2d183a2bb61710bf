import FreeSdn.Gateway.Vlans
import Mathlib.Data.List.Sort
import Mathlib.Data.String.Basic

/-! The push of canonical VLANs to the limb devices of a site (`distribute_to_limbs` of
`services/reconciliation_service.py`): one push for each limb and VLAN, sorted by how it ends, and the list
of failed devices from which the push is retried. -/

namespace FreeSdn.Gateway

/-! ### One distribution -/

/-- How a push ends: the device's result, by its success, or an exception, by the name of its type. -/
inductive Push
  | returned (success : Bool)
  | raised (kind : String)
  deriving DecidableEq

structure PushDetail where
  deviceId : Uuid
  deviceType : String
  vlanId : Int
  vlanName : String
  action : String
  error : Option String
  deriving DecidableEq

/-- `DistributeResult`. -/
structure DistributeResult where
  distributed : Nat
  skipped : Nat
  failed : Nat
  details : List PushDetail
  errors : List String
  partialFailure : Bool
  failedDevices : List Uuid
  deriving DecidableEq

/-- The result so far and the set of devices with a failed push. -/
structure Distributing where
  result : DistributeResult
  failedDeviceIds : List Uuid

variable (push : Assignment → Vlan → Push)

/-- The detail of one push. -/
def pushDetail (dryRun : Bool) (limb : Assignment) (vlan : Vlan) : PushDetail :=
  let detail := fun action error =>
    ⟨limb.deviceId, limb.deviceType, vlan.vlanId, vlan.name, action, error⟩
  if dryRun then detail "would_create" none
  else
    match push limb vlan with
    | .returned true => detail "created" none
    | .returned false => detail "skipped" none
    | .raised kind => detail "failed" (some kind)

def pushVlan (dryRun : Bool) (limb : Assignment) (p : Distributing) (vlan : Vlan) : Distributing :=
  let r := { p.result with details := p.result.details ++ [pushDetail push dryRun limb vlan] }
  if dryRun then { p with result := { r with distributed := r.distributed + 1 } }
  else
    match push limb vlan with
    | .returned true => { p with result := { r with distributed := r.distributed + 1 } }
    | .returned false => { p with result := { r with skipped := r.skipped + 1 } }
    | .raised _ =>
      { result := { r with failed := r.failed + 1 }
        failedDeviceIds := p.failedDeviceIds.insert limb.deviceId }

/-- The canonical VLANs to distribute; no list and an empty one stand for all. -/
def chosenVlans (m : RoleMap) (org : Uuid) (t : Table) (vlanIds : Option (List Int)) : List Vlan :=
  let rows := t.live m.siteId org
  match vlanIds with
  | some (n :: ns) => rows.filter fun v => v.vlanId ∈ n :: ns
  | _ => rows

/-- The limbs to push to; no list and an empty one stand for all. -/
def chosenLimbs (m : RoleMap) (deviceIds : Option (List Uuid)) : List Assignment :=
  match deviceIds with
  | some (d :: ds) => m.limbs.filter fun a => a.deviceId ∈ d :: ds
  | _ => m.limbs

def noResult : DistributeResult := ⟨0, 0, 0, [], [], false, []⟩

/-- `distribute_to_limbs`. -/
def distributeToLimbs (m : RoleMap) (org : Uuid) (t : Table) (vlanIds : Option (List Int))
    (deviceIds : Option (List Uuid)) (dryRun : Bool) : DistributeResult :=
  match chosenVlans m org t vlanIds with
  | [] => { noResult with errors := ["No canonical VLANs to distribute"] }
  | vlans =>
    match chosenLimbs m deviceIds with
    | [] => { noResult with errors := ["No limb devices assigned"] }
    | limbs =>
      let p := limbs.foldl (fun p limb => vlans.foldl (pushVlan push dryRun limb) p) ⟨noResult, []⟩
      if p.failedDeviceIds = [] then p.result
      else
        { p.result with
          partialFailure := true
          failedDevices := p.failedDeviceIds.insertionSort (· ≤ ·) }

/-! ### The pushes of a distribution -/

variable {push} {m : RoleMap} {org : Uuid} {t : Table} {vlanIds : Option (List Int)}
  {deviceIds : Option (List Uuid)} {p : Distributing}

/-- The pushes, in order. -/
def pushes (limbs : List Assignment) (vlans : List Vlan) : List (Assignment × Vlan) :=
  limbs.flatMap fun limb => vlans.map fun vlan => (limb, vlan)

theorem mem_pushes {limbs : List Assignment} {vlans : List Vlan} {x : Assignment × Vlan} :
    x ∈ pushes limbs vlans ↔ x.1 ∈ limbs ∧ x.2 ∈ vlans := by
  unfold pushes
  rw [List.mem_flatMap]
  constructor
  · rintro ⟨limb, here, mem⟩
    obtain ⟨vlan, there, rfl⟩ := List.mem_map.mp mem
    exact ⟨here, there⟩
  · rintro ⟨here, there⟩
    exact ⟨x.1, here, List.mem_map_of_mem there⟩

theorem length_pushes (limbs : List Assignment) (vlans : List Vlan) :
    (pushes limbs vlans).length = limbs.length * vlans.length := by
  induction limbs with
  | nil => rw [List.length_nil, Nat.zero_mul]; rfl
  | cons limb limbs ih =>
    unfold pushes at ih ⊢
    rw [List.flatMap_cons, List.length_append, ih, List.length_map, List.length_cons,
      Nat.succ_mul, Nat.add_comm]

def Push.accepted : Push → Bool
  | .returned success => success
  | .raised _ => false

def Push.isRaised : Push → Bool
  | .raised _ => true
  | .returned _ => false

/-- What one push makes of the result. -/
theorem pushVlan_parts (push : Assignment → Vlan → Push) (dryRun : Bool) (p : Distributing)
    (x : Assignment × Vlan) :
    let q := pushVlan push dryRun x.1 p x.2
    q.result.distributed + q.result.skipped + q.result.failed =
        p.result.distributed + p.result.skipped + p.result.failed + 1 ∧
      q.result.details = p.result.details ++ [pushDetail push dryRun x.1 x.2] ∧
      q.result.partialFailure = p.result.partialFailure ∧
      q.result.failedDevices = p.result.failedDevices ∧
      q.failedDeviceIds = if !dryRun && (push x.1 x.2).isRaised then
        p.failedDeviceIds.insert x.1.deviceId else p.failedDeviceIds := by
  unfold pushVlan
  cases dryRun with
  | true =>
    simp only [if_true, Bool.not_true, Bool.false_and, Bool.false_eq_true, if_false]
    refine ⟨by omega, trivial, trivial, trivial, trivial⟩
  | false =>
    cases push x.1 x.2 with
    | returned success =>
      cases success
      · exact ⟨by simp only [Bool.false_eq_true, if_false]; omega, rfl, rfl, rfl, rfl⟩
      · exact ⟨by simp only [Bool.false_eq_true, if_false]; omega, rfl, rfl, rfl, rfl⟩
    | raised kind =>
      exact ⟨by simp only [Bool.false_eq_true, if_false]; omega, rfl, rfl, rfl, rfl⟩

/-- What all pushes make of the result. -/
theorem pushVlans_parts (push : Assignment → Vlan → Push) (dryRun : Bool)
    (xs : List (Assignment × Vlan)) (p : Distributing) :
    let q := xs.foldl (fun p x => pushVlan push dryRun x.1 p x.2) p
    q.result.distributed + q.result.skipped + q.result.failed =
        p.result.distributed + p.result.skipped + p.result.failed + xs.length ∧
      q.result.details = p.result.details ++ xs.map (fun x => pushDetail push dryRun x.1 x.2) ∧
      q.result.partialFailure = p.result.partialFailure ∧
      q.result.failedDevices = p.result.failedDevices ∧
      ∀ id, id ∈ q.failedDeviceIds ↔ id ∈ p.failedDeviceIds ∨
        ∃ x ∈ xs, dryRun = false ∧ (push x.1 x.2).isRaised = true ∧ x.1.deviceId = id := by
  induction xs generalizing p with
  | nil => exact ⟨rfl, (List.append_nil _).symm, rfl, rfl, fun id => by simp⟩
  | cons x xs ih =>
    obtain ⟨counts, details, failure, devices, ids⟩ := ih (pushVlan push dryRun x.1 p x.2)
    obtain ⟨counts', details', failure', devices', ids'⟩ :=
      pushVlan_parts push dryRun p x
    simp only [List.foldl_cons, List.length_cons, List.map_cons]
    refine ⟨by omega, ?_, failure.trans failure', devices.trans devices', fun id => ?_⟩
    · rw [details, details', List.append_assoc]
      rfl
    · rw [ids, ids']
      cases dryRun with
      | true => simp
      | false =>
        cases raised : (push x.1 x.2).isRaised with
        | true =>
          simp only [Bool.not_false, Bool.and_self, if_true, List.mem_insert_iff,
            List.exists_mem_cons_iff, raised, true_and]
          rw [eq_comm (a := id), or_comm (a := x.1.deviceId = id), or_assoc]
        | false => simp [raised]

theorem nested_fold (dryRun : Bool) (limbs : List Assignment) (vlans : List Vlan)
    (p : Distributing) :
    limbs.foldl (fun p limb => vlans.foldl (pushVlan push dryRun limb) p) p =
      (pushes limbs vlans).foldl (fun p x => pushVlan push dryRun x.1 p x.2) p := by
  rw [pushes, List.foldl_flatMap]
  simp only [List.foldl_map]

/-- A distribution by its pushes. -/
theorem distribute_parts (push : Assignment → Vlan → Push) (m : RoleMap) (org : Uuid) (t : Table)
    (vlanIds : Option (List Int)) (deviceIds : Option (List Uuid)) (dryRun : Bool) :
    let r := distributeToLimbs push m org t vlanIds deviceIds dryRun
    let xs := pushes (chosenLimbs m deviceIds) (chosenVlans m org t vlanIds)
    r.distributed + r.skipped + r.failed = xs.length ∧
      r.details = xs.map (fun x => pushDetail push dryRun x.1 x.2) ∧
      (r.partialFailure = true ↔ r.failedDevices ≠ []) ∧
      ∀ id, id ∈ r.failedDevices ↔
        ∃ x ∈ xs, dryRun = false ∧ (push x.1 x.2).isRaised = true ∧ x.1.deviceId = id := by
  unfold distributeToLimbs
  cases chosenVlans m org t vlanIds with
  | nil =>
    have none : pushes (chosenLimbs m deviceIds) [] = [] := by simp [pushes]
    simp [none, noResult]
  | cons vlan vlans =>
    cases chosenLimbs m deviceIds with
    | nil => simp [pushes, noResult]
    | cons limb limbs =>
      simp only
      rw [nested_fold]
      obtain ⟨counts, details, failure, devices, ids⟩ := pushVlans_parts push dryRun
        (pushes (limb :: limbs) (vlan :: vlans)) ⟨noResult, []⟩
      generalize (pushes (limb :: limbs) (vlan :: vlans)).foldl _ _ = q at *
      by_cases none : q.failedDeviceIds = []
      · rw [if_pos none]
        rw [none] at ids
        refine ⟨by simpa [noResult] using counts, by simpa [noResult] using details, ?_, ?_⟩
        · rw [failure, devices]
          simp [noResult]
        · intro id
          rw [devices]
          exact (ids id).trans (or_iff_right List.not_mem_nil)
      · rw [if_neg none]
        refine ⟨by simpa [noResult] using counts, by simpa [noResult] using details, ?_, ?_⟩
        · refine iff_of_true rfl fun empty => none ?_
          have perm := List.perm_insertionSort (· ≤ ·) q.failedDeviceIds
          rw [show List.insertionSort (· ≤ ·) q.failedDeviceIds = [] from empty] at perm
          exact perm.nil_eq.symm
        · intro id
          rw [List.mem_insertionSort, ids]
          exact or_iff_right List.not_mem_nil

/-! ### Retries -/

/-- The device has a limb with a push that was not accepted. -/
def Incomplete (push : Assignment → Vlan → Push) (limbs : List Assignment) (vlans : List Vlan)
    (id : Uuid) : Prop :=
  ∃ limb ∈ limbs, limb.deviceId = id ∧ ∃ vlan ∈ vlans, (push limb vlan).accepted = false

/-- The distribution tells of every push that was not accepted, and a retry with its failed devices
pushes to the devices with such a push and to no other, however the pushes of the retry end. -/
def Retries (push : Assignment → Vlan → Push) (m : RoleMap) (org : Uuid) (t : Table)
    (vlanIds : Option (List Int)) (deviceIds : Option (List Uuid)) : Prop :=
  let limbs := chosenLimbs m deviceIds
  let vlans := chosenVlans m org t vlanIds
  let r := distributeToLimbs push m org t vlanIds deviceIds false
  (r.partialFailure = true ↔
    ∃ limb ∈ limbs, ∃ vlan ∈ vlans, (push limb vlan).accepted = false) ∧
  (∀ id, id ∈ r.failedDevices ↔ Incomplete push limbs vlans id) ∧
  r.distributed + r.skipped + r.failed = limbs.length * vlans.length ∧
  ∀ (again : Assignment → Vlan → Push) (id : Uuid),
    (∃ detail ∈ (distributeToLimbs again m org t vlanIds (some r.failedDevices) false).details,
      detail.deviceId = id) ↔ Incomplete push limbs vlans id

/-- Every device with a refused push has one that raises as well, and some push raises unless there is
nothing to push at all. -/
def RaisesTell (push : Assignment → Vlan → Push) (m : RoleMap) (org : Uuid) (t : Table)
    (vlanIds : Option (List Int)) (deviceIds : Option (List Uuid)) : Prop :=
  let limbs := chosenLimbs m deviceIds
  let vlans := chosenVlans m org t vlanIds
  (∀ limb ∈ limbs, ∀ vlan ∈ vlans, push limb vlan = .returned false →
    ∃ other ∈ limbs, other.deviceId = limb.deviceId ∧
      ∃ vlan ∈ vlans, (push other vlan).isRaised = true) ∧
  (vlans = [] ∨ m.limbs = [] ∨ ∃ limb ∈ limbs, ∃ vlan ∈ vlans, (push limb vlan).isRaised = true)

theorem accepted_of_raised {x : Push} (h : x.isRaised = true) : x.accepted = false := by
  cases x with
  | returned success => cases h
  | raised kind => rfl

theorem chosenLimbs_limb {limb : Assignment} (h : limb ∈ chosenLimbs m deviceIds) :
    limb ∈ m.limbs := by
  unfold chosenLimbs at h
  split at h
  · exact (List.mem_filter.mp h).1
  · exact h

theorem mem_chosenLimbs {ids : List Uuid} (some : ids ≠ []) {limb : Assignment} :
    limb ∈ chosenLimbs m (.some ids) ↔ limb ∈ m.limbs ∧ limb.deviceId ∈ ids := by
  cases ids with
  | nil => exact absurd rfl some
  | cons id ids =>
    unfold chosenLimbs
    rw [List.mem_filter, decide_eq_true_eq]

/-- The devices that a distribution pushes to. -/
theorem pushed_iff {id : Uuid} :
    (∃ detail ∈ (distributeToLimbs push m org t vlanIds deviceIds false).details,
        detail.deviceId = id) ↔
      chosenVlans m org t vlanIds ≠ [] ∧ ∃ limb ∈ chosenLimbs m deviceIds, limb.deviceId = id := by
  obtain ⟨-, details, -⟩ := distribute_parts push m org t vlanIds deviceIds false
  rw [details]
  have own : ∀ x : Assignment × Vlan, (pushDetail push false x.1 x.2).deviceId = x.1.deviceId := by
    intro x
    unfold pushDetail
    cases push x.1 x.2 with
    | returned success => cases success <;> rfl
    | raised kind => rfl
  constructor
  · rintro ⟨detail, mem, same⟩
    obtain ⟨x, there, rfl⟩ := List.mem_map.mp mem
    obtain ⟨limb, vlan⟩ := mem_pushes.mp there
    exact ⟨List.ne_nil_of_mem vlan, x.1, limb, (own x).symm.trans same⟩
  · rintro ⟨some, limb, mem, rfl⟩
    obtain ⟨vlan, there⟩ := List.exists_mem_of_ne_nil _ some
    exact ⟨_, List.mem_map_of_mem (mem_pushes.mpr ⟨mem, there⟩), own (limb, vlan)⟩

/-- The failed devices are those with a push that raises. -/
theorem mem_failedDevices {id : Uuid} :
    id ∈ (distributeToLimbs push m org t vlanIds deviceIds false).failedDevices ↔
      ∃ limb ∈ chosenLimbs m deviceIds, limb.deviceId = id ∧
        ∃ vlan ∈ chosenVlans m org t vlanIds, (push limb vlan).isRaised = true := by
  obtain ⟨-, -, -, ids⟩ := distribute_parts push m org t vlanIds deviceIds false
  rw [ids]
  constructor
  · rintro ⟨x, mem, -, raised, same⟩
    obtain ⟨limb, vlan⟩ := mem_pushes.mp mem
    exact ⟨x.1, limb, same, x.2, vlan, raised⟩
  · rintro ⟨limb, mem, same, vlan, there, raised⟩
    exact ⟨(limb, vlan), mem_pushes.mpr ⟨mem, there⟩, rfl, raised, same⟩

/-- A distribution tells of every push that was not accepted and its failed devices name those to retry,
exactly when exceptions tell of the refusals. -/
theorem retries_iff (push : Assignment → Vlan → Push) (m : RoleMap) (org : Uuid) (t : Table)
    (vlanIds : Option (List Int)) (deviceIds : Option (List Uuid)) :
    Retries push m org t vlanIds deviceIds ↔ RaisesTell push m org t vlanIds deviceIds := by
  obtain ⟨counts, -, failure, -⟩ := distribute_parts push m org t vlanIds deviceIds false
  have failed := fun id => @mem_failedDevices push m org t vlanIds deviceIds id
  constructor
  · rintro ⟨-, devices, -, retry⟩
    refine ⟨fun limb mem vlan there refused => ?_, ?_⟩
    · exact (failed _).mp ((devices _).mpr ⟨limb, mem, rfl, vlan, there, by rw [refused]; rfl⟩)
    · by_contra none
      push Not at none
      obtain ⟨some, limbs, quiet⟩ := none
      -- Nothing raises: the list of failed devices is empty, which the retry takes for all limbs.
      have empty : (distributeToLimbs push m org t vlanIds deviceIds false).failedDevices = [] := by
        refine List.eq_nil_iff_forall_not_mem.mpr fun id mem => ?_
        obtain ⟨limb, here, -, vlan, there, raised⟩ := (failed id).mp mem
        exact quiet limb here vlan there raised
      obtain ⟨limb, mem⟩ := List.exists_mem_of_ne_nil _ limbs
      have pushed := (retry push limb.deviceId).mp
        (pushed_iff.mpr ⟨some, limb, by rw [empty]; exact mem, rfl⟩)
      rw [← devices, empty] at pushed
      exact List.not_mem_nil pushed
  · rintro ⟨tell, occasion⟩
    have devices : ∀ id, id ∈ (distributeToLimbs push m org t vlanIds deviceIds false).failedDevices ↔
        Incomplete push (chosenLimbs m deviceIds) (chosenVlans m org t vlanIds) id := by
      intro id
      rw [failed]
      constructor
      · rintro ⟨limb, mem, same, vlan, there, raised⟩
        exact ⟨limb, mem, same, vlan, there, accepted_of_raised raised⟩
      · rintro ⟨limb, mem, rfl, vlan, there, without⟩
        cases outcome : push limb vlan with
        | raised kind => exact ⟨limb, mem, rfl, vlan, there, by rw [outcome]; rfl⟩
        | returned success =>
          rw [outcome] at without
          obtain rfl : success = false := without
          exact tell limb mem vlan there outcome
    refine ⟨?_, devices, counts.trans (length_pushes _ _), fun again id => ?_⟩
    · rw [failure]
      constructor
      · intro some
        obtain ⟨id, mem⟩ := List.exists_mem_of_ne_nil _ some
        obtain ⟨limb, here, -, rest⟩ := (devices id).mp mem
        exact ⟨limb, here, rest⟩
      · rintro ⟨limb, here, rest⟩
        exact List.ne_nil_of_mem ((devices limb.deviceId).mpr ⟨limb, here, rfl, rest⟩)
    · rw [pushed_iff, ← devices]
      constructor
      · rintro ⟨some, limb, mem, rfl⟩
        obtain ⟨other, here, vlan, there, raised⟩ :=
          (occasion.resolve_left some).resolve_left (List.ne_nil_of_mem (chosenLimbs_limb mem))
        have one := (failed other.deviceId).mpr ⟨other, here, rfl, vlan, there, raised⟩
        exact ((mem_chosenLimbs (List.ne_nil_of_mem one)).mp mem).2
      · intro mem
        obtain ⟨limb, here, same, vlan, there, -⟩ := (failed id).mp mem
        exact ⟨List.ne_nil_of_mem there, limb,
          (mem_chosenLimbs (List.ne_nil_of_mem mem)).mpr ⟨chosenLimbs_limb here, same ▸ mem⟩, same⟩

def switch : Assignment := gatewayDevice "b" "sw" .limb false

def lanVlan : Vlan where
  id := "vlan"
  organizationId := "org"
  siteId := "site"
  deleted := false
  vlanId := 10
  name := "lan"
  subnet := "10.0.10.0/24"
  gatewayIp := "10.0.10.1"
  dhcpEnabled := false
  dhcpRangeStart := none
  dhcpRangeEnd := none
  sourceDeviceId := none
  managementState := "managed"
  purpose := "general"
  externalIds := []

/-- A limb that refuses the push of the one VLAN does not count as failed. -/
theorem refusal_untold :
    ¬ Retries (fun _ _ => .returned false) ⟨"site", [switch]⟩ "org" ⟨[lanVlan], by decide⟩ none
      none := by
  rintro ⟨failure, -⟩
  have told : (distributeToLimbs (fun _ _ => .returned false) ⟨"site", [switch]⟩ "org"
      ⟨[lanVlan], by decide⟩ none none false).partialFailure = false := rfl
  rw [told] at failure
  cases failure.mpr ⟨switch, List.mem_cons_self, lanVlan, List.mem_cons_self, rfl⟩

end FreeSdn.Gateway
