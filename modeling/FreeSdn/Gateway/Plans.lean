import FreeSdn.Gateway.Vlans
import FreeSdn.Lib.OrderBy

/-! The plans of `services/distribution_service.py` that bring a canonical VLAN to the devices of a site and
take it away again: lists of steps, executed tier by tier. -/

namespace FreeSdn.Gateway

open FreeSdn.Lib
open FreeSdn.Staging (get)

/-! ### Plans -/

/-- A step; the last one of a plan has no device. -/
structure Step where
  tier : Nat
  deviceId : Option String
  action : String
  params : Dict

def optional (s : Option String) : Json := (s.map Json.str).getD .null

def verifyReachable (device : Assignment) : Step := ⟨0, some device.deviceId, "verify_reachable", []⟩

def verifyAll : Step := ⟨5, none, "verify_all", []⟩

/-- `f"vlan{vlan.vlan_id}"`. -/
def Vlan.interface (vlan : Vlan) : String := "vlan" ++ toString vlan.vlanId

/-- `f"FreeSdn_VLAN{vlan.vlan_id}_net"`. -/
def Vlan.alias (vlan : Vlan) : String := "FreeSdn_VLAN" ++ toString vlan.vlanId ++ "_net"

variable (vlan : Vlan)

def createVlanInterface (brain : Assignment) : Step :=
  ⟨1, some brain.deviceId, "create_vlan_interface",
    [("vlan_id", .int vlan.vlanId), ("name", .str vlan.name), ("subnet", .str vlan.subnet),
      ("gateway_ip", .str vlan.gatewayIp),
      ("description", .str ("[FreeSdn:managed] " ++ vlan.name))]⟩

def createDhcpScope (brain : Assignment) : Step :=
  ⟨2, some brain.deviceId, "create_dhcp_scope",
    [("interface", .str vlan.interface), ("range_start", optional vlan.dhcpRangeStart),
      ("range_end", optional vlan.dhcpRangeEnd), ("gateway", .str vlan.gatewayIp),
      ("subnet", .str vlan.subnet)]⟩

def createAlias (brain : Assignment) : Step :=
  ⟨2, some brain.deviceId, "create_alias",
    [("name", .str vlan.alias), ("type", .str "network"), ("members", .arr [.str vlan.subnet]),
      ("description", .str ("[FreeSdn:managed] " ++ vlan.name ++ " subnet"))]⟩

def createVlan (limb : Assignment) : Step :=
  ⟨3, some limb.deviceId, "create_vlan", [("vlan_id", .int vlan.vlanId), ("name", .str vlan.name)]⟩

def suppressDhcp (limb : Assignment) : Step :=
  ⟨3, some limb.deviceId, "suppress_dhcp", [("vlan_id", .int vlan.vlanId)]⟩

/-- `_build_vlan_plan`. -/
def buildVlanPlan (brain : Option Assignment) (limbs : List Assignment) : List Step :=
  brain.toList.map verifyReachable ++ limbs.map verifyReachable ++
    brain.toList.map (createVlanInterface vlan) ++
    (if vlan.dhcpEnabled then brain.toList.map (createDhcpScope vlan) else []) ++
    brain.toList.map (createAlias vlan) ++
    limbs.flatMap (fun limb =>
      createVlan vlan limb :: if limb.suppressDhcp then [suppressDhcp vlan limb] else []) ++
    [verifyAll]

def deleteVlan (limb : Assignment) : Step :=
  ⟨1, some limb.deviceId, "delete_vlan", [("vlan_id", .int vlan.vlanId)]⟩

def deleteAlias (brain : Assignment) : Step :=
  ⟨2, some brain.deviceId, "delete_alias", [("name", .str vlan.alias)]⟩

def deleteDhcpScope (brain : Assignment) : Step :=
  ⟨3, some brain.deviceId, "delete_dhcp_scope", [("interface", .str vlan.interface)]⟩

def deleteVlanInterface (brain : Assignment) : Step :=
  ⟨4, some brain.deviceId, "delete_vlan_interface", [("vlan_id", .int vlan.vlanId)]⟩

/-- `_build_retract_plan`. -/
def buildRetractPlan (brain : Option Assignment) (limbs : List Assignment) : List Step :=
  brain.toList.map verifyReachable ++ limbs.map verifyReachable ++
    limbs.map (deleteVlan vlan) ++
    brain.toList.map (deleteAlias vlan) ++
    (if vlan.dhcpEnabled then brain.toList.map (deleteDhcpScope vlan) else []) ++
    brain.toList.map (deleteVlanInterface vlan) ++
    [verifyAll]

/-- The steps in the order in which `_execute_plan` takes them: for each tier, ascending, the steps
of the tier. -/
def tierOrder (steps : List Step) : List Step := grouped Step.tier steps

/-- `action.startswith("verify")`. -/
def Step.verifies (s : Step) : Bool := "verify".toList.isPrefixOf s.action.toList

/-! ### The order of the plans -/

variable {vlan} {brain : Option Assignment} {limbs : List Assignment} {s : Step}

/-- The steps are in the order of their tiers, up to one. -/
structure Upto (n : Nat) (l : List Step) : Prop where
  sorted : l.Pairwise fun a b => a.tier ≤ b.tier
  bound : ∀ s ∈ l, s.tier ≤ n

theorem Upto.tier {n : Nat} {l : List Step} (own : ∀ s ∈ l, s.tier = n) : Upto n l where
  sorted := List.pairwise_of_forall_mem_list fun a ha b hb => by rw [own a ha, own b hb]
  bound := fun s mem => (own s mem).le

/-- Steps of one later tier may follow. -/
theorem Upto.append {n n' : Nat} {l l' : List Step} (h : Upto n l) (le : n ≤ n')
    (own : ∀ s ∈ l', s.tier = n') : Upto n' (l ++ l') where
  sorted := by
    refine List.pairwise_append.mpr ⟨h.sorted, (Upto.tier own).sorted, fun a ha b hb => ?_⟩
    rw [own b hb]
    exact (h.bound a ha).trans le
  bound := by
    intro s mem
    rcases List.mem_append.mp mem with first | second
    · exact (h.bound s first).trans le
    · exact (own s second).le

theorem map_tier {f : Assignment → Step} {n : Nat} (own : ∀ a, (f a).tier = n)
    (devices : List Assignment) : ∀ s ∈ devices.map f, s.tier = n := by
  intro s mem
  obtain ⟨a, -, rfl⟩ := List.mem_map.mp mem
  exact own a

theorem ite_tier {p : Prop} [Decidable p] {l : List Step} {n : Nat} (own : ∀ s ∈ l, s.tier = n) :
    ∀ s ∈ if p then l else [], s.tier = n := by
  split
  · exact own
  · exact fun s mem => absurd mem List.not_mem_nil

theorem limb_tier (vlan : Vlan) (limbs : List Assignment) :
    ∀ s ∈ limbs.flatMap (fun limb =>
      createVlan vlan limb :: if limb.suppressDhcp then [suppressDhcp vlan limb] else []),
      s.tier = 3 := by
  intro s mem
  obtain ⟨limb, -, step⟩ := List.mem_flatMap.mp mem
  rcases List.mem_cons.mp step with rfl | suppressed
  · rfl
  · exact ite_tier (map_tier (f := suppressDhcp vlan) (fun _ => rfl) [limb]) s suppressed

theorem verifyAll_tier : ∀ s ∈ [verifyAll], s.tier = 5 := fun s mem => by
  rw [List.mem_singleton.mp mem]
  rfl

theorem tierOrder_plan (vlan : Vlan) (brain : Option Assignment) (limbs : List Assignment) :
    tierOrder (buildVlanPlan vlan brain limbs) = buildVlanPlan vlan brain limbs := by
  refine grouped_sorted (Upto.sorted (n := 5) ?_)
  refine Upto.append (n := 3) ?_ (by decide) verifyAll_tier
  refine Upto.append (n := 2) ?_ (by decide) (limb_tier vlan limbs)
  refine Upto.append (n := 2) ?_ (by decide) (map_tier (f := createAlias vlan) (fun _ => rfl) _)
  refine Upto.append (n := 1) ?_ (by decide)
    (ite_tier (map_tier (f := createDhcpScope vlan) (fun _ => rfl) _))
  refine Upto.append (n := 0) ?_ (by decide)
    (map_tier (f := createVlanInterface vlan) (fun _ => rfl) _)
  refine Upto.append (n := 0) ?_ (by decide) (map_tier (f := verifyReachable) (fun _ => rfl) _)
  exact Upto.tier (map_tier (f := verifyReachable) (fun _ => rfl) _)

theorem tierOrder_retraction (vlan : Vlan) (brain : Option Assignment) (limbs : List Assignment) :
    tierOrder (buildRetractPlan vlan brain limbs) = buildRetractPlan vlan brain limbs := by
  refine grouped_sorted (Upto.sorted (n := 5) ?_)
  refine Upto.append (n := 4) ?_ (by decide) verifyAll_tier
  refine Upto.append (n := 3) ?_ (by decide)
    (map_tier (f := deleteVlanInterface vlan) (fun _ => rfl) _)
  refine Upto.append (n := 2) ?_ (by decide)
    (ite_tier (map_tier (f := deleteDhcpScope vlan) (fun _ => rfl) _))
  refine Upto.append (n := 1) ?_ (by decide) (map_tier (f := deleteAlias vlan) (fun _ => rfl) _)
  refine Upto.append (n := 0) ?_ (by decide) (map_tier (f := deleteVlan vlan) (fun _ => rfl) _)
  refine Upto.append (n := 0) ?_ (by decide) (map_tier (f := verifyReachable) (fun _ => rfl) _)
  exact Upto.tier (map_tier (f := verifyReachable) (fun _ => rfl) _)

/-! ### What steps make and remove -/

/-- What a step of a distribution leaves on its device. -/
inductive Kind
  | vlanInterface | dhcpScope | alias | vlan | suppression
  deriving DecidableEq

/-- Something on a device, by its name or its VLAN id. -/
structure Mark where
  device : Option String
  kind : Kind
  object : Json

/-- What an action makes, and the parameter that names it. -/
def makes : String → Option (Kind × String)
  | "create_vlan_interface" => some (.vlanInterface, "vlan_id")
  | "create_dhcp_scope" => some (.dhcpScope, "interface")
  | "create_alias" => some (.alias, "name")
  | "create_vlan" => some (.vlan, "vlan_id")
  | "suppress_dhcp" => some (.suppression, "vlan_id")
  | _ => none

/-- What an action takes away. No action of the engine ends a suppression. -/
def unmakes : String → Option (Kind × String)
  | "delete_vlan_interface" => some (.vlanInterface, "vlan_id")
  | "delete_dhcp_scope" => some (.dhcpScope, "interface")
  | "delete_alias" => some (.alias, "name")
  | "delete_vlan" => some (.vlan, "vlan_id")
  | _ => none

def Step.mark (s : Step) (effect : Option (Kind × String)) : Option Mark := do
  let (kind, key) ← effect
  let object ← get s.params key
  some ⟨s.deviceId, kind, object⟩

def Step.leaves (s : Step) : Option Mark := s.mark (makes s.action)

def Step.removes (s : Step) : Option Mark := s.mark (unmakes s.action)

/-- The tier in which a distribution makes things of a kind. -/
def Kind.tier : Kind → Nat
  | .vlanInterface => 1
  | .dhcpScope => 2
  | .alias => 2
  | .vlan => 3
  | .suppression => 3

def markOn (vlan : Vlan) (kind : Kind) (device : Assignment) : Mark where
  device := some device.deviceId
  kind := kind
  object :=
    match kind with
    | .dhcpScope => .str vlan.interface
    | .alias => .str vlan.alias
    | _ => .int vlan.vlanId

/-- What a distribution leaves, by kind. -/
def leftOn (vlan : Vlan) (brain : Option Assignment) (limbs : List Assignment) : List Mark :=
  brain.toList.map (markOn vlan .vlanInterface) ++
    (if vlan.dhcpEnabled then brain.toList.map (markOn vlan .dhcpScope) else []) ++
    brain.toList.map (markOn vlan .alias) ++
    limbs.flatMap fun limb => markOn vlan .vlan limb ::
      if limb.suppressDhcp then [markOn vlan .suppression limb] else []

def removedFrom (vlan : Vlan) (brain : Option Assignment) (limbs : List Assignment) : List Mark :=
  limbs.map (markOn vlan .vlan) ++ brain.toList.map (markOn vlan .alias) ++
    (if vlan.dhcpEnabled then brain.toList.map (markOn vlan .dhcpScope) else []) ++
    brain.toList.map (markOn vlan .vlanInterface)

theorem filterMap_map_some {f : Assignment → Step} {g : Step → Option Mark} {m : Assignment → Mark}
    (own : ∀ a, g (f a) = some (m a)) (devices : List Assignment) :
    (devices.map f).filterMap g = devices.map m := by
  rw [List.filterMap_map, ← List.filterMap_eq_map]
  exact List.filterMap_congr fun a _ => own a

theorem filterMap_map_none {f : Assignment → Step} {g : Step → Option Mark}
    (own : ∀ a, g (f a) = none) (devices : List Assignment) : (devices.map f).filterMap g = [] := by
  rw [List.filterMap_map, List.filterMap_eq_nil_iff]
  exact fun a _ => own a

theorem plan_leaves (vlan : Vlan) (brain : Option Assignment) (limbs : List Assignment) :
    (buildVlanPlan vlan brain limbs).filterMap Step.leaves = leftOn vlan brain limbs := by
  have limb : (limbs.flatMap fun limb => createVlan vlan limb ::
      if limb.suppressDhcp then [suppressDhcp vlan limb] else []).filterMap Step.leaves =
      limbs.flatMap fun limb => markOn vlan .vlan limb ::
        if limb.suppressDhcp then [markOn vlan .suppression limb] else [] := by
    rw [List.filterMap_flatMap]
    refine List.flatMap_congr fun limb _ => ?_
    cases limb.suppressDhcp <;> rfl
  have scope : (if vlan.dhcpEnabled then brain.toList.map (createDhcpScope vlan)
      else []).filterMap Step.leaves =
      if vlan.dhcpEnabled then brain.toList.map (markOn vlan .dhcpScope) else [] := by
    split
    · exact filterMap_map_some (fun _ => rfl) _
    · rfl
  simp only [buildVlanPlan, List.filterMap_append, limb, scope]
  rw [filterMap_map_none (fun _ => rfl), filterMap_map_none (fun _ => rfl),
    filterMap_map_some (m := markOn vlan .vlanInterface) (fun _ => rfl),
    filterMap_map_some (m := markOn vlan .alias) (fun _ => rfl)]
  exact List.append_nil _

theorem retraction_removes (vlan : Vlan) (brain : Option Assignment) (limbs : List Assignment) :
    (buildRetractPlan vlan brain limbs).filterMap Step.removes = removedFrom vlan brain limbs := by
  have scope : (if vlan.dhcpEnabled then brain.toList.map (deleteDhcpScope vlan)
      else []).filterMap Step.removes =
      if vlan.dhcpEnabled then brain.toList.map (markOn vlan .dhcpScope) else [] := by
    split
    · exact filterMap_map_some (fun _ => rfl) _
    · rfl
  simp only [buildRetractPlan, List.filterMap_append, scope]
  rw [filterMap_map_none (fun _ => rfl), filterMap_map_none (fun _ => rfl),
    filterMap_map_some (m := markOn vlan .vlan) (fun _ => rfl),
    filterMap_map_some (m := markOn vlan .alias) (fun _ => rfl),
    filterMap_map_some (m := markOn vlan .vlanInterface) (fun _ => rfl)]
  exact List.append_nil _

end FreeSdn.Gateway
