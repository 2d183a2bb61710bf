import FreeSdn.Gateway.Limbs
import FreeSdn.Gateway.Plans

/-! When a retraction takes away what a distribution left on the devices, in the reverse order: each step of
one has its counterpart in the other, and the interface of the brain goes last. -/

namespace FreeSdn.Gateway

open FreeSdn.Lib

variable {vlan : Vlan} {brain : Option Assignment} {limbs : List Assignment} {s : Step} {m : Mark}

/-- The steps of the retraction, as they are executed, undo those of the distribution. -/
structure Mirrored (distribution retraction : List Step) : Prop where
  /-- What is removed is what was left, each once. -/
  counterpart : (retraction.filterMap Step.removes).Perm (distribution.filterMap Step.leaves)
  /-- Every step leaves or removes something, or verifies. -/
  told : (∀ s ∈ distribution, s.verifies = true ∨ s.leaves.isSome = true) ∧
    ∀ s ∈ retraction, s.verifies = true ∨ s.removes.isSome = true
  /-- What was made in a later tier is removed first. -/
  reversed : retraction.Pairwise fun r r' => ∀ s ∈ distribution, ∀ s' ∈ distribution, ∀ m m',
    r.removes = some m → r'.removes = some m' → s.leaves = some m → s'.leaves = some m' →
      s'.tier ≤ s.tier
  /-- Nothing is removed after the interface. -/
  interfaceLast : retraction.Pairwise fun r r' => ∀ m m', r.removes = some m →
    r'.removes = some m' → m.kind ≠ .vlanInterface

theorem verifies_verifyReachable (a : Assignment) : (verifyReachable a).verifies = true := by
  show "verify".toList.isPrefixOf "verify_reachable".toList = true
  decide

theorem not_verifies (h : s.action ∈ ["create_vlan_interface", "create_dhcp_scope", "create_alias",
    "create_vlan", "suppress_dhcp"]) : s.verifies = false := by
  have all : ∀ action ∈ ["create_vlan_interface", "create_dhcp_scope", "create_alias",
      "create_vlan", "suppress_dhcp"], "verify".toList.isPrefixOf action.toList = false := by decide
  exact all s.action h

theorem mem_ite {p : Prop} [Decidable p] {l : List Step} :
    (s ∈ if p then l else []) ↔ p ∧ s ∈ l := by
  split
  · exact (and_iff_right ‹p›).symm
  · exact iff_of_false List.not_mem_nil fun h => absurd h.1 ‹¬p›

theorem mem_brain {f : Assignment → Step} : s ∈ brain.toList.map f ↔ ∃ b ∈ brain, f b = s := by
  simp only [List.mem_map, Option.mem_toList, Option.mem_def]

/-- The steps of a distribution. -/
theorem mem_plan : s ∈ buildVlanPlan vlan brain limbs ↔
    (∃ a ∈ brain.toList ++ limbs, verifyReachable a = s) ∨
    (∃ b ∈ brain, createVlanInterface vlan b = s) ∨
    (vlan.dhcpEnabled = true ∧ ∃ b ∈ brain, createDhcpScope vlan b = s) ∨
    (∃ b ∈ brain, createAlias vlan b = s) ∨
    (∃ limb ∈ limbs, s = createVlan vlan limb ∨
      limb.suppressDhcp = true ∧ s = suppressDhcp vlan limb) ∨ s = verifyAll := by
  unfold buildVlanPlan
  rw [← List.map_append]
  simp only [List.mem_append, List.mem_flatMap, List.mem_cons, mem_ite, mem_brain,
    List.not_mem_nil, or_false, or_assoc]
  rw [List.mem_map]
  simp only [List.mem_append]

theorem mem_retraction : s ∈ buildRetractPlan vlan brain limbs ↔
    (∃ a ∈ brain.toList ++ limbs, verifyReachable a = s) ∨
    (∃ limb ∈ limbs, deleteVlan vlan limb = s) ∨ (∃ b ∈ brain, deleteAlias vlan b = s) ∨
    (vlan.dhcpEnabled = true ∧ ∃ b ∈ brain, deleteDhcpScope vlan b = s) ∨
    (∃ b ∈ brain, deleteVlanInterface vlan b = s) ∨ s = verifyAll := by
  unfold buildRetractPlan
  rw [← List.map_append]
  simp only [List.mem_append, List.mem_singleton, mem_ite, mem_brain, or_assoc]
  rw [List.mem_map, List.mem_map]
  simp only [List.mem_append]

/-- Every step of a distribution makes what its tier is for, or verifies. -/
theorem plan_told (mem : s ∈ buildVlanPlan vlan brain limbs) :
    (s.verifies = true ∧ s.leaves = none) ∨
      ∃ m, s.leaves = some m ∧ s.tier = m.kind.tier ∧ s.verifies = false := by
  rcases mem_plan.mp mem with ⟨a, -, rfl⟩ | ⟨b, -, rfl⟩ | ⟨-, b, -, rfl⟩ | ⟨b, -, rfl⟩ |
    ⟨limb, -, rfl | ⟨-, rfl⟩⟩ | rfl
  · exact .inl ⟨verifies_verifyReachable a, rfl⟩
  · exact .inr ⟨markOn vlan .vlanInterface b, rfl, rfl, not_verifies (by simp [createVlanInterface])⟩
  · exact .inr ⟨markOn vlan .dhcpScope b, rfl, rfl, not_verifies (by simp [createDhcpScope])⟩
  · exact .inr ⟨markOn vlan .alias b, rfl, rfl, not_verifies (by simp [createAlias])⟩
  · exact .inr ⟨markOn vlan .vlan limb, rfl, rfl, not_verifies (by simp [createVlan])⟩
  · exact .inr ⟨markOn vlan .suppression limb, rfl, rfl, not_verifies (by simp [suppressDhcp])⟩
  · exact .inl ⟨by decide, rfl⟩

theorem plan_changes (mem : s ∈ buildVlanPlan vlan brain limbs) (left : s.leaves = some m) :
    s.verifies = false := by
  rcases plan_told mem with ⟨-, none⟩ | ⟨-, -, -, changes⟩
  · cases none.symm.trans left
  · exact changes

theorem retraction_told (mem : s ∈ buildRetractPlan vlan brain limbs) :
    (s.verifies = true ∧ s.removes = none) ∨
      ∃ m, s.removes = some m ∧ m.kind ≠ .suppression := by
  rcases mem_retraction.mp mem with ⟨a, -, rfl⟩ | ⟨limb, -, rfl⟩ | ⟨b, -, rfl⟩ | ⟨-, b, -, rfl⟩ |
    ⟨b, -, rfl⟩ | rfl
  · exact .inl ⟨verifies_verifyReachable a, rfl⟩
  · exact .inr ⟨markOn vlan .vlan limb, rfl, nofun⟩
  · exact .inr ⟨markOn vlan .alias b, rfl, nofun⟩
  · exact .inr ⟨markOn vlan .dhcpScope b, rfl, nofun⟩
  · exact .inr ⟨markOn vlan .vlanInterface b, rfl, nofun⟩
  · exact .inl ⟨by decide, rfl⟩

/-- The retraction goes down the tiers of the distribution and ends with the interface. -/
theorem removedFrom_order (vlan : Vlan) (brain : Option Assignment) (limbs : List Assignment) :
    (removedFrom vlan brain limbs).Pairwise fun m m' =>
      m'.kind.tier ≤ m.kind.tier ∧ m.kind ≠ .vlanInterface := by
  have limb : (limbs.map (markOn vlan .vlan)).Pairwise fun m m' =>
      m'.kind.tier ≤ m.kind.tier ∧ m.kind ≠ .vlanInterface :=
    List.pairwise_map.mpr (List.pairwise_of_forall fun a b => ⟨Nat.le_refl 3, nofun⟩)
  have tiers : Kind.vlanInterface.tier = 1 ∧ Kind.dhcpScope.tier = 2 ∧ Kind.alias.tier = 2 ∧
    Kind.vlan.tier = 3 := ⟨rfl, rfl, rfl, rfl⟩
  unfold removedFrom
  cases brain with
  | none =>
    simp only [Option.toList_none, List.map_nil, List.append_nil, ite_self]
    exact limb
  | some b =>
    simp only [Option.toList_some, List.map_cons, List.map_nil]
    cases vlan.dhcpEnabled <;>
      simpa [List.pairwise_append, markOn, tiers, or_imp, forall_and] using limb

theorem perm_reverse {α : Type} (a b c d : List α) :
    (d ++ c ++ b ++ a).Perm (a ++ b ++ c ++ d) := by
  calc (d ++ c ++ b ++ a).Perm (a ++ (d ++ c ++ b)) := List.perm_append_comm
    _ |>.Perm (a ++ (b ++ (d ++ c))) := List.perm_append_comm.append_left a
    _ |>.Perm (a ++ (b ++ (c ++ d))) := (List.perm_append_comm.append_left b).append_left a
    _ = a ++ b ++ c ++ d := by simp only [List.append_assoc]

/-- A retraction undoes the distribution exactly when no limb has its DHCP suppressed. -/
theorem mirrored_iff (vlan : Vlan) (brain : Option Assignment) (limbs : List Assignment) :
    Mirrored (tierOrder (buildVlanPlan vlan brain limbs))
        (tierOrder (buildRetractPlan vlan brain limbs)) ↔
      ∀ limb ∈ limbs, limb.suppressDhcp = false := by
  rw [tierOrder_plan, tierOrder_retraction]
  constructor
  · intro mirrored limb mem
    refine Bool.eq_false_iff.mpr fun suppressed => ?_
    have left : markOn vlan .suppression limb ∈ leftOn vlan brain limbs := by
      refine List.mem_append_right _ (List.mem_flatMap.mpr ⟨limb, mem, ?_⟩)
      rw [suppressed]
      exact List.mem_cons_of_mem _ (List.mem_singleton.mpr rfl)
    have perm := mirrored.counterpart
    rw [plan_leaves] at perm
    obtain ⟨s, step, removed⟩ := List.mem_filterMap.mp (perm.mem_iff.mpr left)
    rcases retraction_told step with ⟨-, none⟩ | ⟨m, removed', other⟩
    · cases none.symm.trans removed
    · obtain rfl := Option.some.inj (removed'.symm.trans removed)
      exact other rfl
  · intro plain
    have order := removedFrom_order vlan brain limbs
    rw [← retraction_removes, List.pairwise_filterMap] at order
    refine ⟨?_, ⟨fun s mem => ?_, fun s mem => ?_⟩, ?_, ?_⟩
    · have limb : (limbs.flatMap fun limb => markOn vlan .vlan limb ::
          if limb.suppressDhcp then [markOn vlan .suppression limb] else []) =
          limbs.map (markOn vlan .vlan) := by
        rw [← List.flatMap_pure_eq_map]
        exact List.flatMap_congr fun limb mem => by rw [plain limb mem]; rfl
      rw [plan_leaves, retraction_removes, leftOn, limb]
      exact perm_reverse _ _ _ _
    · rcases plan_told mem with ⟨verifies, -⟩ | ⟨m, left, -⟩
      · exact .inl verifies
      · exact .inr (by rw [left]; rfl)
    · exact (retraction_told mem).imp And.left fun ⟨m, removed, _⟩ => by rw [removed]; rfl
    · refine order.imp fun pair s mem s' mem' m m' removed removed' left left' => ?_
      obtain ⟨m₁, left₁, tier₁, -⟩ := (plan_told mem).resolve_left fun h => by
        rw [left] at h
        cases h.2
      obtain ⟨m₂, left₂, tier₂, -⟩ := (plan_told mem').resolve_left fun h => by
        rw [left'] at h
        cases h.2
      obtain rfl := Option.some.inj (left₁.symm.trans left)
      obtain rfl := Option.some.inj (left₂.symm.trans left')
      rw [tier₁, tier₂]
      exact (pair _ removed _ removed').1
    · exact order.imp fun pair m m' removed removed' => (pair m removed m' removed').2

/-- A limb that serves DHCP beside the brain unless it is suppressed. -/
def suppressedLimb : Assignment := gatewayDevice "b" "sw" .limb true

def router : Assignment := gatewayDevice "a" "gw" .brain false

/-- The suppression of the limb's DHCP has no counterpart in the retraction. -/
theorem suppression_left :
    ¬ Mirrored (tierOrder (buildVlanPlan lanVlan (some router) [suppressedLimb]))
      (tierOrder (buildRetractPlan lanVlan (some router) [suppressedLimb])) := by
  intro mirrored
  have same := mirrored.counterpart.length_eq
  have fewer : ((tierOrder (buildRetractPlan lanVlan (some router) [suppressedLimb])).filterMap
      Step.removes).length = 3 := by decide
  have more : ((tierOrder (buildVlanPlan lanVlan (some router) [suppressedLimb])).filterMap
      Step.leaves).length = 4 := by decide
  omega

end FreeSdn.Gateway
