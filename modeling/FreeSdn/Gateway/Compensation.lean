import FreeSdn.Gateway.Execution
import FreeSdn.Gateway.Retraction

/-! When the rollback plan of a failed distribution undoes the steps that succeeded: none of its entries is what
a retraction does, so that the failure has to come before the first step that changes a device. -/

namespace FreeSdn.Gateway

open FreeSdn.Lib

variable {lane : Lane} {vlan : Vlan} {brain : Option Assignment} {limbs : List Assignment}
  {s step : Step} {e : Raised} {k : Nat}

/-- The entry is the step of the retraction that removes what the step left, and may be executed. -/
def Undoes (retraction : List Step) (s : Step) (entry : Compensation) : Prop :=
  entry.deviceId = s.deviceId ∧ entry.action ∈ allowedActions ∧ entry.originalAction = none ∧
    ∃ r ∈ retraction, ∃ m, s.leaves = some m ∧ r.removes = some m ∧ entry.action = r.action ∧
      entry.params = r.params

/-- The record has the steps up to the failure, the last one failed, and a rollback plan that undoes each
step that changed a device, the most recent first. -/
structure Compensated (vlan : Vlan) (brain : Option Assignment) (limbs : List Assignment) (k : Nat)
    (x : Execution) : Prop where
  executed : ∃ step kind, (tierOrder (buildVlanPlan vlan brain limbs))[k]? = some step ∧
    x.stepResults = ((tierOrder (buildVlanPlan vlan brain limbs)).take k).map succeeded ++
      [⟨step, "failed", some kind⟩]
  rollback : List.Forall₂ (Undoes (buildRetractPlan vlan brain limbs))
    (((tierOrder (buildVlanPlan vlan brain limbs)).take k).reverse.filter fun s => !s.verifies)
    (x.rollbackPlan.getD [])

/-- The steps of a retraction have one parameter at most. -/
theorem retraction_params (mem : s ∈ buildRetractPlan vlan brain limbs) : s.params.length ≤ 1 := by
  rcases mem_retraction.mp mem with ⟨a, -, rfl⟩ | ⟨limb, -, rfl⟩ | ⟨b, -, rfl⟩ | ⟨-, b, -, rfl⟩ |
    ⟨b, -, rfl⟩ | rfl
  · exact Nat.zero_le 1
  · exact Nat.le_refl 1
  · exact Nat.le_refl 1
  · exact Nat.le_refl 1
  · exact Nat.le_refl 1
  · exact Nat.zero_le 1

theorem undoes_params {entry : Compensation} {retraction : List Step}
    (short : ∀ r ∈ retraction, r.params.length ≤ 1) (undoes : Undoes retraction s entry) :
    entry.params.length ≤ 1 := by
  obtain ⟨-, -, -, r, mem, -, -, -, -, params⟩ := undoes
  rw [params]
  exact short r mem

/-- A step for manual review. -/
theorem compensate_unknown (unknown : (inverses.lookup s.action).join = none)
    (changes : s.verifies = false) :
    compensate s = some ⟨{ s with action := "manual_review" }, some s.action⟩ := by
  unfold compensate
  rw [unknown]
  simp only [changes, Bool.false_eq_true, if_false]

theorem review_not_undoes {retraction : List Step} :
    ¬ Undoes retraction s ⟨{ s with action := "manual_review" }, some s.action⟩ := by
  rintro ⟨-, -, original, -⟩
  cases original

/-- The steps that verify have no entry, and no other one has an entry that undoes it: the interface,
the alias and the suppression are left for manual review, and the scope and the VLAN are to be
deleted with the parameters they were created with. -/
theorem compensate_plan (mem : s ∈ buildVlanPlan vlan brain limbs) :
    (s.verifies = true ∧ compensate s = none) ∨
      s.verifies = false ∧ ∃ entry, compensate s = some entry ∧
        ¬ Undoes (buildRetractPlan vlan brain limbs) s entry := by
  have short : ∀ r ∈ buildRetractPlan vlan brain limbs, r.params.length ≤ 1 :=
    fun r => retraction_params
  rcases mem_plan.mp mem with ⟨a, -, rfl⟩ | ⟨b, -, rfl⟩ | ⟨-, b, -, rfl⟩ | ⟨b, -, rfl⟩ |
    ⟨limb, -, rfl | ⟨-, rfl⟩⟩ | rfl
  · refine .inl ⟨verifies_verifyReachable a, ?_⟩
    unfold compensate
    rw [show (inverses.lookup (verifyReachable a).action).join = none from rfl]
    exact if_pos (verifies_verifyReachable a)
  · have plain := plan_changes (m := markOn vlan .vlanInterface b) mem rfl
    exact .inr ⟨plain, _, compensate_unknown rfl plain, review_not_undoes⟩
  · have plain := plan_changes (m := markOn vlan .dhcpScope b) mem rfl
    refine .inr ⟨plain, _, rfl, fun undoes => ?_⟩
    have few := undoes_params short undoes
    exact absurd few (by simp [createDhcpScope])
  · have plain := plan_changes (m := markOn vlan .alias b) mem rfl
    exact .inr ⟨plain, _, compensate_unknown rfl plain, review_not_undoes⟩
  · have plain := plan_changes (m := markOn vlan .vlan limb) mem rfl
    refine .inr ⟨plain, _, rfl, fun undoes => ?_⟩
    have few := undoes_params short undoes
    exact absurd few (by simp [createVlan])
  · have plain := plan_changes (m := markOn vlan .suppression limb) mem rfl
    exact .inr ⟨plain, _, compensate_unknown rfl plain, review_not_undoes⟩
  · refine .inl ⟨by decide, ?_⟩
    rfl

/-- A rollback plan undoes all steps of a part of the plan only where none of them changes a device. -/
theorem undone_iff (part : List Step) (sub : ∀ s ∈ part, s ∈ buildVlanPlan vlan brain limbs) :
    List.Forall₂ (Undoes (buildRetractPlan vlan brain limbs)) (part.filter fun s => !s.verifies)
        (part.filterMap compensate) ↔ ∀ s ∈ part, s.verifies = true := by
  induction part with
  | nil => exact iff_of_true .nil fun s mem => absurd mem List.not_mem_nil
  | cons s part ih =>
    obtain ⟨own, rest⟩ := List.forall_mem_cons.mp sub
    rcases compensate_plan own with ⟨verifies, none⟩ | ⟨changes, entry, planned, wrong⟩
    · rw [List.filter_cons_of_neg (by simp [verifies]), List.filterMap_cons_none none, ih rest,
        List.forall_mem_cons]
      exact (and_iff_right verifies).symm
    · rw [List.filter_cons_of_pos (by simp [changes]), List.filterMap_cons_some planned]
      refine iff_of_false (fun undone => ?_) fun all => ?_
      · cases undone with
        | cons first later => exact wrong first
      · rw [all s List.mem_cons_self] at changes
        cases changes

/-! ### Where the plan begins to change devices -/

/-- The steps after the reachability checks. -/
def workOf (vlan : Vlan) (brain : Option Assignment) (limbs : List Assignment) : List Step :=
  brain.toList.map (createVlanInterface vlan) ++
    (if vlan.dhcpEnabled then brain.toList.map (createDhcpScope vlan) else []) ++
    brain.toList.map (createAlias vlan) ++
    limbs.flatMap (fun limb =>
      createVlan vlan limb :: if limb.suppressDhcp then [suppressDhcp vlan limb] else []) ++
    [verifyAll]

theorem plan_split (vlan : Vlan) (brain : Option Assignment) (limbs : List Assignment) :
    buildVlanPlan vlan brain limbs =
      (brain.toList ++ limbs).map verifyReachable ++ workOf vlan brain limbs := by
  simp only [buildVlanPlan, workOf, List.map_append, List.append_assoc]

/-- The work begins with a step that changes a device, unless there is no device. -/
theorem work_begins (vlan : Vlan) (devices : brain.toList ++ limbs ≠ []) :
    ∃ s rest, workOf vlan brain limbs = s :: rest ∧ s.verifies = false := by
  unfold workOf
  cases brain with
  | some b => exact ⟨_, _, rfl, not_verifies (by simp [createVlanInterface])⟩
  | none =>
    cases limbs with
    | nil => exact absurd rfl devices
    | cons limb limbs =>
      refine ⟨createVlan vlan limb,
        ((if limb.suppressDhcp then [suppressDhcp vlan limb] else []) ++
          limbs.flatMap fun limb => createVlan vlan limb ::
            if limb.suppressDhcp then [suppressDhcp vlan limb] else []) ++ [verifyAll],
        ?_, not_verifies (by simp [createVlan])⟩
      simp only [Option.toList_none, List.map_nil, ite_self, List.nil_append, List.flatMap_cons,
        List.cons_append]

theorem verified_iff (less : k < (buildVlanPlan vlan brain limbs).length) :
    (∀ s ∈ (buildVlanPlan vlan brain limbs).take k, s.verifies = true) ↔
      k ≤ brain.toList.length + limbs.length := by
  have checks : ((brain.toList ++ limbs).map verifyReachable).length =
      brain.toList.length + limbs.length := by rw [List.length_map, List.length_append]
  rw [plan_split] at less ⊢
  constructor
  · intro all
    by_contra above
    have past : brain.toList.length + limbs.length < k := Nat.lt_of_not_le above
    have devices : brain.toList ++ limbs ≠ [] := by
      intro none
      obtain ⟨noBrain, noLimbs⟩ := List.append_eq_nil_iff.mp none
      simp [workOf, noBrain, noLimbs] at less past
      omega
    obtain ⟨s, rest, work, changes⟩ := work_begins vlan devices
    have mem : s ∈ ((brain.toList ++ limbs).map verifyReachable ++ workOf vlan brain limbs).take k := by
      rw [List.take_append, checks, work]
      refine List.mem_append_right _ ?_
      obtain ⟨n, more⟩ : ∃ n, k - (brain.toList.length + limbs.length) = n + 1 :=
        ⟨k - (brain.toList.length + limbs.length) - 1, by omega⟩
      rw [more, List.take_succ_cons]
      exact List.mem_cons_self
    rw [all s mem] at changes
    cases changes
  · intro few s mem
    rw [List.take_append_of_le_length (by rw [checks]; exact few)] at mem
    obtain ⟨a, -, rfl⟩ := List.mem_map.mp (List.mem_of_mem_take mem)
    exact verifies_verifyReachable a

/-- When a step of a distribution fails, the record has the steps up to it and a rollback plan that undoes the
others, exactly when it fails before a step has changed a device. -/
theorem compensated_iff (fails : FailsAt lane (tierOrder (buildVlanPlan vlan brain limbs)) k step e) :
    Compensated vlan brain limbs k (executePlan lane (buildVlanPlan vlan brain limbs)) ↔
      k ≤ brain.toList.length + limbs.length := by
  obtain ⟨results, rollback⟩ := executePlan_fails fails
  have found := fails.1
  rw [tierOrder_plan] at results rollback found
  have less := (List.getElem?_eq_some_iff.mp found).1
  have undone := undone_iff ((buildVlanPlan vlan brain limbs).take k).reverse
    fun s mem => List.mem_of_mem_take (List.mem_reverse.mp mem)
  have same : (∀ s ∈ ((buildVlanPlan vlan brain limbs).take k).reverse, s.verifies = true) ↔
      ∀ s ∈ (buildVlanPlan vlan brain limbs).take k, s.verifies = true := by
    simp only [List.mem_reverse]
  rw [← verified_iff less, ← same, ← undone]
  constructor
  · rintro ⟨-, all⟩
    rwa [tierOrder_plan, rollback] at all
  · intro all
    refine ⟨?_, ?_⟩
    · rw [tierOrder_plan]
      exact ⟨step, e.kind, found, results⟩
    · rwa [tierOrder_plan, rollback]

/-- The gateways are connected and each call ends by the number of its step. -/
def laneOf (call : Nat → Call) : Lane := ⟨fun _ => true, fun _ _ => .connected, fun n _ _ _ => call n⟩

theorem compensated_first :
    Compensated lanVlan (some router) [] 1
      (executePlan (laneOf fun _ => .missing) (buildVlanPlan lanVlan (some router) [])) := by
  have fails : FailsAt (laneOf fun _ => .missing)
      (tierOrder (buildVlanPlan lanVlan (some router) [])) 1 (createVlanInterface lanVlan router)
      (distributionError "Adapter missing method: create_vlan_interface") := by
    refine ⟨rfl, rfl, fun i less s found => ?_⟩
    obtain rfl : i = 0 := by omega
    obtain rfl := Option.some.inj found
    rfl
  exact (compensated_iff fails).mpr (by decide)

/-- The alias is refused after the interface was created: the rollback plan has the interface for manual
review. -/
theorem interface_not_compensated :
    FailsAt (laneOf fun n => .result (n ≠ 2) none)
        (tierOrder (buildVlanPlan lanVlan (some router) [])) 2 (createAlias lanVlan router)
        (distributionError "create_alias failed") ∧
      ¬ Compensated lanVlan (some router) [] 2
        (executePlan (laneOf fun n => .result (n ≠ 2) none)
          (buildVlanPlan lanVlan (some router) [])) := by
  constructor
  · refine ⟨rfl, rfl, fun i less s found => ?_⟩
    rcases (by omega : i = 0 ∨ i = 1) with rfl | rfl
    · obtain rfl := Option.some.inj found
      rfl
    · obtain rfl := Option.some.inj found
      rfl
  · rintro ⟨-, rollback⟩
    have kept : (((tierOrder (buildVlanPlan lanVlan (some router) [])).take 2).reverse.filter
        fun s => !s.verifies) = [createVlanInterface lanVlan router] := rfl
    have planned : (executePlan (laneOf fun n => .result (n ≠ 2) none)
        (buildVlanPlan lanVlan (some router) [])).rollbackPlan.getD [] =
          [⟨{ createVlanInterface lanVlan router with action := "manual_review" },
            some "create_vlan_interface"⟩] := rfl
    rw [kept, planned] at rollback
    cases rollback with
    | cons undoes rest =>
      obtain ⟨-, -, original, -⟩ := undoes
      cases original

end FreeSdn.Gateway
