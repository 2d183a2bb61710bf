import FreeSdn.Gateway.Plans
import FreeSdn.Lib.Except

/-! The execution of a plan (`_execute_plan` of `services/distribution_service.py`): the steps in the order of
their tiers up to the first that fails, and the plan to roll back those that succeeded. -/

namespace FreeSdn.Gateway

open FreeSdn.Lib

/-! ### Steps -/

def allowedActions : List String :=
  ["verify_reachable", "verify_all", "create_vlan_interface", "create_dhcp_scope", "create_alias",
   "create_vlan", "suppress_dhcp", "delete_vlan_interface", "delete_dhcp_scope", "delete_alias",
   "delete_vlan"]

/-- How far an adapter for a gateway gets: it may not be built or not connect. -/
inductive Session
  | broken (e : Raised)
  | unreachable (e : Raised)
  | connected

/-- How a call of an adapter's method ends. -/
inductive Call
  | missing
  | raised (e : Raised)
  | result (success : Bool) (error : Option String)

/-- What the executor depends on: the preloaded gateways, and for each step, by its number, what
becomes of its adapter and of its call. -/
structure Lane where
  cached : Uuid → Bool
  session : Nat → Uuid → Session
  call : Nat → Uuid → String → Dict → Call

def distributionError (message : String) : Raised := ⟨"DistributionError", message⟩

variable (lane : Lane)

/-- `_execute_step`, for the step of a number. -/
def executeStep (n : Nat) (step : Step) : Except Raised Unit :=
  let id := step.deviceId.getD ""
  if step.action = "verify_all" then .ok ()
  else if step.action = "verify_reachable" then
    if id = "" then .ok ()
    else if lane.cached id = false then
      .error (distributionError ("Gateway " ++ id ++ " not found — cannot verify reachability"))
    else
      match lane.session n id with
      | .broken e => .error e
      | .unreachable e =>
        .error (distributionError ("Gateway " ++ id ++ " is unreachable: " ++ e.message))
      | .connected => .ok ()
  else if step.action ∉ allowedActions then
    .error (distributionError ("Disallowed distribution action: " ++ step.action))
  else if id = "" then .ok ()
  else if lane.cached id = false then
    .error (distributionError ("Gateway " ++ id ++ " not found"))
  else
    match lane.session n id with
    | .broken e => .error e
    | .unreachable e => .error e
    | .connected =>
      match lane.call n id step.action step.params with
      | .missing => .error (distributionError ("Adapter missing method: " ++ step.action))
      | .raised e => .error e
      | .result true _ => .ok ()
      | .result false error =>
        let error := error.getD ""
        .error (distributionError (if error = "" then step.action ++ " failed" else error))

/-! ### Rollback plans -/

/-- A step of a rollback plan; one for manual review names the action it stands for. -/
structure Compensation extends Step where
  originalAction : Option String

/-- `_INVERSE`. -/
def inverses : List (String × Option String) :=
  [("create_vlan", some "delete_vlan"), ("create_l3_vlan", some "delete_l3_vlan"),
   ("add_alias", some "delete_alias"), ("set_alias", some "delete_alias"),
   ("create_dhcp_scope", some "delete_dhcp_scope"), ("set_dhcp_scope", some "delete_dhcp_scope"),
   ("verify_reachable", none), ("verify_all", none)]

/-- What is planned for one step that succeeded. -/
def compensate (step : Step) : Option Compensation :=
  match (inverses.lookup step.action).join with
  | some inverse => some ⟨{ step with action := inverse }, none⟩
  | none =>
    if step.verifies then none
    else some ⟨{ step with action := "manual_review" }, some step.action⟩

/-- `_build_compensation_plan`: the most recent step first. -/
def buildCompensationPlan (succeeded : List Step) : List Compensation :=
  succeeded.reverse.filterMap compensate

/-! ### Plans -/

inductive DistributionStatus
  | completed | failed
  deriving DecidableEq

/-- An entry of `step_results`. -/
structure StepResult extends Step where
  status : String
  error : Option String

/-- What an execution leaves in the record. -/
structure Execution where
  status : DistributionStatus
  errorMessage : Option String
  stepResults : List StepResult
  rollbackPlan : Option (List Compensation)
  rollbackExecuted : Bool

/-- The results so far and the steps that succeeded. -/
structure Running where
  stepResults : List StepResult
  succeededSteps : List Step

/-- The steps up to the first that fails, with the error message of that one. -/
def runSteps : List Step → Running → Running × Option String
  | [], r => (r, none)
  | step :: steps, r =>
    match executeStep lane r.stepResults.length step with
    | .ok _ =>
      runSteps steps ⟨r.stepResults ++ [⟨step, "success", none⟩], r.succeededSteps ++ [step]⟩
    | .error e =>
      (⟨r.stepResults ++ [⟨step, "failed", some e.kind⟩], r.succeededSteps⟩,
        some ("Tier " ++ toString step.tier ++ " failed on " ++ step.action ++ ": " ++ e.kind))

/-- `_execute_plan`. -/
def executePlan (steps : List Step) : Execution :=
  match runSteps lane (tierOrder steps) ⟨[], []⟩ with
  | (r, none) => ⟨.completed, none, r.stepResults, none, false⟩
  | (r, some message) =>
    let rollback :=
      match r.succeededSteps with
      | [] => none
      | succeeded => some (buildCompensationPlan succeeded)
    ⟨.failed, some message, r.stepResults, rollback, false⟩

/-! ### A run up to a failure -/

variable {lane}

/-- The step of a number is the first to fail. -/
def FailsAt (lane : Lane) (steps : List Step) (k : Nat) (step : Step) (e : Raised) : Prop :=
  steps[k]? = some step ∧ executeStep lane k step = .error e ∧
    ∀ i < k, ∀ s, steps[i]? = some s → executeStep lane i s = .ok ()

def succeeded (step : Step) : StepResult := ⟨step, "success", none⟩

/-- What a run leaves when the steps before one succeed and that one fails. -/
theorem runSteps_fails {first rest : List Step} {step : Step} {e : Raised} {r : Running}
    (before : ∀ i < first.length, ∀ s, first[i]? = some s →
      executeStep lane (r.stepResults.length + i) s = .ok ())
    (fails : executeStep lane (r.stepResults.length + first.length) step = .error e) :
    runSteps lane (first ++ step :: rest) r =
      (⟨r.stepResults ++ first.map succeeded ++ [⟨step, "failed", some e.kind⟩],
          r.succeededSteps ++ first⟩,
        some ("Tier " ++ toString step.tier ++ " failed on " ++ step.action ++ ": " ++ e.kind)) := by
  induction first generalizing r with
  | nil =>
    rw [List.nil_append, runSteps, show executeStep lane r.stepResults.length step = .error e from fails]
    simp
  | cons s first ih =>
    have own : executeStep lane r.stepResults.length s = .ok () :=
      before 0 (Nat.succ_pos _) s rfl
    rw [List.cons_append, runSteps, own]
    simp only
    rw [ih]
    · simp [succeeded]
    · intro i less s' found
      have next := before (i + 1) (Nat.succ_lt_succ less) s' found
      rwa [List.length_append, List.length_singleton, Nat.add_assoc, Nat.add_comm 1 i]
    · rw [List.length_append, List.length_singleton, Nat.add_assoc, Nat.add_comm 1 first.length]
      exact fails

/-- The record of an execution whose first failure is known. -/
theorem executePlan_fails {plan : List Step} {k : Nat} {step : Step} {e : Raised}
    (h : FailsAt lane (tierOrder plan) k step e) :
    (executePlan lane plan).stepResults =
        ((tierOrder plan).take k).map succeeded ++ [⟨step, "failed", some e.kind⟩] ∧
      (executePlan lane plan).rollbackPlan.getD [] =
        buildCompensationPlan ((tierOrder plan).take k) := by
  obtain ⟨found, fails, before⟩ := h
  obtain ⟨less, here⟩ := List.getElem?_eq_some_iff.mp found
  have split : (tierOrder plan).take k ++ step :: (tierOrder plan).drop (k + 1) =
      tierOrder plan := by
    rw [← here, ← List.drop_eq_getElem_cons, List.take_append_drop]
  have length : ((tierOrder plan).take k).length = k := List.length_take_of_le less.le
  have run := @runSteps_fails lane ((tierOrder plan).take k) ((tierOrder plan).drop (k + 1)) step e
    ⟨[], []⟩
    (by
      intro i low s at'
      rw [length] at low
      rw [List.getElem?_take_of_lt low] at at'
      rw [List.length_nil, Nat.zero_add]
      exact before i low s at')
    (by
      rw [List.length_nil, Nat.zero_add, length]
      exact fails)
  rw [split] at run
  unfold executePlan
  rw [run]
  refine ⟨rfl, ?_⟩
  simp only [List.nil_append]
  cases (tierOrder plan).take k <;> rfl

end FreeSdn.Gateway
