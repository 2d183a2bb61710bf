import FreeSdn.Automation.Conditions
import Mathlib.Data.List.Pairwise
import Mathlib.Logic.Function.Basic

/-! `AutomationEngine.process_event` of `services/automation.py`: the rules that match an event take
their turns one after the other, each behind its event claim, its cooldown and its hourly limit in
Redis, and each at its own instant, when the action chains of the rules before it are through. -/

namespace FreeSdn.Automation

open FreeSdn.Lib

abbrev Uuid := Nat

/-- Microseconds. -/
abbrev Time := Int

def seconds (n : Int) : Time := n * 1000000

inductive RuleStatus
  | active | paused | disabled | error
  deriving DecidableEq, Repr

structure AutomationRule where
  id : Uuid
  organizationId : Uuid
  conditions : Option ConditionGroup
  status : RuleStatus
  cooldownSeconds : Int
  maxTriggersPerHour : Int

/-! ### The keys of a rule in Redis -/

/-- `automation:exec:{id}:{event}`, `automation:cooldown:{id}` and `automation:throttle:{id}`.  The
names start with the rule's UUID, so that no two rules share one. -/
structure RuleKeys where
  /-- The claimed events, each with the instant its key expires. -/
  claims : List (String × Time)
  cooldown : Option Time
  /-- The scores of the sorted set. -/
  attempts : List Time
  attemptsUntil : Time

def RuleKeys.empty : RuleKeys := ⟨[], none, [], 0⟩

abbrev Redis := Uuid → RuleKeys

inductive Gate
  | claim | cooldown | rate
  deriving DecidableEq, Repr

structure Event where
  id : Option String
  organizationId : Option Uuid
  data : Dict
  instant : Time
  /-- The command of a rule at a gate whose reply is lost or malformed, and whether it took effect. -/
  trouble : Uuid → Gate → Option Bool
  /-- The microseconds that the turn of a rule takes, in which it is executed or not. -/
  takes : Uuid → Bool → Nat

/-- The event for the rules behind the turn of a rule. -/
def Event.behind (event : Event) (rule : Uuid) (executed : Bool) : Event :=
  { event with instant := event.instant + event.takes rule executed }

/-- `SET automation:exec:{id}:{event} 1 NX EX 300`. -/
def RuleKeys.claim (k : RuleKeys) (event : String) (now : Time) : Bool × RuleKeys :=
  if k.claims.any (fun c => c.1 == event && now < c.2) then (false, k)
  else (true, { k with claims := (event, now + seconds 300) :: k.claims })

/-- `SET automation:cooldown:{id} 1 NX EX cooldown_seconds`. -/
def RuleKeys.rest (k : RuleKeys) (cooldownSeconds : Int) (now : Time) : Bool × RuleKeys :=
  if k.cooldown.any (now < ·) then (false, k)
  else (true, { k with cooldown := some (now + seconds cooldownSeconds) })

/-- The attempts that `ZREMRANGEBYSCORE` leaves; an expired set has none. -/
def RuleKeys.recent (k : RuleKeys) (now : Time) : List Time :=
  if now < k.attemptsUntil then k.attempts.filter (now - seconds 3600 < ·) else []

/-- `_THROTTLE_LUA_SCRIPT`. -/
def RuleKeys.attempt (k : RuleKeys) (maxCount : Int) (now : Time) : Bool × RuleKeys :=
  if (k.recent now).length < maxCount then
    (true, { k with attempts := now :: k.recent now, attemptsUntil := now + seconds 3700 })
  else (false, { k with attempts := k.recent now })

/-- Only the reply that the code expects lets the rule pass. -/
def gate (trouble : Option Bool) (k : RuleKeys) (r : Bool × RuleKeys) : Bool × RuleKeys :=
  match trouble with
  | none => r
  | some landed => (false, if landed then r.2 else k)

/-! ### A turn -/

variable (py : Python)

def eventClaim (rule : AutomationRule) (event : Event) (k : RuleKeys) : Bool × RuleKeys :=
  match event.id with
  | none => (true, k)
  | some id =>
    if id = "" then (true, k)
    else gate (event.trouble rule.id .claim) k (k.claim id event.instant)

def checkCooldown (rule : AutomationRule) (event : Event) (k : RuleKeys) : Bool × RuleKeys :=
  if 0 < rule.cooldownSeconds then
    gate (event.trouble rule.id .cooldown) k (k.rest rule.cooldownSeconds event.instant)
  else (true, k)

/-- `_check_throttle`. -/
def checkThrottle (rule : AutomationRule) (event : Event) (k : RuleKeys) : Bool × RuleKeys :=
  let rested := checkCooldown rule event k
  if rested.1 then
    gate (event.trouble rule.id .rate) rested.2
      (rested.2.attempt rule.maxTriggersPerHour event.instant)
  else rested

/-- `rule.conditions and not rule.conditions.evaluate(event_data)`, the other way round. -/
def conditionsMet (rule : AutomationRule) (data : Dict) : Except Fault Bool :=
  match rule.conditions with
  | none => .ok true
  | some group => group.evaluate py data

/-- The turn of a rule: whether it is executed, or what its conditions raise, and its keys then. -/
def takeTurn (rule : AutomationRule) (event : Event) (k : RuleKeys) : Except Fault Bool × RuleKeys :=
  if rule.status ≠ .active then (.ok false, k)
  else
    let claimed := eventClaim rule event k
    if !claimed.1 then (.ok false, claimed.2)
    else
      let throttled := checkThrottle rule event claimed.2
      if !throttled.1 then (.ok false, throttled.2)
      else (conditionsMet py rule event.data, throttled.2)

/-! ### The loop -/

structure Processed where
  executed : List Uuid
  raised : Option Fault
  redis : Redis

def takeTurns : Event → List AutomationRule → Redis → Processed
  | _, [], redis => ⟨[], none, redis⟩
  | event, rule :: rules, redis =>
    let turn := takeTurn py rule event (redis rule.id)
    let redis := Function.update redis rule.id turn.2
    match turn.1 with
    | .error f => ⟨[], some f, redis⟩
    | .ok true =>
      let rest := takeTurns (event.behind rule.id true) rules redis
      ⟨rule.id :: rest.executed, rest.raised, rest.redis⟩
    | .ok false => takeTurns (event.behind rule.id false) rules redis

/-- `process_event`, from the rules that `_event_rules` found for it. -/
def processEvent (event : Event) (matchingRules : List AutomationRule) (redis : Redis) : Processed :=
  takeTurns py event
    (matchingRules.filter fun r => event.organizationId == some r.organizationId) redis

/-! ### When a rule reaches its conditions -/

/-- What stands in Redis, and what Redis answers, lets the rule through to its conditions. -/
structure Admitted (event : Event) (k : RuleKeys) (rule : AutomationRule) : Prop where
  active : rule.status = .active
  unclaimed : ∀ id, event.id = some id → id ≠ "" →
    event.trouble rule.id .claim = none ∧ ∀ c ∈ k.claims, c.1 = id → c.2 ≤ event.instant
  rested : 0 < rule.cooldownSeconds →
    event.trouble rule.id .cooldown = none ∧ ∀ t, k.cooldown = some t → t ≤ event.instant
  answered : event.trouble rule.id .rate = none
  room : (k.recent event.instant).length < rule.maxTriggersPerHour

variable {py} {event : Event} {k : RuleKeys} {rule : AutomationRule}

theorem gate_fst {trouble : Option Bool} {r : Bool × RuleKeys} :
    (gate trouble k r).1 = true ↔ trouble = none ∧ r.1 = true := by
  cases trouble <;> simp [gate]

theorem claim_fst {id : String} {now : Time} : (k.claim id now).1 = true ↔
    ∀ c ∈ k.claims, c.1 = id → c.2 ≤ now := by
  unfold RuleKeys.claim
  split
  · next h =>
    simp only [List.any_eq_true, Bool.and_eq_true, beq_iff_eq, decide_eq_true_eq] at h
    obtain ⟨c, mem, same, later⟩ := h
    simp only [Bool.false_eq_true, false_iff]
    intro all
    exact absurd (all c mem same) (not_le.mpr later)
  · next h =>
    simp only [true_iff]
    intro c mem same
    by_contra later
    apply h
    simp only [List.any_eq_true, Bool.and_eq_true, beq_iff_eq, decide_eq_true_eq]
    exact ⟨c, mem, same, not_le.mp later⟩

theorem eventClaim_fst : (eventClaim rule event k).1 = true ↔ ∀ id, event.id = some id → id ≠ "" →
    event.trouble rule.id .claim = none ∧ ∀ c ∈ k.claims, c.1 = id → c.2 ≤ event.instant := by
  unfold eventClaim
  split
  · next none_ => simp [none_]
  · next id some_ =>
    rw [some_]
    split
    · next empty => simp [empty]
    · next named => simp [gate_fst, claim_fst, named]

/-- A claim touches no other key. -/
theorem eventClaim_snd : (eventClaim rule event k).2.cooldown = k.cooldown ∧
    (eventClaim rule event k).2.recent = k.recent := by
  unfold eventClaim
  split
  · exact ⟨rfl, rfl⟩
  · split
    · exact ⟨rfl, rfl⟩
    · unfold gate RuleKeys.claim
      split <;> split_ifs <;> exact ⟨rfl, rfl⟩

theorem checkCooldown_fst : (checkCooldown rule event k).1 = true ↔ (0 < rule.cooldownSeconds →
    event.trouble rule.id .cooldown = none ∧ ∀ t, k.cooldown = some t → t ≤ event.instant) := by
  unfold checkCooldown
  split
  · next positive =>
    rw [gate_fst]
    unfold RuleKeys.rest
    cases k.cooldown with
    | none => simp [positive]
    | some t =>
      by_cases later : event.instant < t
      · simp [positive, later]
      · simp [positive, later, not_lt.mp later]
  · next none_ => simp [none_]

theorem checkCooldown_snd : (checkCooldown rule event k).2.recent = k.recent := by
  unfold checkCooldown gate RuleKeys.rest
  split
  · split <;> split_ifs <;> rfl
  · rfl

theorem attempt_fst {maxCount : Int} {now : Time} :
    (k.attempt maxCount now).1 = true ↔ (k.recent now).length < maxCount := by
  unfold RuleKeys.attempt
  split <;> simp_all

theorem checkThrottle_fst : (checkThrottle rule event k).1 = true ↔
    (checkCooldown rule event k).1 = true ∧ event.trouble rule.id .rate = none ∧
      (k.recent event.instant).length < rule.maxTriggersPerHour := by
  unfold checkThrottle
  cases rested : (checkCooldown rule event k).1 with
  | false => simp [rested]
  | true => simp [rested, gate_fst, attempt_fst, checkCooldown_snd]

/-- The three gates, against what stands in Redis before the turn. -/
theorem admitted_iff : Admitted event k rule ↔ rule.status = .active ∧
    (eventClaim rule event k).1 = true ∧
      (checkThrottle rule event (eventClaim rule event k).2).1 = true := by
  rw [checkThrottle_fst, checkCooldown_fst, eventClaim_fst, eventClaim_snd.1, eventClaim_snd.2]
  constructor
  · intro h
    exact ⟨h.active, h.unclaimed, h.rested, h.answered, h.room⟩
  · rintro ⟨active, unclaimed, rested, answered, room⟩
    exact ⟨active, unclaimed, rested, answered, room⟩

instance : Decidable (Admitted event k rule) := decidable_of_iff' _ admitted_iff

/-- Time opens the gates of a rule and closes none. -/
theorem Admitted.later (h : Admitted event k rule) {instant : Time} (le : event.instant ≤ instant) :
    Admitted { event with instant } k rule := by
  refine ⟨h.active, fun id here named => ?_, fun positive => ?_, h.answered, ?_⟩
  · obtain ⟨answered, expired⟩ := h.unclaimed id here named
    exact ⟨answered, fun c mem same => (expired c mem same).trans le⟩
  · obtain ⟨answered, expired⟩ := h.rested positive
    exact ⟨answered, fun t same => (expired t same).trans le⟩
  · refine lt_of_le_of_lt (Int.ofNat_le.mpr ?_) h.room
    unfold RuleKeys.recent
    dsimp only
    by_cases alive : instant < k.attemptsUntil
    · rw [if_pos alive, if_pos (le.trans_lt alive), ← List.countP_eq_length_filter,
        ← List.countP_eq_length_filter]
      refine List.countP_mono_left fun t _ inside => ?_
      have inside := of_decide_eq_true inside
      exact decide_eq_true (lt_of_le_of_lt (Int.sub_le_sub_right le _) inside)
    · rw [if_neg alive]
      exact Nat.zero_le _

theorem takeTurn_admitted (h : Admitted event k rule) :
    (takeTurn py rule event k).1 = conditionsMet py rule event.data := by
  obtain ⟨active, claimed, throttled⟩ := admitted_iff.mp h
  simp [takeTurn, active, claimed, throttled]

theorem takeTurn_refused (h : ¬ Admitted event k rule) :
    (takeTurn py rule event k).1 = .ok false := by
  rw [admitted_iff] at h
  unfold takeTurn
  dsimp only
  split_ifs with status claimed throttled
  · rfl
  · rfl
  · rfl
  · simp_all

end FreeSdn.Automation
