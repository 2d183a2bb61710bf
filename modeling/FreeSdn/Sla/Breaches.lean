import FreeSdn.Lib.OrderBy
import FreeSdn.Lib.Run
import FreeSdn.Lib.Text
import FreeSdn.Sla.Delivery
import Mathlib.Algebra.Order.Ring.Rat

/-! The evaluation of an SLA policy (`services/sla.py`).  A policy raises a breach after a number of
violations in a row.  The count is not kept on the policy: it is written into the snapshot of a complete
observation, and the next evaluation finds that snapshot by the time of the last evaluation. -/

namespace FreeSdn.Sla.Monitoring

open FreeSdn.Lib

/-! ### Rows -/

inductive SLABreachStatus
  | active | resolved | acknowledged
  deriving DecidableEq

inductive SLABreachSeverity
  | warning | critical
  deriving DecidableEq

structure SLABreach where
  id : Uuid
  severity : SLABreachSeverity
  status : SLABreachStatus
  violatedMetric : String
  thresholdValue : Rat
  actualValue : Rat
  deviationPercent : Rat
  startedAt : Time
  resolvedAt : Option Time
  acknowledgedAt : Option Time
  acknowledgedBy : Option Uuid
  durationMinutes : Option Int
  notes : Option String
  deriving DecidableEq

/-- Active or acknowledged. -/
def SLABreach.unresolved (b : SLABreach) : Bool :=
  b.status = .active || b.status = .acknowledged

/-- What a snapshot holds of a metric. -/
structure MetricSnapshot where
  threshold : Rat
  actual : Rat
  consecutiveViolations : Nat
  requiredConsecutive : Nat
  deriving DecidableEq

structure SLASnapshot where
  id : Uuid
  recordedAt : Time
  compliancePercent : Rat
  metrics : List (String × MetricSnapshot)
  inBreach : Bool
  deriving DecidableEq

structure SLAPolicy where
  thresholds : List (String × Option Rat)
  breachAfterConsecutive : Int
  currentCompliancePercent : Option Rat
  lastEvaluatedAt : Option Time
  distinct : (thresholds.map Prod.fst).Nodup

/-- The thresholds that are set. -/
def SLAPolicy.targets (p : SLAPolicy) : List (String × Rat) :=
  p.thresholds.filterMap fun entry => entry.2.map fun threshold => (entry.1, threshold)

/-- `max(1, min(policy.breach_after_consecutive or 1, 100))`. -/
def SLAPolicy.required (p : SLAPolicy) : Nat :=
  (max 1 (min (if p.breachAfterConsecutive = 0 then 1 else p.breachAfterConsecutive) 100)).toNat

/-- A policy with its snapshots and breaches. -/
structure Monitor where
  policy : SLAPolicy
  snapshots : List SLASnapshot
  breaches : List SLABreach

/-! ### Observations -/

inductive Reading
  | finite (value : Rat)
  | notFinite
  deriving DecidableEq

/-- The aggregated health data. -/
abbrev Health := List (String × Option Reading)

def metricKey (metricName : String) : String :=
  match metricName with
  | "health_score_min" => "avg_health_score"
  | "uptime_percent_min" => "uptime_percent"
  | "latency_ms_max" => "avg_latency_ms"
  | "packet_loss_percent_max" => "avg_packet_loss"
  | "client_satisfaction_min" => "client_satisfaction"
  | "error_rate_max" => "error_rate"
  | other => other

/-- `_extract_metric`. -/
def extractMetric (health : Health) (metricName : String) : Option Rat :=
  match health.lookup (metricKey metricName) with
  | some (some (.finite value)) => some value
  | _ => none

/-- `_is_threshold_violated`. -/
def isThresholdViolated (metricName : String) (threshold actual : Rat) : Bool :=
  if endsWith metricName "_min" then actual < threshold
  else if endsWith metricName "_max" then threshold < actual
  else false

/-! ### Evaluation -/

/-- What an evaluation gets from outside: its time, the health data, the identifiers and the start time
that the database gives to new rows, and `round` to two places. -/
structure Evaluation where
  now : Time
  health : Health
  snapshotId : Uuid
  breachId : String → Uuid
  startedAt : Time
  round : Rat → Rat

/-- The variables of the loop over the thresholds. -/
structure Pass where
  breaches : List SLABreach
  metrics : List (String × MetricSnapshot)
  anyBreach : Bool
  breachedMetricCount : Nat

/-- The count of violations in a row, this one included. -/
def consecutive (required : Nat) (previous : List (String × MetricSnapshot)) (metricName : String)
    (threshold : Rat) : Nat :=
  let priorCount := match previous.lookup metricName with
    | none => 0
    | some m =>
      if m.threshold ≠ threshold ∨ m.requiredConsecutive ≠ required then 0
      else m.consecutiveViolations
  min required (priorCount + 1)

def deviation (threshold actual : Rat) : Rat := |actual - threshold| / max threshold (1 / 100) * 100

/-- A new breach. -/
def raised (e : Evaluation) (metricName : String) (threshold actual : Rat) : SLABreach where
  id := e.breachId metricName
  severity := if 20 < deviation threshold actual then .critical else .warning
  status := .active
  violatedMetric := metricName
  thresholdValue := threshold
  actualValue := actual
  deviationPercent := e.round (deviation threshold actual)
  startedAt := e.startedAt
  resolvedAt := none
  acknowledgedAt := none
  acknowledgedBy := none
  durationMinutes := none
  notes := none

/-- The breaches of a metric that are not resolved, changed. -/
def change (metricName : String) (f : SLABreach → SLABreach) (breaches : List SLABreach) :
    List SLABreach :=
  breaches.map fun b => if b.violatedMetric = metricName && b.unresolved then f b else b

def refreshed (e : Evaluation) (threshold actual : Rat) (b : SLABreach) : SLABreach :=
  { b with actualValue := actual, deviationPercent := e.round (deviation threshold actual) }

def resolve (e : Evaluation) (b : SLABreach) : SLABreach :=
  { b with
    status := .resolved, resolvedAt := some e.now
    durationMinutes := some ((e.now - b.startedAt).tdiv 60000000) }

/-- One turn of the loop. -/
def evaluateMetric (e : Evaluation) (required : Nat) (previous : List (String × MetricSnapshot))
    (pass : Pass) (target : String × Rat) : Pass :=
  let (metricName, threshold) := target
  match extractMetric e.health metricName with
  | none => pass
  | some actual =>
    if isThresholdViolated metricName threshold actual then
      let count := consecutive required previous metricName threshold
      let pass : Pass :=
        { pass with
          metrics := pass.metrics ++ [(metricName, .mk threshold actual count required)]
          breachedMetricCount := pass.breachedMetricCount + 1 }
      if pass.breaches.any fun b => b.violatedMetric = metricName && b.unresolved then
        { pass with
          anyBreach := true
          breaches := change metricName (refreshed e threshold actual) pass.breaches }
      else if count < required then pass
      else
        { pass with
          anyBreach := true
          breaches := pass.breaches ++ [raised e metricName threshold actual] }
    else
      { pass with
        metrics := pass.metrics ++ [(metricName, .mk threshold actual 0 required)]
        breaches := change metricName (resolve e) pass.breaches }

/-- The metrics of the snapshot that the last evaluation recorded. -/
def previousMetrics (m : Monitor) : List (String × MetricSnapshot) :=
  match m.policy.currentCompliancePercent, m.policy.lastEvaluatedAt with
  | some _, some time =>
    match orderBy SLASnapshot.id (m.snapshots.filter (·.recordedAt = time)) with
    | snapshot :: _ => snapshot.metrics
    | [] => []
  | _, _ => []

/-- Every threshold is measured. -/
def completeObservation (p : SLAPolicy) (health : Health) : Bool :=
  p.targets.all fun target => (extractMetric health target.1).isSome

/-- The counts that an evaluation goes on from. -/
def prior (m : Monitor) (e : Evaluation) : List (String × MetricSnapshot) :=
  if 1 < m.policy.required ∧ completeObservation m.policy e.health then previousMetrics m else []

/-- The loop over the thresholds. -/
def evaluateMetrics (m : Monitor) (e : Evaluation) : Pass :=
  m.policy.targets.foldl (evaluateMetric e m.policy.required (prior m e)) ⟨m.breaches, [], false, 0⟩

/-- `_evaluate_policy`. -/
def evaluatePolicy (m : Monitor) (e : Evaluation) : Monitor :=
  let targets := m.policy.targets
  let attempted := { m.policy with currentCompliancePercent := none, lastEvaluatedAt := some e.now }
  if targets.isEmpty then { m with policy := attempted }
  else if e.health.isEmpty then { m with policy := attempted }
  else
    let pass := evaluateMetrics m e
    if pass.metrics.length ≠ targets.length then
      { m with policy := attempted, breaches := pass.breaches }
    else
      let compliance := e.round
        (((targets.length : Rat) - pass.breachedMetricCount) / targets.length * 100)
      { policy := { attempted with currentCompliancePercent := some compliance }
        snapshots := m.snapshots ++
          [⟨e.snapshotId, e.now, compliance, pass.metrics, pass.anyBreach⟩]
        breaches := pass.breaches }

/-- `acknowledge_breach`. -/
def acknowledgeBreach (m : Monitor) (breachId userId : Uuid) (notes : Option String) (now : Time) :
    Monitor :=
  { m with breaches := m.breaches.map fun b =>
      if b.id = breachId && b.unresolved then
        { b with
          status := .acknowledged, acknowledgedAt := some now, acknowledgedBy := some userId
          notes := if notes.getD "" = "" then b.notes else notes }
      else b }

def Monitor.breachesOf (m : Monitor) (metricName : String) : List SLABreach :=
  m.breaches.filter (·.violatedMetric = metricName)

/-! ### One turn -/

section Turn

variable {e : Evaluation} {required : Nat} {previous : List (String × MetricSnapshot)}
  {target : String × Rat} {rows : List SLABreach} {metricName : String}

/-- What the snapshot holds of a target, if it is measured. -/
def entry (e : Evaluation) (required : Nat) (previous : List (String × MetricSnapshot))
    (target : String × Rat) : Option (String × MetricSnapshot) :=
  (extractMetric e.health target.1).map fun actual =>
    (target.1, .mk target.2 actual
      (if isThresholdViolated target.1 target.2 actual then
        consecutive required previous target.1 target.2 else 0) required)

theorem evaluateMetric_metrics (pass : Pass) :
    (evaluateMetric e required previous pass target).metrics
      = pass.metrics ++ (entry e required previous target).toList := by
  obtain ⟨metricName, threshold⟩ := target
  simp only [evaluateMetric, entry]
  cases extractMetric e.health metricName with
  | none => simp
  | some actual =>
    simp only [Option.map_some, Option.toList_some]
    split
    · split
      · rfl
      · split <;> rfl
    · rfl

/-- The breaches after a turn. -/
def turn (e : Evaluation) (required : Nat) (previous : List (String × MetricSnapshot))
    (target : String × Rat) (rows : List SLABreach) : List SLABreach :=
  match extractMetric e.health target.1 with
  | none => rows
  | some actual =>
    if isThresholdViolated target.1 target.2 actual then
      if rows.any fun b => b.violatedMetric = target.1 && b.unresolved then
        change target.1 (refreshed e target.2 actual) rows
      else if consecutive required previous target.1 target.2 < required then rows
      else rows ++ [raised e target.1 target.2 actual]
    else change target.1 (resolve e) rows

theorem evaluateMetric_breaches (pass : Pass) :
    (evaluateMetric e required previous pass target).breaches
      = turn e required previous target pass.breaches := by
  obtain ⟨metricName, threshold⟩ := target
  simp only [turn, evaluateMetric]
  cases extractMetric e.health metricName with
  | none => rfl
  | some actual =>
    simp only
    split
    · split
      · rfl
      · split <;> rfl
    · rfl

/-- What a turn does to the breaches. -/
theorem turn_cases (e : Evaluation) (required : Nat) (previous : List (String × MetricSnapshot))
    (target : String × Rat) (rows : List SLABreach) :
    extractMetric e.health target.1 = none ∧ turn e required previous target rows = rows ∨
    ∃ actual, extractMetric e.health target.1 = some actual ∧
      (isThresholdViolated target.1 target.2 actual = false ∧
          turn e required previous target rows = change target.1 (resolve e) rows ∨
        isThresholdViolated target.1 target.2 actual = true ∧
          ((rows.any fun b => b.violatedMetric = target.1 && b.unresolved) = true ∧
              turn e required previous target rows
                = change target.1 (refreshed e target.2 actual) rows ∨
            (rows.any fun b => b.violatedMetric = target.1 && b.unresolved) = false ∧
              (consecutive required previous target.1 target.2 < required ∧
                  turn e required previous target rows = rows ∨
                required ≤ consecutive required previous target.1 target.2 ∧
                  turn e required previous target rows
                    = rows ++ [raised e target.1 target.2 actual]))) := by
  unfold turn
  cases extractMetric e.health target.1 with
  | none => exact .inl ⟨rfl, rfl⟩
  | some actual =>
    refine .inr ⟨actual, rfl, ?_⟩
    simp only
    cases isThresholdViolated target.1 target.2 actual with
    | false => exact .inl ⟨rfl, rfl⟩
    | true =>
      refine .inr ⟨rfl, ?_⟩
      cases rows.any fun b => b.violatedMetric = target.1 && b.unresolved with
      | true => exact .inl ⟨rfl, rfl⟩
      | false =>
        refine .inr ⟨rfl, ?_⟩
        by_cases few : consecutive required previous target.1 target.2 < required
        · exact .inl ⟨few, by simp [few]⟩
        · exact .inr ⟨Nat.le_of_not_lt few, by simp [few]⟩

/-- A change of breaches that keeps their metrics commutes with choosing a metric. -/
theorem filter_change {f : SLABreach → SLABreach} (changed : String)
    (keeps : ∀ b, (f b).violatedMetric = b.violatedMetric) :
    (change changed f rows).filter (·.violatedMetric = metricName)
      = change changed f (rows.filter (·.violatedMetric = metricName)) := by
  unfold change
  rw [List.filter_map]
  congr 1
  apply List.filter_congr
  intro b _
  simp only [Function.comp_apply]
  split
  · rw [keeps]
  · rfl

theorem change_other {f : SLABreach → SLABreach} (changed : String) (other : changed ≠ metricName) :
    change changed f (rows.filter (·.violatedMetric = metricName))
      = rows.filter (·.violatedMetric = metricName) := by
  unfold change
  conv => rhs; rw [← List.map_id (rows.filter _)]
  apply List.map_congr_left
  intro b mem
  have named : b.violatedMetric = metricName := by simpa using (List.mem_filter.mp mem).2
  simp [named, Ne.symm other]

/-- A turn leaves the breaches of other metrics alone. -/
theorem turn_other (other : target.1 ≠ metricName) :
    (turn e required previous target rows).filter (·.violatedMetric = metricName)
      = rows.filter (·.violatedMetric = metricName) := by
  obtain ⟨-, same⟩ | ⟨actual, -, ⟨-, same⟩ | ⟨-, ⟨-, same⟩ | ⟨-, ⟨-, same⟩ | ⟨-, same⟩⟩⟩⟩ :=
    turn_cases e required previous target rows
  · rw [same]
  · rw [same, filter_change target.1 (f := resolve e) fun _ => rfl, change_other target.1 other]
  · rw [same, filter_change target.1 (f := refreshed e target.2 actual) fun _ => rfl,
      change_other target.1 other]
  · rw [same]
  · rw [same, List.filter_append]
    simp [raised, other]

/-- The breaches of a metric after its turn come from the breaches of that metric. -/
theorem turn_own :
    (turn e required previous target rows).filter (·.violatedMetric = target.1)
      = turn e required previous target (rows.filter (·.violatedMetric = target.1)) := by
  obtain ⟨metricName, threshold⟩ := target
  have found : ((rows.filter (·.violatedMetric = metricName)).any fun b =>
      b.violatedMetric = metricName && b.unresolved)
        = rows.any fun b => b.violatedMetric = metricName && b.unresolved := by
    rw [List.any_filter]
    congr 1
    funext b
    by_cases named : b.violatedMetric = metricName <;> simp [named]
  unfold turn
  cases extractMetric e.health metricName with
  | none => rfl
  | some actual =>
    simp only [found]
    split
    · split
      · exact filter_change metricName (f := refreshed e threshold actual) fun _ => rfl
      · split
        · rfl
        · simp [raised]
    · exact filter_change metricName (f := resolve e) fun _ => rfl

/-! ### One evaluation -/

variable {targets : List (String × Rat)} {m : Monitor}

theorem pass_metrics (targets : List (String × Rat)) (pass : Pass) :
    (targets.foldl (evaluateMetric e required previous) pass).metrics
      = pass.metrics ++ targets.filterMap (entry e required previous) := by
  induction targets generalizing pass with
  | nil => simp
  | cons target targets ih =>
    rw [List.foldl_cons, ih, evaluateMetric_metrics, List.append_assoc, List.filterMap_cons]
    cases entry e required previous target <;> rfl

theorem pass_other (others : ∀ target ∈ targets, target.1 ≠ metricName) (pass : Pass) :
    (targets.foldl (evaluateMetric e required previous) pass).breaches.filter
        (·.violatedMetric = metricName)
      = pass.breaches.filter (·.violatedMetric = metricName) := by
  induction targets generalizing pass with
  | nil => rfl
  | cons target targets ih =>
    rw [List.foldl_cons, ih fun t mem => others t (List.mem_cons_of_mem _ mem),
      evaluateMetric_breaches, turn_other (others target List.mem_cons_self)]

theorem pass_own (distinct : (targets.map Prod.fst).Nodup) (mem : target ∈ targets) (pass : Pass) :
    (targets.foldl (evaluateMetric e required previous) pass).breaches.filter
        (·.violatedMetric = target.1)
      = turn e required previous target (pass.breaches.filter (·.violatedMetric = target.1)) := by
  induction targets generalizing pass with
  | nil => simp at mem
  | cons first targets ih =>
    rw [List.map_cons, List.nodup_cons] at distinct
    have later : ∀ t ∈ targets, t.1 ≠ first.1 := by
      intro t ht same
      exact distinct.1 (same ▸ List.mem_map_of_mem ht)
    rw [List.foldl_cons]
    rcases List.mem_cons.mp mem with rfl | rest
    · rw [pass_other later, evaluateMetric_breaches, turn_own]
    · rw [ih distinct.2 rest, evaluateMetric_breaches, turn_other (Ne.symm (later target rest))]

theorem targets_distinct (p : SLAPolicy) : (p.targets.map Prod.fst).Nodup := by
  have sub : ∀ ts : List (String × Option Rat),
      ((ts.filterMap fun entry => entry.2.map fun threshold => (entry.1, threshold)).map
        Prod.fst).Sublist (ts.map Prod.fst) := by
    intro ts
    induction ts with
    | nil => exact List.Sublist.refl _
    | cons entry ts ih =>
      obtain ⟨name, threshold⟩ := entry
      cases threshold with
      | none => exact ih.cons name
      | some threshold => exact ih.cons_cons name
  exact p.distinct.sublist (sub p.thresholds)

theorem extractMetric_nil (name : String) : extractMetric [] name = none := rfl

/-- Without data nothing is measured. -/
theorem turn_empty (empty : e.health.isEmpty = true) :
    turn e required previous target rows = rows := by
  have none : e.health = [] := List.isEmpty_iff.mp empty
  rw [turn, none, extractMetric_nil]

theorem evaluateMetrics_metrics (m : Monitor) (e : Evaluation) :
    (evaluateMetrics m e).metrics
      = m.policy.targets.filterMap (entry e m.policy.required (prior m e)) := by
  rw [evaluateMetrics, pass_metrics, List.nil_append]

theorem evaluatePolicy_own (mem : target ∈ m.policy.targets) :
    (evaluatePolicy m e).breachesOf target.1
      = turn e m.policy.required (prior m e) target (m.breachesOf target.1) := by
  have own : (evaluateMetrics m e).breaches.filter (·.violatedMetric = target.1) = _ :=
    pass_own (targets_distinct m.policy) mem _
  simp only [evaluatePolicy]
  split
  · rename_i empty
    rw [List.isEmpty_iff.mp empty] at mem
    simp at mem
  · split
    · rename_i empty
      rw [turn_empty empty]
      rfl
    · split <;> exact own

theorem evaluatePolicy_other (others : ∀ target ∈ m.policy.targets, target.1 ≠ metricName) :
    (evaluatePolicy m e).breachesOf metricName = m.breachesOf metricName := by
  have other : (evaluateMetrics m e).breaches.filter (·.violatedMetric = metricName) = _ :=
    pass_other others _
  simp only [evaluatePolicy]
  split
  · rfl
  · split
    · rfl
    · split <;> exact other

/-- The breaches of a metric take one turn, or stay. -/
theorem evaluatePolicy_breachesOf (m : Monitor) (e : Evaluation) (metricName : String) :
    (evaluatePolicy m e).breachesOf metricName = m.breachesOf metricName ∨
    ∃ target ∈ m.policy.targets, target.1 = metricName ∧
      (evaluatePolicy m e).breachesOf metricName
        = turn e m.policy.required (prior m e) target (m.breachesOf metricName) := by
  by_cases others : ∀ target ∈ m.policy.targets, target.1 ≠ metricName
  · exact .inl (evaluatePolicy_other others)
  · push Not at others
    obtain ⟨target, mem, rfl⟩ := others
    exact .inr ⟨target, mem, rfl, evaluatePolicy_own mem⟩

theorem evaluatePolicy_thresholds (m : Monitor) (e : Evaluation) :
    (evaluatePolicy m e).policy.targets = m.policy.targets ∧
      (evaluatePolicy m e).policy.required = m.policy.required := by
  simp only [evaluatePolicy]
  split
  · exact ⟨rfl, rfl⟩
  · split
    · exact ⟨rfl, rfl⟩
    · split <;> exact ⟨rfl, rfl⟩

/-- A snapshot is written of a complete observation. -/
theorem measured_length : (m.policy.targets.filterMap (entry e required previous)).length
    = m.policy.targets.length ↔ completeObservation m.policy e.health = true := by
  rw [List.filterMap_length_eq_length, completeObservation, List.all_eq_true]
  simp [entry]

theorem evaluatePolicy_incomplete (missing : completeObservation m.policy e.health = false) :
    previousMetrics (evaluatePolicy m e) = [] := by
  have short : (evaluateMetrics m e).metrics.length ≠ m.policy.targets.length := by
    rw [evaluateMetrics_metrics, Ne, measured_length, missing]
    exact Bool.false_ne_true
  simp only [evaluatePolicy, if_pos short]
  split
  · rfl
  · split <;> rfl

/-- The evaluation after a complete observation finds its metrics, if no other snapshot has its
time. -/
theorem evaluatePolicy_complete (mem : target ∈ m.policy.targets)
    (complete : completeObservation m.policy e.health = true)
    (alone : ∀ s ∈ m.snapshots, s.recordedAt ≠ e.now) :
    previousMetrics (evaluatePolicy m e)
      = m.policy.targets.filterMap (entry e m.policy.required (prior m e)) := by
  have all : ∀ t ∈ m.policy.targets, (extractMetric e.health t.1).isSome := by
    simpa [completeObservation] using complete
  have full : ¬(evaluateMetrics m e).metrics.length ≠ m.policy.targets.length := by
    rw [evaluateMetrics_metrics]
    exact not_not.mpr (measured_length.mpr complete)
  have others : m.snapshots.filter (·.recordedAt = e.now) = [] := by
    rw [List.filter_eq_nil_iff]
    intro s hs
    simpa using alone s hs
  rw [← evaluateMetrics_metrics]
  simp only [evaluatePolicy, if_neg full]
  split
  · rename_i empty
    rw [List.isEmpty_iff.mp empty] at mem
    simp at mem
  · split
    · rename_i empty
      have measured := all target mem
      rw [List.isEmpty_iff.mp empty, extractMetric_nil] at measured
      cases measured
    · simp only [previousMetrics, List.filter_append, others, List.nil_append]
      simp only [decide_true, List.filter_cons_of_pos, List.filter_nil, orderBy]
      rfl

end Turn

end FreeSdn.Sla.Monitoring
