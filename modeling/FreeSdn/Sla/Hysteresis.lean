import FreeSdn.Sla.Breaches

/-! Breaches over whole histories of evaluations and acknowledgements.  The count that an evaluation
reads back is the length of the run of complete, violating observations before it, as long as no
two snapshots of a policy carry the same time. -/

namespace FreeSdn.Sla.Monitoring

open FreeSdn.Lib

inductive Event
  | evaluate (e : Evaluation)
  | acknowledge (breachId userId : Uuid) (notes : Option String) (now : Time)

def step (m : Monitor) : Event → Option Monitor
  | .evaluate e => some (evaluatePolicy m e)
  | .acknowledge breachId userId notes now => some (acknowledgeBreach m breachId userId notes now)

/-- A policy that was never evaluated. -/
def start (p : SLAPolicy) : Monitor :=
  ⟨{ p with currentCompliancePercent := none, lastEvaluatedAt := none }, [], []⟩

/-- The health data of an evaluation. -/
def Event.health : Event → Option Health
  | .evaluate e => some e.health
  | .acknowledge _ _ _ _ => none

/-- The health data of the evaluations, the last one first. -/
def attempts (es : List Event) : List Health := (es.filterMap Event.health).reverse

/-- An evaluation does not carry the time of an earlier snapshot. -/
def Timely (m : Monitor) : Event → Prop
  | .evaluate e => ∀ s ∈ m.snapshots, s.recordedAt ≠ e.now
  | .acknowledge _ _ _ _ => True

instance (m : Monitor) (event : Event) : Decidable (Timely m event) :=
  match event with
  | .evaluate e => inferInstanceAs (Decidable (∀ s ∈ m.snapshots, s.recordedAt ≠ e.now))
  | .acknowledge _ _ _ _ => inferInstanceAs (Decidable True)

/-- A target is violated in the health data. -/
def violates (health : Health) (target : String × Rat) : Bool :=
  (extractMetric health target.1).any (isThresholdViolated target.1 target.2)

/-- A target is measured and not violated. -/
def complies (health : Health) (target : String × Rat) : Bool :=
  (extractMetric health target.1).any fun actual => !isThresholdViolated target.1 target.2 actual

variable {p : SLAPolicy} {m m' t u : Monitor} {e : Evaluation} {es fs : List Event} {event : Event}
  {target : String × Rat} {rows : List SLABreach} {required : Nat}
  {previous : List (String × MetricSnapshot)}

/-! ### Counting -/

/-- The length of the run of complete observations that violate a target. -/
def streak (p : SLAPolicy) (target : String × Rat) : List Health → Nat
  | [] => 0
  | health :: rest =>
    if completeObservation p health && violates health target then streak p target rest + 1 else 0

theorem le_streak {k : Nat} {history : List Health} :
    k ≤ streak p target history ↔ k ≤ history.length ∧
      ∀ health ∈ history.take k,
        completeObservation p health = true ∧ violates health target = true := by
  induction history generalizing k with
  | nil => simp [streak]
  | cons health rest ih =>
    cases k with
    | zero => simp
    | succ k =>
      rw [streak, List.take_succ_cons, List.forall_mem_cons, List.length_cons]
      by_cases here : completeObservation p health = true ∧ violates health target = true
      · rw [if_pos (by simpa using here), Nat.succ_le_succ_iff, ih, Nat.succ_le_succ_iff]
        exact ⟨fun h => ⟨h.1, here, h.2⟩, fun h => ⟨h.1, h.2.2⟩⟩
      · rw [if_neg (by simpa using here)]
        exact ⟨fun h => absurd h (by omega), fun h => absurd h.2.1 here⟩

theorem one_le_required (p : SLAPolicy) : 1 ≤ p.required := by
  unfold SLAPolicy.required
  omega

/-- What the snapshot holds of a measured target. -/
theorem lookup_entry {targets : List (String × Rat)} {actual : Rat}
    (distinct : (targets.map Prod.fst).Nodup) (mem : target ∈ targets)
    (measured : extractMetric e.health target.1 = some actual) :
    (targets.filterMap (entry e required previous)).lookup target.1
      = some (.mk target.2 actual
          (if isThresholdViolated target.1 target.2 actual then
            consecutive required previous target.1 target.2 else 0) required) := by
  induction targets with
  | nil => simp at mem
  | cons first targets ih =>
    rw [List.map_cons, List.nodup_cons] at distinct
    rcases List.mem_cons.mp mem with rfl | rest
    · simp [entry, measured]
    · have other : target.1 ≠ first.1 := fun same => distinct.1 (same ▸ List.mem_map_of_mem rest)
      rw [List.filterMap_cons]
      cases h : entry e required previous first with
      | none => exact ih distinct.2 rest
      | some found =>
        obtain ⟨value, -, rfl⟩ := Option.map_eq_some_iff.mp h
        rw [List.lookup_cons, beq_false_of_ne other]
        exact ih distinct.2 rest

/-- The policy keeps its thresholds, and the next evaluation counts on from the history. -/
structure Counted (p : SLAPolicy) (es : List Event) (m : Monitor) : Prop where
  targets : m.policy.targets = p.targets
  required : m.policy.required = p.required
  counts : ∀ target ∈ p.targets,
    consecutive p.required (previousMetrics m) target.1 target.2
      = min p.required (streak p target (attempts es) + 1)

theorem Counted.complete (counted : Counted p es m) (health : Health) :
    completeObservation m.policy health = completeObservation p health := by
  rw [completeObservation, counted.targets, completeObservation]

/-- The count in a complete evaluation. -/
theorem Counted.prior (counted : Counted p es m) (mem : target ∈ p.targets)
    (complete : completeObservation p e.health = true) :
    consecutive p.required (prior m e) target.1 target.2
      = min p.required (streak p target (attempts es) + 1) := by
  by_cases many : 1 < p.required
  · rw [Monitoring.prior, if_pos ⟨counted.required ▸ many, counted.complete e.health ▸ complete⟩]
    exact counted.counts target mem
  · have one := one_le_required p
    simp only [consecutive]
    omega

theorem attempts_evaluate (es : List Event) (e : Evaluation) :
    attempts (es ++ [.evaluate e]) = e.health :: attempts es := by
  simp [attempts, Event.health]

theorem attempts_acknowledge (es : List Event) (breachId userId : Uuid) (notes : Option String)
    (now : Time) : attempts (es ++ [.acknowledge breachId userId notes now]) = attempts es := by
  simp [attempts, Event.health]

theorem Counted.evaluate (counted : Counted p es m) (alone : Timely m (.evaluate e)) :
    Counted p (es ++ [.evaluate e]) (evaluatePolicy m e) := by
  obtain ⟨targets, required⟩ := evaluatePolicy_thresholds m e
  refine ⟨targets.trans counted.targets, required.trans counted.required, ?_⟩
  intro target mem
  rw [attempts_evaluate, streak]
  cases complete : completeObservation p e.health with
  | false =>
    rw [evaluatePolicy_incomplete ((counted.complete e.health).trans complete)]
    simp [consecutive]
  | true =>
    have here : target ∈ m.policy.targets := counted.targets ▸ mem
    obtain ⟨actual, measured⟩ : ∃ actual, extractMetric e.health target.1 = some actual := by
      rw [completeObservation, List.all_eq_true] at complete
      exact Option.isSome_iff_exists.mp (complete target mem)
    have found : (m.policy.targets.filterMap
        (entry e m.policy.required (Monitoring.prior m e))).lookup target.1 = _ :=
      lookup_entry (targets_distinct m.policy) here measured
    rw [evaluatePolicy_complete here ((counted.complete e.health).trans complete) alone, consecutive,
      found, counted.required, counted.prior mem complete, violates, measured]
    simp only [ne_eq, not_true_eq_false, or_self, if_false, Option.any_some, Bool.true_and]
    split <;> omega

theorem previousMetrics_acknowledge (breachId userId : Uuid) (notes : Option String) (now : Time) :
    previousMetrics (acknowledgeBreach m breachId userId notes now) = previousMetrics m := rfl

theorem Counted.step (counted : Counted p es m) (timely : Timely m event)
    (next : step m event = some m') : Counted p (es ++ [event]) m' := by
  cases event with
  | evaluate e =>
    obtain rfl := Option.some.inj next
    exact counted.evaluate timely
  | acknowledge breachId userId notes now =>
    obtain rfl := Option.some.inj next
    refine ⟨counted.targets, counted.required, ?_⟩
    rw [attempts_acknowledge, previousMetrics_acknowledge]
    exact counted.counts

theorem run_counted (run : Runs step Timely (start p) es t) : Counted p es t := by
  refine run.traced (P := Counted p) ⟨rfl, rfl, ?_⟩ ?_
  · intro target _
    simp [previousMetrics, start, consecutive, attempts, streak]
  · intro es t event u timely next counted
    exact counted.step timely next

/-! ### Breaches of a metric -/

theorem violates_iff {actual : Rat} (measured : extractMetric e.health target.1 = some actual) :
    violates e.health target = isThresholdViolated target.1 target.2 actual := by
  rw [violates, measured, Option.any_some]

theorem complies_iff {actual : Rat} (measured : extractMetric e.health target.1 = some actual) :
    complies e.health target = !isThresholdViolated target.1 target.2 actual := by
  rw [complies, measured, Option.any_some]

theorem mem_breachesOf {metricName : String} {b : SLABreach} (mem : b ∈ m.breachesOf metricName) :
    b.violatedMetric = metricName := by
  simpa using (List.mem_filter.mp mem).2

theorem any_unresolved (own : ∀ b ∈ rows, b.violatedMetric = target.1) :
    (rows.any fun b => b.violatedMetric = target.1 && b.unresolved) = false ↔
      ∀ b ∈ rows, b.unresolved = false := by
  rw [List.any_eq_false]
  refine forall₂_congr fun b mem => ?_
  simp [own b mem]

/-- When a turn adds a breach. -/
theorem turn_raises (own : ∀ b ∈ rows, b.violatedMetric = target.1) :
    rows.length < (turn e required previous target rows).length ↔
      violates e.health target = true ∧ required ≤ consecutive required previous target.1 target.2 ∧
        ∀ b ∈ rows, b.unresolved = false := by
  rw [← any_unresolved own]
  obtain ⟨unmeasured, same⟩ | ⟨actual, measured, ⟨fine, same⟩ | ⟨bad, ⟨found, same⟩ | ⟨none, rest⟩⟩⟩ :=
    turn_cases e required previous target rows
  · simp [same, violates, unmeasured]
  · simp [same, violates_iff measured, fine, change]
  · simp [same, found, change]
  · obtain ⟨few, same⟩ | ⟨enough, same⟩ := rest
    · rw [same]
      exact ⟨fun h => absurd h (Nat.lt_irrefl _), fun h => absurd few (Nat.not_lt.mpr h.2.1)⟩
    · rw [same, violates_iff measured]
      exact ⟨fun _ => ⟨bad, enough, none⟩, fun _ => by simp⟩

@[simp] theorem resolve_unresolved (b : SLABreach) : (resolve e b).unresolved = false := rfl

@[simp] theorem refreshed_unresolved (threshold actual : Rat) (b : SLABreach) :
    (refreshed e threshold actual b).unresolved = b.unresolved := rfl

/-- What a turn does to a breach. -/
theorem turn_row (own : ∀ b ∈ rows, b.violatedMetric = target.1) {i : Nat} {b : SLABreach}
    (row : rows[i]? = some b) :
    ∃ b', (turn e required previous target rows)[i]? = some b' ∧
      b'.unresolved = (b.unresolved && !complies e.health target) := by
  have named := own b (List.mem_of_getElem? row)
  obtain ⟨unmeasured, same⟩ | ⟨actual, measured, ⟨fine, same⟩ | ⟨bad, ⟨found, same⟩ | ⟨none, rest⟩⟩⟩ :=
    turn_cases e required previous target rows
  · rw [same]
    exact ⟨b, row, by simp [complies, unmeasured]⟩
  · rw [same, change, List.getElem?_map, row, complies_iff measured, fine]
    refine ⟨_, rfl, ?_⟩
    cases h : b.unresolved <;> simp [named, h]
  · rw [same, change, List.getElem?_map, row, complies_iff measured, bad]
    refine ⟨_, rfl, ?_⟩
    cases h : b.unresolved <;> simp [named, h]
  · rw [complies_iff measured, bad]
    have keeps : b.unresolved = (b.unresolved && !!true) := by simp
    obtain ⟨-, same⟩ | ⟨-, same⟩ := rest
    · rw [same]
      exact ⟨b, row, keeps⟩
    · refine ⟨b, ?_, keeps⟩
      rw [same, List.getElem?_append_left (List.getElem?_eq_some_iff.mp row).1]
      exact row

theorem countP_change {f : SLABreach → SLABreach} (metricName : String)
    (keeps : ∀ b, (f b).unresolved = true → b.unresolved = true) :
    (change metricName f rows).countP SLABreach.unresolved ≤ rows.countP SLABreach.unresolved := by
  rw [change, List.countP_map]
  apply List.countP_mono_left
  intro b _
  simp only [Function.comp_apply]
  split
  · exact keeps b
  · exact id

/-- A turn leaves at most one unresolved breach. -/
theorem turn_single (own : ∀ b ∈ rows, b.violatedMetric = target.1)
    (single : rows.countP SLABreach.unresolved ≤ 1) :
    (turn e required previous target rows).countP SLABreach.unresolved ≤ 1 := by
  obtain ⟨-, same⟩ | ⟨actual, -, ⟨-, same⟩ | ⟨-, ⟨-, same⟩ | ⟨none, ⟨-, same⟩ | ⟨-, same⟩⟩⟩⟩ :=
    turn_cases e required previous target rows
  · rwa [same]
  · rw [same]
    exact le_trans (countP_change target.1 fun b h => by simp at h)
      single
  · rw [same]
    exact le_trans (countP_change target.1 fun b h => h) single
  · rwa [same]
  · have zero : rows.countP SLABreach.unresolved = 0 := by
      rw [List.countP_eq_zero]
      intro b mem
      simpa using (any_unresolved own).mp none b mem
    rw [same, List.countP_append, zero, Nat.zero_add]
    exact List.countP_le_length

/-- An acknowledgement keeps the breaches, resolved or not. -/
theorem acknowledge_breachesOf (m : Monitor) (breachId userId : Uuid) (notes : Option String)
    (now : Time) (metricName : String) :
    ∃ f : SLABreach → SLABreach, (∀ b, (f b).unresolved = b.unresolved) ∧
      (acknowledgeBreach m breachId userId notes now).breachesOf metricName
        = (m.breachesOf metricName).map f := by
  refine ⟨fun b => if b.id = breachId && b.unresolved then
      { b with
        status := .acknowledged, acknowledgedAt := some now, acknowledgedBy := some userId
        notes := if notes.getD "" = "" then b.notes else notes }
    else b, ?_, ?_⟩
  · intro b
    simp only
    split
    · rename_i h
      simp only [Bool.and_eq_true] at h
      rw [h.2]
      rfl
    · rfl
  · unfold Monitor.breachesOf acknowledgeBreach
    rw [List.filter_map]
    congr 1
    apply List.filter_congr
    intro b _
    simp only [Function.comp_apply]
    split <;> rfl

theorem step_single (single : ∀ name, (m.breachesOf name).countP SLABreach.unresolved ≤ 1)
    (next : step m event = some m') (name : String) :
    (m'.breachesOf name).countP SLABreach.unresolved ≤ 1 := by
  cases event with
  | evaluate e =>
    obtain rfl := Option.some.inj next
    obtain same | ⟨target, mem, rfl, same⟩ := evaluatePolicy_breachesOf m e name
    · rw [same]
      exact single name
    · rw [same]
      exact turn_single (fun b => mem_breachesOf) (single target.1)
  | acknowledge breachId userId notes now =>
    obtain rfl := Option.some.inj next
    obtain ⟨f, keeps, same⟩ := acknowledge_breachesOf m breachId userId notes now name
    rw [same, List.countP_map, show SLABreach.unresolved ∘ f = SLABreach.unresolved from funext keeps]
    exact single name

/-- An event of which the target complies. -/
def Event.complies (target : String × Rat) : Event → Bool
  | .evaluate e => Monitoring.complies e.health target
  | .acknowledge _ _ _ _ => false

theorem step_targets (next : step m event = some m') : m'.policy.targets = m.policy.targets := by
  cases event with
  | evaluate e =>
    obtain rfl := Option.some.inj next
    exact (evaluatePolicy_thresholds m e).1
  | acknowledge breachId userId notes now =>
    obtain rfl := Option.some.inj next
    rfl

/-- A breach after a step. -/
theorem step_row (next : step m event = some m') (mem : target ∈ m.policy.targets) {i : Nat}
    {b : SLABreach} (row : (m.breachesOf target.1)[i]? = some b) :
    ∃ b', (m'.breachesOf target.1)[i]? = some b' ∧
      b'.unresolved = (b.unresolved && !event.complies target) := by
  cases event with
  | evaluate e =>
    obtain rfl := Option.some.inj next
    rw [evaluatePolicy_own mem]
    exact turn_row (fun b => mem_breachesOf) row
  | acknowledge breachId userId notes now =>
    obtain rfl := Option.some.inj next
    obtain ⟨f, keeps, same⟩ := acknowledge_breachesOf m breachId userId notes now target.1
    refine ⟨f b, by rw [same, List.getElem?_map, row, Option.map_some], ?_⟩
    rw [keeps, Event.complies, Bool.not_false, Bool.and_true]

/-- A breach after a run. -/
theorem run_row {ok : Monitor → Event → Prop} (run : Runs step ok t fs u)
    (mem : target ∈ t.policy.targets) {i : Nat} {b : SLABreach}
    (row : (t.breachesOf target.1)[i]? = some b) :
    u.policy.targets = t.policy.targets ∧ ∃ b', (u.breachesOf target.1)[i]? = some b' ∧
      b'.unresolved = (b.unresolved && !fs.any (Event.complies target)) := by
  induction run with
  | nil => exact ⟨rfl, b, row, by simp⟩
  | snoc _ _ next ih =>
    obtain ⟨targets, b', row', keeps⟩ := ih
    obtain ⟨b'', row'', keeps'⟩ := step_row next (targets ▸ mem) row'
    refine ⟨(step_targets next).trans targets, b'', row'', ?_⟩
    rw [keeps', keeps, List.any_append, List.any_cons, List.any_nil, Bool.or_false, Bool.not_or,
      Bool.and_assoc]

theorem any_complies : fs.any (Event.complies target) = true ↔
    ∃ e, Event.evaluate e ∈ fs ∧ complies e.health target = true := by
  rw [List.any_eq_true]
  constructor
  · rintro ⟨event, mem, met⟩
    cases event with
    | evaluate e => exact ⟨e, mem, met⟩
    | acknowledge => cases met
  · rintro ⟨e, mem, met⟩
    exact ⟨.evaluate e, mem, met⟩

theorem unresolved_eq_false {b : SLABreach} : b.unresolved = false ↔ b.status = .resolved := by
  cases h : b.status <;> simp [SLABreach.unresolved, h]

/-! ### Hysteresis -/

/-- The target is violated in a complete observation, and so it was in as many attempts right before
as the policy asks for. -/
def Confirmed (p : SLAPolicy) (es : List Event) (e : Evaluation) (target : String × Rat) : Prop :=
  violates e.health target = true ∧ completeObservation p e.health = true ∧
    p.required - 1 ≤ (attempts es).length ∧
    ∀ health ∈ (attempts es).take (p.required - 1),
      completeObservation p health = true ∧ violates health target = true

instance (p : SLAPolicy) (es : List Event) (e : Evaluation) (target : String × Rat) :
    Decidable (Confirmed p es e target) :=
  inferInstanceAs (Decidable (_ ∧ _ ∧ _ ∧ _))

/-- A breach is raised for the target. -/
def Raised (m : Monitor) (e : Evaluation) (target : String × Rat) : Prop :=
  (m.breachesOf target.1).length < ((evaluatePolicy m e).breachesOf target.1).length

instance (m : Monitor) (e : Evaluation) (target : String × Rat) : Decidable (Raised m e target) :=
  inferInstanceAs (Decidable (_ < _))

theorem Counted.raised_iff (counted : Counted p es m) (mem : target ∈ p.targets)
    (many : 1 < p.required) :
    Raised m e target ↔
      Confirmed p es e target ∧ ∀ b ∈ m.breachesOf target.1, b.unresolved = false := by
  rw [Raised, evaluatePolicy_own (counted.targets ▸ mem), turn_raises fun b => mem_breachesOf,
    counted.required, Confirmed, ← le_streak]
  cases complete : completeObservation p e.health with
  | false =>
    have unread : Monitoring.prior m e = [] := by
      rw [Monitoring.prior, if_neg]
      rw [counted.complete, complete]
      exact fun h => Bool.false_ne_true h.2
    have first : consecutive p.required (Monitoring.prior m e) target.1 target.2 = 1 := by
      rw [unread]
      simp only [consecutive, List.lookup_nil]
      omega
    rw [first]
    exact ⟨fun h => absurd h.2.1 (by omega), fun h => absurd h.1.2.1 Bool.false_ne_true⟩
  | true =>
    rw [counted.prior mem complete]
    constructor
    · rintro ⟨bad, enough, none⟩
      exact ⟨⟨bad, rfl, by omega⟩, none⟩
    · rintro ⟨⟨bad, -, enough⟩, none⟩
      exact ⟨bad, by omega, none⟩

/-- A breach is raised exactly after the violations in a row that the policy asks for, it is resolved
exactly by the first evaluation that measures its metric as compliant, and no metric has two
unresolved breaches. -/
theorem breach_hysteresis (run : Runs step Timely (start p) es t) :
    (∀ metricName, (t.breachesOf metricName).countP SLABreach.unresolved ≤ 1) ∧
      ∀ target ∈ p.targets,
        (∀ e, 1 < p.required → (Raised t e target ↔
          Confirmed p es e target ∧ ∀ b ∈ t.breachesOf target.1, b.unresolved = false)) ∧
        ∀ (i : Nat) (b : SLABreach) fs u, (t.breachesOf target.1)[i]? = some b →
          b.unresolved = true → Runs step Timely t fs u →
            ∃ b' : SLABreach, (u.breachesOf target.1)[i]? = some b' ∧
              (b'.status = .resolved ↔
                ∃ e, Event.evaluate e ∈ fs ∧ complies e.health target = true) := by
  have counted := run_counted run
  constructor
  · refine run.invariant
      (P := fun m => ∀ name, (m.breachesOf name).countP SLABreach.unresolved ≤ 1) ?_ ?_
    · intro name
      exact Nat.zero_le 1
    · intro m event m' _ next single
      exact step_single single next
  · intro target mem
    constructor
    · intro e many
      exact counted.raised_iff mem many
    · intro i b fs u row unresolved later
      obtain ⟨-, b', row', keeps⟩ := run_row later (counted.targets ▸ mem) row
      refine ⟨b', row', ?_⟩
      rw [← unresolved_eq_false, keeps, unresolved, Bool.true_and, Bool.not_eq_false', any_complies]

/-- Two low scores in a row are a breach. -/
def lowScore : SLAPolicy where
  thresholds := [("health_score_min", some 80)]
  breachAfterConsecutive := 2
  currentCompliancePercent := none
  lastEvaluatedAt := none
  distinct := List.nodup_singleton _

/-- An evaluation of a health score. -/
def scored (now : Time) (snapshotId : Uuid) (score : Rat) : Evaluation where
  now := now
  health := [("avg_health_score", some (.finite score))]
  snapshotId := snapshotId
  breachId := fun _ => snapshotId
  startedAt := now
  round := id

/-- A high score and a low one. -/
def highThenLow (first second : Time) : List Event :=
  [.evaluate (scored first 1 90), .evaluate (scored second 2 10)]

theorem lowScore_hysteresis :
    Runs step Timely (start lowScore) (highThenLow 0 1)
        (after step Timely (start lowScore) (highThenLow 0 1)) ∧
      Raised (after step Timely (start lowScore) (highThenLow 0 1)) (scored 2 3 10)
        ("health_score_min", 80) := by
  have run : Runs step Timely (start lowScore) (highThenLow 0 1)
      (after step Timely (start lowScore) (highThenLow 0 1)) :=
    Runs.to_after (by decide +kernel)
  refine ⟨run, ?_⟩
  apply (((breach_hysteresis run).2 ("health_score_min", 80) (by decide +kernel)).1
    (scored 2 3 10) (by decide +kernel)).mpr
  decide +kernel

/-- A second evaluation with the time of the first is not found again: its violation does not
count. -/
theorem repeated_time_uncounted :
    Runs step Free (start lowScore) (highThenLow 0 0)
        (after step Free (start lowScore) (highThenLow 0 0)) ∧
      ("health_score_min", 80) ∈ lowScore.targets ∧ 1 < lowScore.required ∧
      Confirmed lowScore (highThenLow 0 0) (scored 1 3 10) ("health_score_min", 80) ∧
      (∀ b ∈ (after step Free (start lowScore) (highThenLow 0 0)).breachesOf "health_score_min",
        b.unresolved = false) ∧
      ¬Raised (after step Free (start lowScore) (highThenLow 0 0)) (scored 1 3 10)
        ("health_score_min", 80) := by
  refine ⟨Runs.to_after (by decide +kernel), ?_⟩
  decide +kernel

end FreeSdn.Sla.Monitoring
