import FreeSdn.Automation.Engine
import Mathlib.Data.List.Nodup

/-! What rules and events do to each other: a rule that raises ends the turns of the rules behind it,
and an event that does not meet a rule's conditions still takes the rule's cooldown and its place in
the hour. -/

namespace FreeSdn.Automation

open FreeSdn.Lib

variable {py : Python} {event : Event} {redis : Redis} {rules : List AutomationRule}
  {rule : AutomationRule} {k : RuleKeys}

/-! ### Rules -/

variable (py) in
def meets (rule : AutomationRule) (data : Dict) : Bool :=
  match conditionsMet py rule data with
  | .ok met => met
  | .error _ => false

theorem meets_iff {data : Dict} : meets py rule data = true ↔ conditionsMet py rule data = .ok true := by
  unfold meets
  split <;> simp_all

/-- The rules that `process_event` executes are those it would execute one by one. -/
def Isolated (py : Python) (event : Event) (rules : List AutomationRule) (redis : Redis) : Prop :=
  ∀ id, id ∈ (processEvent py event rules redis).executed ↔
    ∃ rule ∈ rules, id ∈ (processEvent py event [rule] redis).executed

/-- The rules of the event's organization. -/
def ofOrganization (event : Event) (rules : List AutomationRule) : List AutomationRule :=
  rules.filter fun r => event.organizationId == some r.organizationId

/-- The rule reaches its conditions, as a rule of the event's organization. -/
def Reaches (event : Event) (redis : Redis) (rule : AutomationRule) : Prop :=
  event.organizationId = some rule.organizationId ∧ Admitted event (redis rule.id) rule

theorem takeTurn_true : (takeTurn py rule event k).1 = .ok true ↔
    Admitted event k rule ∧ conditionsMet py rule event.data = .ok true := by
  by_cases h : Admitted event k rule
  · simp [takeTurn_admitted h, h]
  · simp [takeTurn_refused h, h]

theorem takeTurn_raises : Raises (takeTurn py rule event k).1 ↔
    Admitted event k rule ∧ Raises (conditionsMet py rule event.data) := by
  by_cases h : Admitted event k rule
  · simp [takeTurn_admitted h, h]
  · simp [takeTurn_refused h, h, Raises]

theorem mem_processEvent_one {id : Uuid} : id ∈ (processEvent py event [rule] redis).executed ↔
    Reaches event redis rule ∧ conditionsMet py rule event.data = .ok true ∧ rule.id = id := by
  unfold processEvent Reaches
  by_cases own : event.organizationId = some rule.organizationId
  · rw [List.filter_cons_of_pos (by simp [own]), List.filter_nil, takeTurns]
    dsimp only
    cases answer : (takeTurn py rule event (redis rule.id)).1 with
    | error f =>
      obtain ⟨g, raised⟩ := (takeTurn_raises.mp ⟨f, answer⟩).2
      simp [raised]
    | ok met =>
      cases met with
      | true =>
        obtain ⟨admitted, met⟩ := takeTurn_true.mp answer
        simp [takeTurns, own, admitted, met, eq_comm]
      | false =>
        simp only [takeTurns, List.not_mem_nil, false_iff]
        rintro ⟨⟨-, admitted⟩, met, -⟩
        rw [takeTurn_true.mpr ⟨admitted, met⟩] at answer
        cases answer
  · simp [own, takeTurns]

/-! ### Turns -/

section Turns

variable (py event redis)

/-- The rule is executed when the event arrives, as the only one. -/
def executes (rule : AutomationRule) : Bool :=
  decide (Admitted event (redis rule.id) rule) && meets py rule event.data

/-- The event as it is for the rule behind `front`, if the rules of `front` are executed that would be
executed alone. -/
def turnAfter (front : List AutomationRule) : Event :=
  { event with
    instant := front.foldl (fun now r => now + event.takes r.id (executes py event redis r))
      event.instant }

/-- At its turn a rule of `front` passes its gates, and its conditions raise. -/
def Interrupted (front : List AutomationRule) : Prop :=
  ∃ before rule after, front = before ++ rule :: after ∧
    Admitted (turnAfter py event redis before) (redis rule.id) rule ∧
    Raises (conditionsMet py rule event.data)

/-- No rule of `rules`, which stand behind `front`, is kept from an execution by those before it, and
none comes to one: if it meets its conditions and passes its gates when the event arrives, then no
rule before it raises; and if it passes them at its turn, it did so on arrival, or is not reached. -/
def Undisturbed (front rules : List AutomationRule) : Prop :=
  ∀ before rule after, rules = before ++ rule :: after → meets py rule event.data = true →
    (Admitted event (redis rule.id) rule → ¬ Interrupted py event redis (front ++ before)) ∧
    (Admitted (turnAfter py event redis (front ++ before)) (redis rule.id) rule →
      Admitted event (redis rule.id) rule ∨ Interrupted py event redis (front ++ before))

end Turns

variable {front : List AutomationRule}

theorem executes_iff : executes py event redis rule = true ↔
    Admitted event (redis rule.id) rule ∧ conditionsMet py rule event.data = .ok true := by
  simp [executes, meets_iff]

theorem turnAfter_snoc : turnAfter py event redis (front ++ [rule]) =
    (turnAfter py event redis front).behind rule.id (executes py event redis rule) := by
  simp [turnAfter, Event.behind, List.foldl_append]

theorem admitted_turn (h : Admitted event k rule) : Admitted (turnAfter py event redis front) k rule := by
  induction front using List.reverseRecOn with
  | nil => exact h
  | append_singleton front r ih =>
    rw [turnAfter_snoc]
    exact ih.later (Int.le_add_of_nonneg_right (Int.natCast_nonneg _))

theorem not_interrupted_nil : ¬ Interrupted py event redis [] := by
  rintro ⟨before, rule, after, same, -⟩
  simp at same

theorem interrupted_snoc : Interrupted py event redis (front ++ [rule]) ↔
    Interrupted py event redis front ∨ Admitted (turnAfter py event redis front) (redis rule.id) rule ∧
      Raises (conditionsMet py rule event.data) := by
  constructor
  · rintro ⟨before, r, after, same, fails⟩
    rcases List.eq_nil_or_concat after with rfl | ⟨after, last, rfl⟩
    · obtain ⟨rfl, here⟩ := List.append_inj' same rfl
      obtain rfl := List.singleton_inj.mp here
      exact .inr fails
    · rw [List.concat_eq_append, ← List.cons_append, ← List.append_assoc] at same
      obtain ⟨rfl, -⟩ := List.append_inj' same rfl
      exact .inl ⟨before, r, after, rfl, fails⟩
  · rintro (⟨before, r, after, rfl, fails⟩ | fails)
    · exact ⟨before, r, after ++ [rule], by simp, fails⟩
    · exact ⟨front, rule, [], rfl, fails⟩

theorem Interrupted.append (h : Interrupted py event redis front) (more : List AutomationRule) :
    Interrupted py event redis (front ++ more) := by
  obtain ⟨before, r, after, rfl, fails⟩ := h
  exact ⟨before, r, after ++ more, by simp, fails⟩

theorem undisturbed_nil : Undisturbed py event redis front [] := by
  intro before rule after same
  simp at same

/-- The first rule, and those behind it. -/
theorem undisturbed_cons : Undisturbed py event redis front (rule :: rules) ↔
    (meets py rule event.data = true →
      (Admitted event (redis rule.id) rule → ¬ Interrupted py event redis front) ∧
      (Admitted (turnAfter py event redis front) (redis rule.id) rule →
        Admitted event (redis rule.id) rule ∨ Interrupted py event redis front)) ∧
    Undisturbed py event redis (front ++ [rule]) rules := by
  constructor
  · intro calm
    refine ⟨fun met => by simpa using calm [] rule rules rfl met, fun before r after same met => ?_⟩
    have later := calm (rule :: before) r after (by rw [same, List.cons_append]) met
    rwa [List.append_cons] at later
  · rintro ⟨first, rest⟩ before r after same met
    cases before with
    | nil =>
      obtain ⟨rfl, rfl⟩ := List.cons.inj same
      simpa using first met
    | cons q before =>
      obtain ⟨rfl, tail⟩ := List.cons.inj same
      rw [List.append_cons]
      exact rest before r after tail met

/-- Behind a rule that raises nothing is executed, which disturbs exactly the rules that would be. -/
theorem undisturbed_interrupted (stopped : Interrupted py event redis front) :
    Undisturbed py event redis front rules ↔ ∀ r ∈ rules, executes py event redis r = false := by
  constructor
  · intro calm r mem
    obtain ⟨before, after, same⟩ := List.append_of_mem mem
    by_contra executed
    obtain ⟨admitted, met⟩ := executes_iff.mp (Bool.of_not_eq_false executed)
    exact (calm before r after same (meets_iff.mpr met)).1 admitted (stopped.append before)
  · rintro none before r after rfl met
    refine ⟨fun admitted => ?_, fun _ => .inr (stopped.append before)⟩
    have idle := none r (by simp)
    rw [executes_iff.mpr ⟨admitted, meets_iff.mp met⟩] at idle
    cases idle

theorem takeTurns_subset {now : Redis} {id : Uuid}
    (mem : id ∈ (takeTurns py event rules now).executed) : ∃ r ∈ rules, r.id = id := by
  induction rules generalizing event now with
  | nil => simp [takeTurns] at mem
  | cons rule rules ih =>
    rw [takeTurns] at mem
    dsimp only at mem
    split at mem
    · simp at mem
    · rcases List.mem_cons.mp mem with rfl | mem
      · exact ⟨rule, by simp, rfl⟩
      · obtain ⟨r, here, named⟩ := ih mem
        exact ⟨r, by simp [here], named⟩
    · obtain ⟨r, here, named⟩ := ih mem
      exact ⟨r, by simp [here], named⟩

/-- A rule that does not raise at its turn does not interrupt the loop. -/
theorem not_interrupted_snoc (running : ¬ Interrupted py event redis front) {met : Bool}
    (answer : (takeTurn py rule (turnAfter py event redis front) (redis rule.id)).1 = .ok met) :
    ¬ Interrupted py event redis (front ++ [rule]) := by
  rw [interrupted_snoc]
  rintro (stopped | fails)
  · exact running stopped
  · obtain ⟨g, raised⟩ := takeTurn_raises.mpr fails
    rw [answer] at raised
    cases raised

/-- A rule that is not executed at its turn does not meet its conditions, or its gates are closed, and
then they were closed when the event arrived. -/
theorem idle_turn
    (answer : (takeTurn py rule (turnAfter py event redis front) (redis rule.id)).1 = .ok false) :
    executes py event redis rule = false ∧ (meets py rule event.data = true →
      ¬ Admitted (turnAfter py event redis front) (redis rule.id) rule) := by
  have shut : meets py rule event.data = true →
      ¬ Admitted (turnAfter py event redis front) (redis rule.id) rule := by
    intro met admitted
    rw [takeTurn_true.mpr ⟨admitted, meets_iff.mp met⟩] at answer
    cases answer
  refine ⟨?_, shut⟩
  by_contra executed
  obtain ⟨early, met⟩ := executes_iff.mp (Bool.of_not_eq_false executed)
  exact shut (meets_iff.mpr met) (admitted_turn early)

/-- The rules behind `front`, none of which raised, are executed as they would be alone exactly if they
are not disturbed. -/
theorem takeTurns_agree (distinct : (rules.map (·.id)).Nodup) {now : Redis}
    (same : ∀ r ∈ rules, now r.id = redis r.id) (running : ¬ Interrupted py event redis front) :
    (∀ r ∈ rules, r.id ∈ (takeTurns py (turnAfter py event redis front) rules now).executed ↔
      executes py event redis r = true) ↔ Undisturbed py event redis front rules := by
  induction rules generalizing now front with
  | nil => simp [undisturbed_nil]
  | cons rule rules ih =>
    rw [List.map_cons, List.nodup_cons] at distinct
    obtain ⟨fresh, distinct⟩ := distinct
    have apart : ∀ r ∈ rules, r.id ≠ rule.id := fun r mem eq =>
      fresh (List.mem_map.mpr ⟨r, mem, eq⟩)
    -- A turn touches the keys of its own rule only.
    have kept (keys : RuleKeys) : ∀ r ∈ rules,
        Function.update now rule.id keys r.id = redis r.id := by
      intro r mem
      rw [Function.update_of_ne (apart r mem)]
      exact same r (List.mem_cons_of_mem _ mem)
    have own : now rule.id = redis rule.id := same rule (by simp)
    rw [undisturbed_cons, List.forall_mem_cons, takeTurns, own]
    dsimp only
    generalize (takeTurn py rule (turnAfter py event redis front) (redis rule.id)).2 = keys
    cases answer : (takeTurn py rule (turnAfter py event redis front) (redis rule.id)).1 with
    | error f =>
      -- The rule raises, so that it would not be executed alone, and nothing is behind it.
      have fails := takeTurn_raises.mp ⟨f, answer⟩
      obtain ⟨g, raised⟩ := fails.2
      have raised : conditionsMet py rule event.data = .error g := raised
      have unmet : meets py rule event.data = false := by simp [meets, raised]
      rw [undisturbed_interrupted (interrupted_snoc.mpr (.inr fails))]
      simp [executes, unmet]
    | ok met =>
      have calm := not_interrupted_snoc running answer
      cases met with
      | true =>
        -- The rule is executed: it would be alone, or its gates have opened meanwhile.
        obtain ⟨admitted, met⟩ := takeTurn_true.mp answer
        have met : meets py rule event.data = true := meets_iff.mpr met
        by_cases early : Admitted event (redis rule.id) rule
        · have executed : executes py event redis rule = true := by simp [executes, early, met]
          have rest := ih distinct (kept keys) calm
          rw [turnAfter_snoc, executed] at rest
          rw [← rest]
          simp only [executed, early, running, List.mem_cons, true_or, true_and, implies_true,
            not_false_eq_true, and_self]
          refine forall₂_congr fun r mem => ?_
          simp [apart r mem]
        · simp [executes, early, met, admitted, running]
      | false =>
        -- The rule is not executed, and its gates only open with time.
        obtain ⟨idle, shut⟩ := idle_turn answer
        have rest := ih distinct (kept keys) calm
        rw [turnAfter_snoc, idle] at rest
        rw [← rest]
        have absent : rule.id ∉ (takeTurns py ((turnAfter py event redis front).behind rule.id false)
            rules (Function.update now rule.id keys)).executed := by
          intro mem
          obtain ⟨r, here, named⟩ := takeTurns_subset mem
          exact apart r here named
        simp only [idle, absent, iff_self, true_and, Bool.false_eq_true]
        constructor
        · exact fun all => ⟨fun met => ⟨fun _ => running, fun open_ => (shut met open_).elim⟩, all⟩
        · exact fun both => both.2

/-- The loop has no handler, so that a rule whose conditions raise takes every later rule with it; and
it waits for the action chain of each rule, in which the gates of a later one may open. -/
theorem rules_isolated (py : Python) (event : Event) (rules : List AutomationRule) (redis : Redis)
    (distinct : (rules.map (·.id)).Nodup) :
    Isolated py event rules redis ↔
      Undisturbed py event redis [] (ofOrganization event rules) := by
  have picked : ((ofOrganization event rules).map (·.id)).Nodup :=
    (List.filter_sublist.map _).nodup distinct
  have start : turnAfter py event redis [] = event := by simp [turnAfter]
  rw [← takeTurns_agree picked (fun _ _ => rfl) not_interrupted_nil, start]
  have own {r : AutomationRule} : r ∈ ofOrganization event rules ↔
      r ∈ rules ∧ event.organizationId = some r.organizationId := by
    simp [ofOrganization]
  have alone {id : Uuid} : (∃ r ∈ rules, id ∈ (processEvent py event [r] redis).executed) ↔
      ∃ r ∈ ofOrganization event rules, executes py event redis r = true ∧ r.id = id := by
    simp only [mem_processEvent_one, Reaches, own, executes_iff]
    tauto
  unfold Isolated
  simp only [alone]
  constructor
  · intro isolated r mem
    refine (isolated r.id).trans ⟨?_, fun executed => ⟨r, mem, executed, rfl⟩⟩
    rintro ⟨q, here, executed, named⟩
    rwa [← List.inj_on_of_nodup_map picked here mem named]
  · intro all id
    constructor
    · intro mem
      obtain ⟨r, here, rfl⟩ := takeTurns_subset mem
      exact ⟨r, here, (all r here).mp mem, rfl⟩
    · rintro ⟨r, here, executed, rfl⟩
      exact (all r here).mpr executed

/-- A Python whose library is not asked. -/
def plain : Python := ⟨fun _ => some "", fun _ _ => none, fun _ => false, fun _ => .error⟩

/-- Severity above three, once a minute. -/
def severityRule : AutomationRule :=
  ⟨1, 5, some ⟨[.condition ⟨"severity", .greaterThan, .int 3⟩], "and"⟩, .active, 60, 100⟩

def noteRule : AutomationRule := ⟨2, 5, none, .active, 60, 100⟩

/-- Another rule without conditions. -/
def logRule : AutomationRule := { noteRule with id := 3 }

/-- An event for which every action chain takes two minutes. -/
def alarm (id : String) (severity : Json) (instant : Time) : Event :=
  { id := some id, organizationId := some 5, data := [("severity", severity)], instant := instant
    trouble := fun _ _ => none, takes := fun _ executed => if executed then 120000000 else 0 }

/-- The third rule still rests for so many seconds. -/
def resting (n : Int) : Redis := fun id =>
  if id = 3 then { RuleKeys.empty with cooldown := some (seconds n) } else .empty

/-- The rule that rests is not reached in its rest, and the one that raises has no rule behind it. -/
theorem note_before_severity : Isolated plain (alarm "e1" (.str "high") 0)
    [noteRule, logRule, severityRule] (resting 150) := by
  apply (rules_isolated _ _ _ _ (by decide)).mpr
  have own : ofOrganization (alarm "e1" (.str "high") 0) [noteRule, logRule, severityRule] =
      [noteRule, logRule, severityRule] := rfl
  rw [own, undisturbed_cons, undisturbed_cons, undisturbed_cons]
  refine ⟨fun _ => ⟨fun _ => not_interrupted_nil, fun _ => .inl (by decide)⟩,
    fun _ => ⟨fun early => absurd early (by decide), fun late => absurd late (by decide)⟩,
    fun met => absurd met (by decide), undisturbed_nil⟩

/-- A rest of fifty seconds is over when the chain of the first rule is through. -/
example : (processEvent plain (alarm "e1" (.int 1) 0) [noteRule, logRule] (resting 50)).executed =
      [2, 3] ∧
    (processEvent plain (alarm "e1" (.int 1) 0) [logRule] (resting 50)).executed = [] := by decide

theorem severity_before_note : ¬ Isolated plain (alarm "e1" (.str "high") 0) [severityRule, noteRule]
    (fun _ => .empty) := by
  intro isolated
  have missing := (isolated 2).mpr ⟨noteRule, by simp, by decide⟩
  revert missing
  decide

/-! ### Events -/

variable (py) in
/-- On which events of a history the rule is executed, as the only one that matches. -/
def history (rule : AutomationRule) : List Event → Redis → List Bool
  | [], _ => []
  | event :: events, redis =>
    let processed := processEvent py event [rule] redis
    decide (rule.id ∈ processed.executed) :: history rule events processed.redis

/-- The events that do not meet the rule's conditions change nothing for those that do. -/
def Unaffected (py : Python) (rule : AutomationRule) : Prop :=
  ∀ (redis : Redis) (events : List Event),
    (∀ e ∈ events, e.organizationId = some rule.organizationId) →
    events.Pairwise (fun e later => e.instant ≤ later.instant) →
    ((events.zip (history py rule events redis)).filter (fun p => meets py rule p.1.data)).map
        Prod.snd =
      history py rule (events.filter fun e => meets py rule e.data) redis

theorem mem_executed_iff : rule.id ∈ (processEvent py event [rule] redis).executed ↔
    Reaches event redis rule ∧ meets py rule event.data = true := by
  simp [mem_processEvent_one, meets_iff]

theorem processEvent_keys {redis : Redis} (own : event.organizationId = some rule.organizationId) :
    (processEvent py event [rule] redis).redis rule.id =
      (takeTurn py rule event (redis rule.id)).2 := by
  unfold processEvent
  rw [List.filter_cons_of_pos (by simp [own]), List.filter_nil, takeTurns]
  dsimp only
  split <;> simp [takeTurns]

theorem length_history (events : List Event) (redis : Redis) :
    (history py rule events redis).length = events.length := by
  induction events generalizing redis with
  | nil => rfl
  | cons event events ih => simp [history, ih]

/-- A rule that is never executed is not affected by anything. -/
theorem unaffected_never
    (never : ∀ event redis, ¬ (Reaches event redis rule ∧ meets py rule event.data = true)) :
    Unaffected py rule := by
  intro redis events own sorted
  clear own sorted
  -- The two runs reach different states, so the states are generalized apart.
  suffices apart : ∀ now : Redis, ((events.zip (history py rule events now)).filter
      (fun p => meets py rule p.1.data)).map Prod.snd =
        history py rule (events.filter fun e => meets py rule e.data) redis from apart redis
  intro now
  induction events generalizing now redis with
  | nil => rfl
  | cons event events ih =>
    have skipped : ∀ redis, decide (rule.id ∈ (processEvent py event [rule] redis).executed) = false := by
      intro redis
      exact decide_eq_false fun mem => never event redis (mem_executed_iff.mp mem)
    rw [history]
    rw [List.zip_cons_cons]
    by_cases met : meets py rule event.data = true
    · rw [List.filter_cons_of_pos (by exact met), List.filter_cons_of_pos (by exact met), history,
        List.map_cons, skipped, skipped]
      dsimp only
      congr 1
      exact ih _ _
    · rw [List.filter_cons_of_neg (by exact met), List.filter_cons_of_neg (by exact met)]
      exact ih _ _

theorem unaffected_always (all : ∀ data, meets py rule data = true) : Unaffected py rule := by
  intro redis events _ _
  rw [List.filter_eq_self.mpr fun p _ => all p.1.data, List.filter_eq_self.mpr fun e _ => all e.data]
  exact List.map_snd_zip (length_history events redis).le

/-! ### Events that are lost -/

variable (py) in
/-- The keys after the events of a history. -/
def after (rule : AutomationRule) : List Event → Redis → Redis
  | [], redis => redis
  | event :: events, redis => after rule events (processEvent py event [rule] redis).redis

theorem history_append (front back : List Event) (redis : Redis) :
    history py rule (front ++ back) redis =
      history py rule front redis ++ history py rule back (after py rule front redis) := by
  induction front generalizing redis with
  | nil => rfl
  | cons event front ih => simp [history, after, ih]

/-- The last event is lost, if the events before it close a gate and meet no condition. -/
theorem affected_of_closed {front : List Event} {last : Event}
    (own : ∀ e ∈ front ++ [last], e.organizationId = some rule.organizationId)
    (sorted : (front ++ [last]).Pairwise fun e later => e.instant ≤ later.instant)
    (unmet : ∀ e ∈ front, meets py rule e.data ≠ true) (met : meets py rule last.data = true)
    (opened : Reaches last redis rule) (closed : ¬ Reaches last (after py rule front redis) rule) :
    ¬ Unaffected py rule := by
  intro unaffected
  have same := unaffected redis (front ++ [last]) own sorted
  have dropped : (front.zip (history py rule front redis)).filter
      (fun p => meets py rule p.1.data) = [] := by
    apply List.filter_eq_nil_iff.mpr
    rintro ⟨e, b⟩ mem
    exact unmet e (List.of_mem_zip mem).1
  rw [history_append, List.zip_append (length_history front redis).symm, List.filter_append, dropped,
    List.filter_append, List.filter_eq_nil_iff.mpr unmet] at same
  simp [history, met, mem_executed_iff, opened, closed] at same

/-- An event of the rule's organization at instant zero, without an identifier. -/
def quiet (rule : AutomationRule) (data : Dict) : Event :=
  { id := none, organizationId := some rule.organizationId, data := data, instant := 0
    trouble := fun _ _ => none, takes := fun _ _ => 0 }

theorem admitted_quiet {data : Dict} : Admitted (quiet rule data) k rule ↔ rule.status = .active ∧
    (0 < rule.cooldownSeconds → ∀ t, k.cooldown = some t → t ≤ 0) ∧
      (k.recent 0).length < rule.maxTriggersPerHour := by
  constructor
  · intro h
    exact ⟨h.active, fun positive => (h.rested positive).2, h.room⟩
  · rintro ⟨active, rested, room⟩
    exact ⟨active, by simp [quiet], fun positive => ⟨rfl, rested positive⟩, rfl, room⟩

theorem processEvent_quiet {data : Dict} (active : rule.status = .active) :
    (processEvent py (quiet rule data) [rule] redis).redis rule.id =
      (checkThrottle rule (quiet rule data) (redis rule.id)).2 := by
  have turn : (takeTurn py rule (quiet rule data) (redis rule.id)).2 =
      (checkThrottle rule (quiet rule data) (redis rule.id)).2 := by
    have claimed : eventClaim rule (quiet rule data) (redis rule.id) = (true, redis rule.id) := rfl
    unfold takeTurn
    rw [claimed]
    cases passed : (checkThrottle rule (quiet rule data) (redis rule.id)).1 <;> simp [active, passed]
  exact (processEvent_keys rfl).trans turn

/-- A cooldown that has started is not over at the same instant. -/
theorem checkThrottle_cooling {data : Dict} {t : Time} (positive : 0 < rule.cooldownSeconds)
    (h : k.cooldown = some t ∧ 0 < t) :
    ∃ t, (checkThrottle rule (quiet rule data) k).2.cooldown = some t ∧ 0 < t := by
  refine ⟨t, ?_⟩
  simp [checkThrottle, checkCooldown, positive, gate, quiet, RuleKeys.rest, h.1, h.2]

theorem checkThrottle_cools {data : Dict} (positive : 0 < rule.cooldownSeconds)
    (fresh : k.cooldown = none) :
    ∃ t, (checkThrottle rule (quiet rule data) k).2.cooldown = some t ∧ 0 < t := by
  have later : 0 < seconds rule.cooldownSeconds := Int.mul_pos positive (by decide)
  refine ⟨seconds rule.cooldownSeconds, ?_, later⟩
  simp only [checkThrottle, checkCooldown, positive, gate, quiet, RuleKeys.rest, fresh,
    RuleKeys.attempt]
  simp only [Option.any_none, Bool.false_eq_true, ↓reduceIte]
  split <;> simp

/-- Without a cooldown every event takes its place in the hour. -/
theorem checkThrottle_counts {data : Dict} (none_ : ¬ 0 < rule.cooldownSeconds)
    (room : (k.recent 0).length < rule.maxTriggersPerHour) :
    ((checkThrottle rule (quiet rule data) k).2.recent 0).length = (k.recent 0).length + 1 := by
  have kept : (k.recent 0).filter (fun t => (0 : Time) - seconds 3600 < t) = k.recent 0 := by
    unfold RuleKeys.recent
    split
    · rw [List.filter_filter]
      simp
    · rfl
  have taken : (checkThrottle rule (quiet rule data) k).2 =
      { k with attempts := 0 :: k.recent 0, attemptsUntil := seconds 3700 } := by
    simp [checkThrottle, checkCooldown, none_, gate, quiet, RuleKeys.attempt, room]
  have later : (0 : Time) < seconds 3700 := by decide
  rw [taken, RuleKeys.recent, if_pos later, List.filter_cons_of_pos (by decide), kept,
    List.length_cons]

/-- As many events as the hour holds leave a gate closed for the next. -/
theorem after_closed {data next : Dict} (active : rule.status = .active)
    (some_ : 0 < rule.maxTriggersPerHour) :
    ¬ Reaches (quiet rule next)
      (after py rule (List.replicate rule.maxTriggersPerHour.toNat (quiet rule data))
        fun _ => .empty) rule := by
  rintro ⟨-, admitted⟩
  obtain ⟨-, rested, room⟩ := admitted_quiet.mp admitted
  by_cases positive : 0 < rule.cooldownSeconds
  · -- The first event starts the cooldown, and no later one ends it.
    have cooling : ∀ n (redis : Redis), (∃ t, (redis rule.id).cooldown = some t ∧ 0 < t) →
        ∃ t, ((after py rule (List.replicate n (quiet rule data)) redis) rule.id).cooldown = some t ∧
          0 < t := by
      intro n
      induction n with
      | zero => exact fun redis h => h
      | succ n ih =>
        rintro redis ⟨t, h⟩
        apply ih
        rw [processEvent_quiet active]
        exact checkThrottle_cooling positive h
    obtain ⟨n, more⟩ : ∃ n, rule.maxTriggersPerHour.toNat = n + 1 :=
      ⟨rule.maxTriggersPerHour.toNat - 1, by omega⟩
    rw [more] at rested
    obtain ⟨t, started, later⟩ := cooling n
      (processEvent py (quiet rule data) [rule] fun _ => .empty).redis (by
        rw [processEvent_quiet active]
        exact checkThrottle_cools positive rfl)
    exact absurd (rested positive t started) (not_le.mpr later)
  · have counted : ∀ (n : Nat) (redis : Redis),
        ((redis rule.id).recent 0).length + n ≤ rule.maxTriggersPerHour →
        (((after py rule (List.replicate n (quiet rule data)) redis) rule.id).recent 0).length =
          ((redis rule.id).recent 0).length + n := by
      intro n
      induction n with
      | zero => exact fun redis _ => rfl
      | succ n ih =>
        intro redis fits
        have grown := @checkThrottle_counts rule (redis rule.id) data positive (by omega)
        rw [← @processEvent_quiet py redis rule data active] at grown
        have rest := ih (processEvent py (quiet rule data) [rule] redis).redis (by omega)
        rw [List.replicate_succ, after, rest, grown]
        omega
    have full := counted rule.maxTriggersPerHour.toNat (fun _ => .empty) (by
      have nothing : (RuleKeys.empty.recent 0).length = 0 := rfl
      omega)
    rw [full] at room
    omega

/-- The gates are closed before the conditions are looked at: only a rule that tells no payloads apart
is free of the events it does not match. -/
theorem unmatched_events_apart (py : Python) (rule : AutomationRule) :
    Unaffected py rule ↔ rule.status ≠ .active ∨ rule.maxTriggersPerHour ≤ 0 ∨
      (∀ data, meets py rule data = true) ∨ ∀ data, meets py rule data = false := by
  constructor
  · intro unaffected
    by_contra apart
    simp only [not_or, not_not, not_le, not_forall, Bool.not_eq_true, Bool.not_eq_false] at apart
    obtain ⟨active, some_, ⟨bad, unmet⟩, good, met⟩ := apart
    have closed : ¬ Reaches (quiet rule good) (after py rule
        (List.replicate rule.maxTriggersPerHour.toNat (quiet rule bad)) fun _ => .empty) rule :=
      after_closed active some_
    have opened : Reaches (quiet rule good) (fun _ => .empty) rule := by
      refine ⟨rfl, admitted_quiet.mpr ⟨active, fun _ t h => ?_, some_⟩⟩
      cases h
    have alike : ∀ e ∈ List.replicate rule.maxTriggersPerHour.toNat (quiet rule bad) ++
        [quiet rule good], e.organizationId = some rule.organizationId ∧ e.instant = 0 := by
      intro e mem
      rcases List.mem_append.mp mem with mem | mem
      · rw [List.eq_of_mem_replicate mem]
        exact ⟨rfl, rfl⟩
      · rw [List.mem_singleton.mp mem]
        exact ⟨rfl, rfl⟩
    refine affected_of_closed (fun e mem => (alike e mem).1) ?_ ?_ met opened closed unaffected
    · apply List.pairwise_of_forall_mem_list
      intro e mem later memLater
      rw [(alike e mem).2, (alike later memLater).2]
    · intro e mem
      rw [List.eq_of_mem_replicate mem]
      show meets py rule bad ≠ true
      simp [unmet]
  · rintro (inactive | none_ | all | never)
    · apply unaffected_never
      rintro event redis ⟨⟨-, admitted⟩, -⟩
      exact inactive admitted.active
    · apply unaffected_never
      rintro event redis ⟨⟨-, admitted⟩, -⟩
      have room := admitted.room
      omega
    · exact unaffected_always all
    · apply unaffected_never
      rintro event redis ⟨-, met⟩
      rw [never event.data] at met
      cases met

/-- An event of severity one starts the cooldown that the event of severity nine then meets. -/
theorem low_severity_hides_high :
    meets plain severityRule (alarm "e1" (.int 1) 0).data = false ∧
    history plain severityRule [alarm "e1" (.int 1) 0, alarm "e2" (.int 9) (seconds 10)]
      (fun _ => .empty) = [false, false] ∧
    history plain severityRule [alarm "e2" (.int 9) (seconds 10)] (fun _ => .empty) = [true] := by
  decide

end FreeSdn.Automation
