import FreeSdn.Automation.Engine
import FreeSdn.Lib.Dictionary
import FreeSdn.Lib.Except
import FreeSdn.Staging.Change
import Mathlib.Data.List.Flatten

/-! The rules that an `AutomationEngine` holds and the index of its event subscriptions
(`services/automation.py`): registering, unregistering and pausing rules, and the rules that an event
finds through the index. -/

namespace FreeSdn.Automation

open FreeSdn.Lib
open FreeSdn.Lib.Dictionary
open FreeSdn.Staging (truthy)

inductive TriggerType
  | event | schedule | webhook | manual | threshold
  deriving DecidableEq, Repr

/-- A rule with what its registration and its selection read. -/
structure EngineRule extends AutomationRule where
  name : String
  triggerType : TriggerType
  triggerConfig : Dict
  priority : Int

structure AutomationEngine where
  rules : List (Uuid × EngineRule) := []
  /-- For each pattern the rules that are subscribed under it. -/
  eventSubscriptions : List (String × List Uuid) := []
  /-- The names of the event rules that name no pattern. -/
  unsubscribedRules : List (Uuid × String) := []
  coordinationBlocks : List (Uuid × List (String × String)) := []

/-- `str.strip`. -/
def strip (s : String) : String :=
  String.ofList ((s.toList.dropWhile isWhitespace).reverse.dropWhile isWhitespace).reverse

variable (py : Python)

/-- `str(trigger_config.get("event_pattern") or "").strip()`. -/
def EngineRule.eventPattern (rule : EngineRule) : Except Fault String :=
  match rule.triggerConfig.lookup "event_pattern" with
  | none => .ok ""
  | some v => if truthy v then (toText py v).map strip else .ok ""

namespace AutomationEngine

/-! ### Registration -/

/-- `_remove_rule_subscriptions`. -/
def removeRuleSubscriptions (e : AutomationEngine) (ruleId : Uuid) : AutomationEngine :=
  { e with
    eventSubscriptions := e.eventSubscriptions.filterMap fun m =>
      let remaining := m.2.filter (· ≠ ruleId)
      if remaining = [] then none else some (m.1, remaining)
    unsubscribedRules := pop e.unsubscribedRules ruleId }

/-- `_event_subscriptions[event_pattern].append(rule.id)`, where a new pattern has an empty list. -/
def subscribe (e : AutomationEngine) (eventPattern : String) (ruleId : Uuid) : AutomationEngine :=
  { e with
    eventSubscriptions := setItem e.eventSubscriptions eventPattern
      ((e.eventSubscriptions.lookup eventPattern).getD [] ++ [ruleId]) }

/-- `register_rule`.  What a pattern raises that has no text leaves the rule registered. -/
def registerRule (e : AutomationEngine) (rule : EngineRule) : Except Fault Unit × AutomationEngine :=
  let removed := e.removeRuleSubscriptions rule.id
  let held := { removed with rules := setItem removed.rules rule.id rule }
  if rule.triggerType = .event then
    match rule.eventPattern py with
    | .error f => (.error f, held)
    | .ok eventPattern =>
      if eventPattern = "" then
        (.ok (), { held with unsubscribedRules := setItem held.unsubscribedRules rule.id rule.name })
      else (.ok (), held.subscribe eventPattern rule.id)
  else (.ok (), held)

def unregisterRule (e : AutomationEngine) (ruleId : Uuid) : Bool × AutomationEngine :=
  if (e.rules.lookup ruleId).isNone then (false, e)
  else
    let removed := { e with rules := pop e.rules ruleId }.removeRuleSubscriptions ruleId
    (true, { removed with coordinationBlocks := pop removed.coordinationBlocks ruleId })

def updateRuleStatus (e : AutomationEngine) (ruleId : Uuid) (status : RuleStatus) :
    Bool × AutomationEngine :=
  match e.rules.lookup ruleId with
  | none => (false, e)
  | some rule =>
    (true, { e with
      rules := setItem e.rules ruleId { rule with status }
      coordinationBlocks :=
        if status ≠ .active then pop e.coordinationBlocks ruleId else e.coordinationBlocks })

/-! ### Selection -/

/-- `s.replace(c, text)`. -/
def replace (c : Char) (text : List Char) (s : List Char) : List Char :=
  s.flatMap fun d => if d = c then text else [d]

/-- `_matches_pattern`. -/
def matchesPattern (eventType pattern : String) : Except Fault Bool :=
  if pattern = "*" then .ok true
  else
    let regexPattern := replace '*' ['.', '*'] (replace '.' ['\\', '.'] pattern.toList)
    orFalse (do
      let compiled ← safeRegex py (.str (String.ofList ('^' :: regexPattern ++ ['$'])))
      return compiled eventType)

/-- The rules that are registered under some ids. -/
def rulesOf (e : AutomationEngine) (ruleIds : List Uuid) : List EngineRule :=
  ruleIds.filterMap fun ruleId => e.rules.lookup ruleId

/-- The rules of the patterns that match, pattern by pattern. -/
def matching (e : AutomationEngine) (eventType : String) :
    List (String × List Uuid) → Except Fault (List EngineRule)
  | [] => .ok []
  | (pattern, ruleIds) :: rest => do
    let here ← matchesPattern py eventType pattern
    let later ← e.matching eventType rest
    return (if here then e.rulesOf ruleIds else []) ++ later

/-- `_find_matching_rules`. -/
def findMatchingRules (e : AutomationEngine) (eventType : String) : Except Fault (List EngineRule) := do
  let matching ← e.matching py eventType e.eventSubscriptions
  return matching.mergeSort fun a b => b.priority ≤ a.priority

/-! ### Calls -/

inductive Call
  | registerRule (rule : EngineRule)
  | unregisterRule (ruleId : Uuid)
  | updateRuleStatus (ruleId : Uuid) (status : RuleStatus)

def step (e : AutomationEngine) : Call → AutomationEngine
  | .registerRule rule => (e.registerRule py rule).2
  | .unregisterRule ruleId => (e.unregisterRule ruleId).2
  | .updateRuleStatus ruleId status => (e.updateRuleStatus ruleId status).2

def run (calls : List Call) : AutomationEngine := calls.foldl (step py) {}

/-! ### The index -/

/-- The patterns under which a rule stands, each as often as it stands there. -/
def appearances (subscriptions : List (String × List Uuid)) (ruleId : Uuid) : List String :=
  subscriptions.flatMap fun m => (m.2.filter (· = ruleId)).map fun _ => m.1

end AutomationEngine

/-- The pattern of an event rule. -/
def EngineRule.named (rule : EngineRule) : Option String :=
  if rule.triggerType = .event then (rule.eventPattern py).toOption else none

/-- The pattern under which a rule is to stand. -/
def EngineRule.wanted (rule : EngineRule) : Option String := (rule.named py).filter (· ≠ "")

/-- The name of an event rule with a blank pattern. -/
def EngineRule.silent (rule : EngineRule) : Option String :=
  if rule.named py = some "" then some rule.name else none

namespace AutomationEngine

/-- The index says what the registered rules say. -/
structure Indexed (e : AutomationEngine) : Prop where
  keyed : ∀ m ∈ e.rules, m.2.id = m.1
  distinct : (e.rules.map Prod.fst).Nodup
  patterns : (e.eventSubscriptions.map Prod.fst).Nodup
  filled : ∀ m ∈ e.eventSubscriptions, m.2 ≠ []
  subscribed : ∀ id, appearances e.eventSubscriptions id =
    ((e.rules.lookup id).bind (EngineRule.wanted py)).toList
  names : (e.unsubscribedRules.map Prod.fst).Nodup
  unsubscribed : ∀ id, e.unsubscribedRules.lookup id =
    (e.rules.lookup id).bind (EngineRule.silent py)

variable {py} {e : AutomationEngine} {subscriptions : List (String × List Uuid)} {id ruleId : Uuid}
  {pattern eventType : String}

/-- What removing a rule leaves of the index. -/
def without (subscriptions : List (String × List Uuid)) (ruleId : Uuid) : List (String × List Uuid) :=
  subscriptions.filterMap fun m =>
    let remaining := m.2.filter (· ≠ ruleId)
    if remaining = [] then none else some (m.1, remaining)

theorem removeRuleSubscriptions_eq : (e.removeRuleSubscriptions ruleId).eventSubscriptions =
    without e.eventSubscriptions ruleId := rfl

theorem without_cons_nil {m : String × List Uuid} (none_left : m.2.filter (· ≠ ruleId) = []) :
    without (m :: subscriptions) ruleId = without subscriptions ruleId :=
  List.filterMap_cons_none (if_pos none_left)

theorem without_cons_some {m : String × List Uuid} (some_left : m.2.filter (· ≠ ruleId) ≠ []) :
    without (m :: subscriptions) ruleId =
      (m.1, m.2.filter (· ≠ ruleId)) :: without subscriptions ruleId :=
  List.filterMap_cons_some (if_neg some_left)

theorem appearances_cons (m : String × List Uuid) : appearances (m :: subscriptions) id =
    ((m.2.filter (· = id)).map fun _ => m.1) ++ appearances subscriptions id := rfl

/-- A rule that is removed stands nowhere, and the others stand where they stood. -/
theorem appearances_without : appearances (without subscriptions ruleId) id =
    if id = ruleId then [] else appearances subscriptions id := by
  induction subscriptions with
  | nil => simp [appearances, without]
  | cons m rest ih =>
    have kept : ((m.2.filter (· ≠ ruleId)).filter (· = id)) =
        if id = ruleId then [] else m.2.filter (· = id) := by
      rw [List.filter_filter]
      split
      · rename_i same
        apply List.filter_eq_nil_iff.mpr
        intro j _
        simp [same]
      · rename_i other
        apply List.filter_congr
        intro j _
        by_cases here : j = id
        · simp [here, other]
        · simp [here]
    have split : appearances (without (m :: rest) ruleId) id =
        (((m.2.filter (· ≠ ruleId)).filter (· = id)).map fun _ => m.1) ++
          appearances (without rest ruleId) id := by
      by_cases none_left : m.2.filter (· ≠ ruleId) = []
      · rw [without_cons_nil none_left, none_left]
        rfl
      · rw [without_cons_some none_left, appearances_cons]
    rw [split, kept, ih, appearances_cons]
    split <;> simp

theorem keys_without :
    ((without subscriptions ruleId).map Prod.fst).Sublist (subscriptions.map Prod.fst) := by
  induction subscriptions with
  | nil => exact List.Sublist.refl _
  | cons m rest ih =>
    by_cases none_left : m.2.filter (· ≠ ruleId) = []
    · rw [without_cons_nil none_left]
      exact ih.cons _
    · rw [without_cons_some none_left]
      exact ih.cons_cons _

theorem filled_without : ∀ m ∈ without subscriptions ruleId, m.2 ≠ [] := by
  intro m mem
  obtain ⟨n, -, left⟩ := List.mem_filterMap.mp mem
  dsimp only at left
  split at left
  · cases left
  · obtain rfl := Option.some.inj left
    assumption

/-- A rule that stood nowhere stands under the pattern it is appended to. -/
theorem appearances_setItem (distinct : (subscriptions.map Prod.fst).Nodup)
    (absent : appearances subscriptions ruleId = []) :
    appearances
        (setItem subscriptions pattern ((subscriptions.lookup pattern).getD [] ++ [ruleId])) id =
      if id = ruleId then [pattern] else appearances subscriptions id := by
  induction subscriptions with
  | nil =>
    by_cases same : ruleId = id
    · simp [setItem, appearances, same]
    · simp [setItem, appearances, same, Ne.symm same]
  | cons m rest ih =>
    obtain ⟨key, ids⟩ := m
    rw [List.map_cons, List.nodup_cons] at distinct
    rw [appearances_cons] at absent
    obtain ⟨here, later⟩ := List.append_eq_nil_iff.mp absent
    have without_id : ids.filter (· = ruleId) = [] := List.map_eq_nil_iff.mp here
    by_cases same : key = pattern
    · subst same
      have alone : rest.lookup key = none := List.lookup_eq_none_iff.mpr fun n mem => by
        simpa using fun eq : key = n.1 => distinct.1 (List.mem_map.mpr ⟨n, mem, eq.symm⟩)
      rw [setItem_cons_self distinct.1, appearances_cons, appearances_cons, List.lookup_cons_self,
        Option.getD_some, List.filter_append]
      by_cases own : id = ruleId
      · subst own
        rw [without_id, if_pos rfl, later]
        simp
      · rw [if_neg own]
        simp [Ne.symm own]
    · rw [setItem_cons_ne same, appearances_cons, appearances_cons, List.lookup_cons,
        beq_false_of_ne (Ne.symm same), ih distinct.2 later]
      by_cases own : id = ruleId
      · subst own
        rw [if_pos rfl, without_id, if_pos rfl]
        rfl
      · rw [if_neg own, if_neg own]

/-! ### Calls keep the index -/

theorem registerRule_eq (rule : EngineRule) : (e.registerRule py rule).2 =
    { e with
      rules := setItem e.rules rule.id rule
      eventSubscriptions :=
        match rule.wanted py with
        | none => without e.eventSubscriptions rule.id
        | some p => setItem (without e.eventSubscriptions rule.id) p
          (((without e.eventSubscriptions rule.id).lookup p).getD [] ++ [rule.id])
      unsubscribedRules :=
        match rule.silent py with
        | none => pop e.unsubscribedRules rule.id
        | some name => setItem (pop e.unsubscribedRules rule.id) rule.id name } := by
  unfold registerRule
  by_cases trigger : rule.triggerType = .event
  · rw [if_pos trigger]
    cases read : rule.eventPattern py with
    | error f =>
      have named : rule.named py = none := by rw [EngineRule.named, if_pos trigger, read]; rfl
      rw [EngineRule.wanted, EngineRule.silent, named]
      rfl
    | ok p =>
      have named : rule.named py = some p := by rw [EngineRule.named, if_pos trigger, read]; rfl
      by_cases blank : p = ""
      · have wanted : rule.wanted py = none := by simp [EngineRule.wanted, named, blank]
        have silent : rule.silent py = some rule.name := by simp [EngineRule.silent, named, blank]
        rw [wanted, silent]
        exact congrArg Prod.snd (if_pos blank)
      · have wanted : rule.wanted py = some p := by simp [EngineRule.wanted, named, blank]
        have silent : rule.silent py = none := by simp [EngineRule.silent, named, blank]
        rw [wanted, silent]
        exact congrArg Prod.snd (if_neg blank)
  · have named : rule.named py = none := if_neg trigger
    rw [if_neg trigger, EngineRule.wanted, EngineRule.silent, named]
    rfl

theorem Indexed.registerRule (h : e.Indexed py) (rule : EngineRule) :
    (e.registerRule py rule).2.Indexed py := by
  have stood : appearances (without e.eventSubscriptions rule.id) rule.id = [] := by
    rw [appearances_without, if_pos rfl]
  have patterns : ((without e.eventSubscriptions rule.id).map Prod.fst).Nodup :=
    h.patterns.sublist keys_without
  rw [registerRule_eq]
  constructor
  case keyed =>
    intro m mem
    rcases mem_setItem mem with rfl | ⟨-, old⟩
    · rfl
    · exact h.keyed m old
  case distinct => exact nodup_setItem h.distinct
  case patterns =>
    show (List.map Prod.fst (match rule.wanted py with | none => _ | some p => _)).Nodup
    cases rule.wanted py with
    | none => exact patterns
    | some p => exact nodup_setItem patterns
  case filled =>
    show ∀ m ∈ (match rule.wanted py with | none => _ | some p => _ : List (String × List Uuid)),
      m.2 ≠ []
    cases rule.wanted py with
    | none => exact filled_without
    | some p =>
      intro m mem
      rcases mem_setItem mem with rfl | ⟨-, old⟩
      · simp
      · exact filled_without m old
  case subscribed =>
    intro id
    show appearances (match rule.wanted py with | none => _ | some p => _) id =
      (((setItem e.rules rule.id rule).lookup id).bind _).toList
    by_cases own : id = rule.id
    · subst own
      rw [lookup_setItem_self, Option.bind_some]
      cases rule.wanted py with
      | none => exact stood
      | some p => exact (appearances_setItem patterns stood).trans (if_pos rfl)
    · rw [lookup_setItem_ne own, ← h.subscribed]
      have others : appearances (without e.eventSubscriptions rule.id) id =
          appearances e.eventSubscriptions id := appearances_without.trans (if_neg own)
      cases rule.wanted py with
      | none => exact others
      | some p => exact ((appearances_setItem patterns stood).trans (if_neg own)).trans others
  case names =>
    show (List.map Prod.fst (match rule.silent py with | none => _ | some name => _)).Nodup
    cases rule.silent py with
    | none => exact nodup_pop h.names
    | some name => exact nodup_setItem (nodup_pop h.names)
  case unsubscribed =>
    intro id
    show (match rule.silent py with | none => _ | some name => _ : List (Uuid × String)).lookup id =
      ((setItem e.rules rule.id rule).lookup id).bind _
    by_cases own : id = rule.id
    · subst own
      rw [lookup_setItem_self, Option.bind_some]
      cases rule.silent py with
      | none => exact lookup_pop_self
      | some name => exact lookup_setItem_self
    · rw [lookup_setItem_ne own, ← h.unsubscribed]
      cases rule.silent py with
      | none => exact lookup_pop_ne own
      | some name => exact (lookup_setItem_ne own).trans (lookup_pop_ne own)

theorem Indexed.unregisterRule (h : e.Indexed py) (ruleId : Uuid) :
    (e.unregisterRule ruleId).2.Indexed py := by
  unfold AutomationEngine.unregisterRule
  split
  · exact h
  · constructor
    case keyed => exact fun m mem => h.keyed m (List.mem_filter.mp mem).1
    case distinct => exact nodup_pop h.distinct
    case patterns =>
      show (List.map Prod.fst (removeRuleSubscriptions _ ruleId).eventSubscriptions).Nodup
      rw [removeRuleSubscriptions_eq]
      exact h.patterns.sublist keys_without
    case filled =>
      show ∀ m ∈ (removeRuleSubscriptions _ ruleId).eventSubscriptions, m.2 ≠ []
      rw [removeRuleSubscriptions_eq]
      exact filled_without
    case subscribed =>
      intro id
      show appearances (removeRuleSubscriptions _ ruleId).eventSubscriptions id =
        (((pop e.rules ruleId).lookup id).bind _).toList
      rw [removeRuleSubscriptions_eq, appearances_without]
      by_cases own : id = ruleId
      · subst own
        rw [if_pos rfl, lookup_pop_self]
        rfl
      · rw [if_neg own, lookup_pop_ne own]
        exact h.subscribed id
    case names => exact nodup_pop h.names
    case unsubscribed =>
      intro id
      show (pop e.unsubscribedRules ruleId).lookup id = ((pop e.rules ruleId).lookup id).bind _
      by_cases own : id = ruleId
      · subst own
        rw [lookup_pop_self, lookup_pop_self]
        rfl
      · rw [lookup_pop_ne own, lookup_pop_ne own]
        exact h.unsubscribed id

/-- What a rule is registered for does not depend on its status. -/
theorem Indexed.updateRuleStatus (h : e.Indexed py) (ruleId : Uuid) (status : RuleStatus) :
    (e.updateRuleStatus ruleId status).2.Indexed py := by
  unfold AutomationEngine.updateRuleStatus
  cases found : e.rules.lookup ruleId with
  | none => exact h
  | some rule =>
    have same {β : Type} (f : EngineRule → Option β) (kept : f { rule with status } = f rule)
        (id : Uuid) : ((setItem e.rules ruleId { rule with status }).lookup id).bind f =
          (e.rules.lookup id).bind f := by
      by_cases own : id = ruleId
      · subst own
        rw [lookup_setItem_self, found]
        exact kept
      · rw [lookup_setItem_ne own]
    constructor
    case keyed =>
      intro m mem
      rcases mem_setItem mem with rfl | ⟨-, old⟩
      · exact h.keyed (ruleId, rule) (mem_of_lookup found)
      · exact h.keyed m old
    case distinct => exact nodup_setItem h.distinct
    case patterns => exact h.patterns
    case filled => exact h.filled
    case subscribed => exact fun id => (h.subscribed id).trans (congrArg _ (same _ rfl id).symm)
    case names => exact h.names
    case unsubscribed => exact fun id => (h.unsubscribed id).trans (same _ rfl id).symm

/-- Every call keeps the index. -/
theorem Indexed.step (h : e.Indexed py) (call : Call) : (e.step py call).Indexed py := by
  cases call with
  | registerRule rule => exact h.registerRule rule
  | unregisterRule ruleId => exact h.unregisterRule ruleId
  | updateRuleStatus ruleId status => exact h.updateRuleStatus ruleId status

theorem indexed_run (calls : List Call) : (run py calls).Indexed py := by
  unfold run
  suffices run_from : ∀ e : AutomationEngine, e.Indexed py →
      (calls.foldl (AutomationEngine.step py) e).Indexed py by
    refine run_from {} ⟨by simp, by simp, by simp, by simp, ?_, by simp, ?_⟩
    · exact fun _ => rfl
    · exact fun _ => rfl
  induction calls with
  | nil => exact fun e h => h
  | cons call calls ih => exact fun e h => ih _ (h.step call)

/-! ### What an event finds -/

/-- The patterns of the index that an event matches. -/
def matched (py : Python) (eventType : String) (subscriptions : List (String × List Uuid)) :
    List (String × List Uuid) :=
  subscriptions.filter fun m => matchesPattern py eventType m.1 = .ok true

theorem matching_eq {found : List EngineRule} (h : e.matching py eventType subscriptions = .ok found) :
    found = e.rulesOf ((matched py eventType subscriptions).flatMap (·.2)) := by
  induction subscriptions generalizing found with
  | nil =>
    obtain rfl := Except.ok.inj h
    rfl
  | cons m rest ih =>
    obtain ⟨here, answered, h⟩ := bind_ok h
    obtain ⟨later, others, h⟩ := bind_ok h
    obtain rfl := Except.ok.inj h
    rw [ih others]
    cases here with
    | true => simp [matched, answered, rulesOf, List.filterMap_append]
    | false => simp [matched, answered]

theorem mem_appearances : pattern ∈ appearances subscriptions id ↔
    ∃ ids, (pattern, ids) ∈ subscriptions ∧ id ∈ ids := by
  constructor
  · intro stands
    obtain ⟨⟨p, ids⟩, mem, here⟩ := List.mem_flatMap.mp stands
    obtain ⟨j, found, rfl⟩ := List.mem_map.mp here
    obtain ⟨inside, same⟩ := List.mem_filter.mp found
    exact ⟨ids, mem, of_decide_eq_true same ▸ inside⟩
  · rintro ⟨ids, mem, inside⟩
    refine List.mem_flatMap.mpr ⟨_, mem, List.mem_map.mpr ⟨id, List.mem_filter.mpr ⟨inside, ?_⟩, rfl⟩⟩
    exact decide_eq_true rfl

theorem count_appearances :
    (subscriptions.flatMap (·.2)).count id = (appearances subscriptions id).length := by
  induction subscriptions with
  | nil => rfl
  | cons m rest ih =>
    rw [List.flatMap_cons, List.count_append, appearances_cons, List.length_append, List.length_map,
      ih, List.count_eq_length_filter]
    simp [beq_eq_decide]

/-- No rule stands in the index twice. -/
theorem Indexed.nodup (h : e.Indexed py) : (e.eventSubscriptions.flatMap (·.2)).Nodup := by
  refine List.nodup_iff_count_le_one.mpr fun id => ?_
  rw [count_appearances, h.subscribed]
  cases (e.rules.lookup id).bind (EngineRule.wanted py) <;> simp

/-- What stands in the index is registered. -/
theorem Indexed.registered (h : e.Indexed py) {ids : List Uuid}
    (mem : (pattern, ids) ∈ e.eventSubscriptions) (inside : id ∈ ids) :
    ∃ rule, e.rules.lookup id = some rule ∧ rule.wanted py = some pattern := by
  have stands := mem_appearances.mpr ⟨ids, mem, inside⟩
  rw [h.subscribed, Option.mem_toList] at stands
  exact Option.bind_eq_some_iff.mp stands

theorem Indexed.id_of_lookup (h : e.Indexed py) {rule : EngineRule}
    (found : e.rules.lookup id = some rule) : rule.id = id := h.keyed _ (mem_of_lookup found)

theorem Indexed.mem_matching (h : e.Indexed py) {rule : EngineRule} :
    rule ∈ e.rulesOf ((matched py eventType e.eventSubscriptions).flatMap (·.2)) ↔
      e.rules.lookup rule.id = some rule ∧
        ∃ p, rule.wanted py = some p ∧ matchesPattern py eventType p = .ok true := by
  unfold rulesOf
  rw [List.mem_filterMap]
  constructor
  · rintro ⟨id, inside, found⟩
    obtain ⟨⟨p, ids⟩, mem, inside⟩ := List.mem_flatMap.mp inside
    obtain ⟨mem, hit⟩ := List.mem_filter.mp mem
    obtain ⟨rule', found', wanted⟩ := h.registered mem inside
    obtain rfl := Option.some.inj (found.symm.trans found')
    have same := h.id_of_lookup found
    exact ⟨same.symm ▸ found, p, wanted, of_decide_eq_true hit⟩
  · rintro ⟨found, p, wanted, hit⟩
    have stands : p ∈ appearances e.eventSubscriptions rule.id := by
      rw [h.subscribed, found, Option.bind_some, wanted]
      simp
    obtain ⟨ids, mem, inside⟩ := mem_appearances.mp stands
    have selected : (p, ids) ∈ matched py eventType e.eventSubscriptions :=
      List.mem_filter.mpr ⟨mem, decide_eq_true hit⟩
    exact ⟨rule.id, List.mem_flatMap.mpr ⟨_, selected, inside⟩, found⟩

/-- Distinct rules are found under distinct ids. -/
theorem Indexed.nodup_matching (h : e.Indexed py) :
    ((e.rulesOf ((matched py eventType e.eventSubscriptions).flatMap (·.2))).map (·.id)).Nodup := by
  have distinct : ((matched py eventType e.eventSubscriptions).flatMap (·.2)).Nodup :=
    h.nodup.sublist (List.filter_sublist.flatMap _)
  refine List.pairwise_map.mpr (List.Pairwise.filterMap _ ?_ distinct)
  intro i j other a found b found'
  rw [h.id_of_lookup found, h.id_of_lookup found']
  exact other

theorem byPriority_sorted (rules : List EngineRule) :
    (rules.mergeSort fun a b => b.priority ≤ a.priority).Pairwise fun a b => b.priority ≤ a.priority := by
  have trans (a b c : EngineRule) (first : decide (b.priority ≤ a.priority) = true)
      (second : decide (c.priority ≤ b.priority) = true) : decide (c.priority ≤ a.priority) = true := by
    simp only [decide_eq_true_eq] at first second ⊢
    omega
  have total (a b : EngineRule) :
      (decide (b.priority ≤ a.priority) || decide (a.priority ≤ b.priority)) = true := by
    simp only [Bool.or_eq_true, decide_eq_true_eq]
    omega
  exact (List.pairwise_mergeSort trans total rules).imp fun le => of_decide_eq_true le

/-- After any calls the index holds each registered event rule once, under its current pattern, and
nothing else; so an event finds each rule whose pattern it matches once, by priority. -/
theorem index_exact (py : Python) (calls : List Call) :
    (run py calls).Indexed py ∧
      ∀ eventType found, (run py calls).findMatchingRules py eventType = .ok found →
        (found.map (·.id)).Nodup ∧ (found.Pairwise fun a b => b.priority ≤ a.priority) ∧
          ∀ rule, rule ∈ found ↔ (run py calls).rules.lookup rule.id = some rule ∧
            ∃ p, rule.wanted py = some p ∧ matchesPattern py eventType p = .ok true := by
  have h : (run py calls).Indexed py := indexed_run calls
  refine ⟨h, fun eventType found answered => ?_⟩
  obtain ⟨matching, collected, answered⟩ := bind_ok answered
  obtain rfl := Except.ok.inj answered
  obtain rfl := matching_eq collected
  have perm := List.mergeSort_perm
    ((run py calls).rulesOf ((matched py eventType (run py calls).eventSubscriptions).flatMap (·.2)))
    fun a b => b.priority ≤ a.priority
  refine ⟨?_, ?_, fun rule => ?_⟩
  · exact (perm.map _).nodup_iff.mpr h.nodup_matching
  · exact byPriority_sorted _
  · rw [perm.mem_iff]
    exact h.mem_matching

end AutomationEngine

end FreeSdn.Automation
