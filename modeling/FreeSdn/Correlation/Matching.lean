import FreeSdn.Automation.Conditions
import Mathlib.Data.List.Nodup

/-! How `EventCorrelationService` (`services/correlation.py`) finds the events of a rule: the groups of
a scope, and the events that a rule's patterns match in a group. -/

namespace FreeSdn.Correlation

open FreeSdn.Lib FreeSdn.Automation

abbrev Uuid := String

structure EventRecord where
  id : Uuid
  organizationId : Uuid
  siteId : Option Uuid
  correlationId : Option Uuid
  eventType : String
  category : Option String
  timestamp : Int
  payload : Dict
  deriving DecidableEq

/-- A pattern of `event_patterns`, with the defaults of its fields. -/
structure EventPattern where
  eventType : String := "*"
  minCount : Int := 1
  category : Option String := none
  conditions : Dict := []
  deriving DecidableEq

/-! ### `fnmatch` -/

/-- The members of a bracket: characters and ranges.  A hyphen stands for itself at the end. -/
def inBracket (c : Char) : List Char → Bool
  | [] => false
  | [x] => c == x
  | [x, y] => c == x || c == y
  | x :: y :: z :: rest =>
    if y = '-' then (x ≤ c && c ≤ z) || inBracket c rest else c == x || inBracket c (y :: z :: rest)

/-- The text up to the bracket that closes, and what is behind it. -/
def untilBracket : List Char → Option (List Char × List Char)
  | [] => none
  | ']' :: rest => some ([], rest)
  | x :: rest => (untilBracket rest).map fun (inside, behind) => (x :: inside, behind)

/-- What is behind an opening bracket: whether it negates, its members, and the rest of the pattern.  A
closing bracket that comes first is a member. -/
def readBracket (cs : List Char) : Option (Bool × List Char × List Char) :=
  let (negated, cs) := match cs with
    | '!' :: rest => (true, rest)
    | cs => (false, cs)
  match cs with
  | ']' :: rest =>
    (untilBracket rest).map fun (inside, behind) => (negated, ']' :: inside, behind)
  | cs => (untilBracket cs).map fun (inside, behind) => (negated, inside, behind)

/-- What a pattern asks of a text, one element at a time. -/
inductive Glob
  | any
  | one
  | bracket (negated : Bool) (members : List Char)
  | char (c : Char)
  deriving DecidableEq

/-- The elements of a pattern; a bracket that does not close stands for itself. -/
def readGlob : Nat → List Char → List Glob
  | 0, _ => []
  | _ + 1, [] => []
  | n + 1, c :: cs =>
    if c = '*' then .any :: readGlob n cs
    else if c = '?' then .one :: readGlob n cs
    else if c = '[' then
      match readBracket cs with
      | some (negated, members, behind) => .bracket negated members :: readGlob n behind
      | none => .char '[' :: readGlob n cs
    else .char c :: readGlob n cs

def Glob.accepts : Glob → Char → Bool
  | .any, _ => true
  | .one, _ => true
  | .bracket negated members, c => inBracket c members != negated
  | .char x, c => c == x

def globMatches : List Glob → List Char → Bool
  | [], cs => cs.isEmpty
  | .any :: gs, cs => cs.tails.any (globMatches gs)
  | _ :: _, [] => false
  | g :: gs, c :: cs => g.accepts c && globMatches gs cs

/-- `fnmatch` on a system with case-sensitive names. -/
def fnmatch (text pattern : String) : Bool :=
  globMatches (readGlob pattern.length pattern.toList) text.toList

/-! ### Patterns -/

variable (py : Python)

/-- `_payload_matches`. -/
def payloadMatches (payload conditions : Dict) : Bool :=
  payload.isEmpty || conditions.isEmpty || conditions.all fun (key, expected) =>
    equal py (((payload.find? (·.1 == key)).map (·.2)).getD .null) expected

/-- The event passes the three filters of a pattern. -/
def EventPattern.accepts (p : EventPattern) (e : EventRecord) : Bool :=
  fnmatch e.eventType p.eventType &&
    (match p.category, e.category with
      | some wanted, some category => wanted == "" || category == wanted
      | _, _ => true) &&
    (p.conditions.isEmpty || payloadMatches py e.payload p.conditions)

/-- The rule-level conditions, `if conditions:`. -/
def admits (conditions : Option Dict) (e : EventRecord) : Bool :=
  match conditions with
  | some conditions => conditions.isEmpty || payloadMatches py e.payload conditions
  | none => true

/-- The events of all patterns, one pattern behind the other; `none` when one has too few. -/
def collectMatches (events : List EventRecord) : List EventPattern → Option (List EventRecord)
  | [] => some []
  | pattern :: patterns =>
    let matched := events.filter (pattern.accepts py)
    if matched.length < pattern.minCount then none
    else (collectMatches events patterns).map (matched ++ ·)

/-- `_match_patterns`. -/
def matchPatterns (events : List EventRecord) (patterns : List EventPattern)
    (conditions : Option Dict) : List EventRecord :=
  ((collectMatches py events patterns).getD []).filter (admits py conditions)

/-! ### Scopes -/

/-- The key under which `_group_by_scope` puts an event. -/
def scopeKey (scope : String) (e : EventRecord) : String :=
  if scope = "site" then e.siteId.getD "no-site"
  else if scope = "organization" then e.organizationId
  else (e.correlationId.or e.siteId).getD "unknown"

/-- `groups.setdefault(key, []).append(event)`. -/
def appendTo (key : String) (e : EventRecord) :
    List (String × List EventRecord) → List (String × List EventRecord)
  | [] => [(key, [e])]
  | (k, es) :: groups => if k = key then (k, es ++ [e]) :: groups else (k, es) :: appendTo key e groups

/-- `_group_by_scope`. -/
def groupByScope (events : List EventRecord) (scope : String) : List (String × List EventRecord) :=
  events.foldl (fun groups e => appendTo (scopeKey scope e) e groups) []

/-! ### What matches -/

variable {py} {events fewer : List EventRecord} {patterns : List EventPattern}
  {conditions : Option Dict} {e : EventRecord}

theorem collectMatches_mem {found : List EventRecord}
    (h : collectMatches py events patterns = some found) :
    e ∈ found ↔ ∃ p ∈ patterns, e ∈ events ∧ p.accepts py e = true := by
  induction patterns generalizing found with
  | nil =>
    obtain rfl : [] = found := by simpa [collectMatches] using h
    simp
  | cons p patterns ih =>
    rw [collectMatches] at h
    split at h
    · cases h
    · obtain ⟨rest, collected, rfl⟩ := Option.map_eq_some_iff.mp h
      simp [ih collected, List.mem_filter]

/-- Patterns of which no two accept an event of the group match no event twice. -/
theorem collectMatches_nodup {found : List EventRecord} (distinct : events.Nodup)
    (apart : patterns.Pairwise fun p q => ∀ e ∈ events, admits py conditions e = true →
      ¬ (p.accepts py e = true ∧ q.accepts py e = true))
    (h : collectMatches py events patterns = some found) :
    (found.filter (admits py conditions)).Nodup := by
  induction patterns generalizing found with
  | nil =>
    obtain rfl : [] = found := by simpa [collectMatches] using h
    simp
  | cons p patterns ih =>
    rw [collectMatches] at h
    split at h
    · cases h
    · obtain ⟨rest, collected, rfl⟩ := Option.map_eq_some_iff.mp h
      rw [List.pairwise_cons] at apart
      rw [List.filter_append, List.nodup_append']
      refine ⟨(distinct.filter _).filter _, ih apart.2 collected, ?_⟩
      intro e first second
      obtain ⟨here, admitted⟩ := List.mem_filter.mp first
      obtain ⟨mem, accepted⟩ := List.mem_filter.mp here
      obtain ⟨q, later, -, accepts⟩ := (collectMatches_mem collected).mp (List.mem_filter.mp second).1
      exact apart.1 q later e mem admitted ⟨accepted, accepts⟩

/-- Fewer events satisfy no more patterns. -/
theorem collectMatches_mono (less : fewer.Sublist events) {found : List EventRecord}
    (h : collectMatches py fewer patterns = some found) :
    ∃ more, collectMatches py events patterns = some more ∧ ∀ e ∈ found, e ∈ more := by
  induction patterns generalizing found with
  | nil =>
    obtain rfl : [] = found := by simpa [collectMatches] using h
    exact ⟨[], rfl, by simp⟩
  | cons p patterns ih =>
    rw [collectMatches] at h
    split at h
    · cases h
    · next enough =>
      obtain ⟨rest, collected, rfl⟩ := Option.map_eq_some_iff.mp h
      obtain ⟨more, grown, all⟩ := ih collected
      have longer := (less.filter (p.accepts py)).length_le
      refine ⟨events.filter (p.accepts py) ++ more, ?_, ?_⟩
      · rw [collectMatches, if_neg (by omega), grown, Option.map_some]
      · intro e mem
        rcases List.mem_append.mp mem with here | later
        · exact List.mem_append_left _ ((less.filter _).subset here)
        · exact List.mem_append_right _ (all e later)

theorem matchPatterns_mono (less : fewer.Sublist events)
    (mem : e ∈ matchPatterns py fewer patterns conditions) :
    e ∈ matchPatterns py events patterns conditions := by
  unfold matchPatterns at mem ⊢
  cases h : collectMatches py fewer patterns with
  | none => simp [h] at mem
  | some found =>
    obtain ⟨more, grown, all⟩ := collectMatches_mono less h
    rw [h, Option.getD_some, List.mem_filter] at mem
    rw [grown, Option.getD_some, List.mem_filter]
    exact ⟨all e mem.1, mem.2⟩

/-! ### Groups -/

theorem appendTo_keys (key : String) (e : EventRecord) (groups : List (String × List EventRecord)) :
    (appendTo key e groups).map (·.1) =
      if key ∈ groups.map (·.1) then groups.map (·.1) else groups.map (·.1) ++ [key] := by
  induction groups with
  | nil => simp [appendTo]
  | cons group groups ih =>
    obtain ⟨k, es⟩ := group
    rw [appendTo]
    by_cases same : k = key
    · simp [same]
    · have other : key ≠ k := fun h => same h.symm
      rw [if_neg same, List.map_cons, ih]
      by_cases mem : key ∈ groups.map (·.1) <;> simp_all

theorem appendTo_mem {key k : String} {es : List EventRecord}
    {groups : List (String × List EventRecord)} (distinct : (groups.map (·.1)).Nodup) :
    (k, es) ∈ appendTo key e groups ↔ k ≠ key ∧ (k, es) ∈ groups ∨
      k = key ∧ ((∃ old, (key, old) ∈ groups ∧ es = old ++ [e]) ∨
        key ∉ groups.map (·.1) ∧ es = [e]) := by
  induction groups with
  | nil => simp [appendTo]
  | cons group groups ih =>
    obtain ⟨l, old⟩ := group
    rw [List.map_cons, List.nodup_cons] at distinct
    rw [appendTo]
    by_cases same : l = key
    · subst same
      have fresh : ∀ es, (l, es) ∉ groups := fun es mem => distinct.1 (List.mem_map.mpr ⟨_, mem, rfl⟩)
      rw [if_pos rfl]
      by_cases here : k = l
      · subst here
        simp [fresh]
      · simp [here]
    · have other : key ≠ l := fun h => same h.symm
      rw [if_neg same, List.mem_cons, ih distinct.2]
      by_cases here : k = key
      · subst here
        simp [other]
      · simp [here]

/-- What the loop of `_group_by_scope` keeps: every group is the events of its key. -/
def Grouped (scope : String) (events : List EventRecord) (groups : List (String × List EventRecord)) :
    Prop :=
  (groups.map (·.1)).Nodup ∧ ∀ k es, (k, es) ∈ groups ↔
    es ≠ [] ∧ es = events.filter fun e => decide (scopeKey scope e = k)

theorem Grouped.append {scope : String} {groups : List (String × List EventRecord)}
    (h : Grouped scope events groups) :
    Grouped scope (events ++ [e]) (appendTo (scopeKey scope e) e groups) := by
  obtain ⟨distinct, groups_⟩ := h
  constructor
  · rw [appendTo_keys]
    split
    · exact distinct
    · next fresh =>
      rw [List.nodup_append']
      exact ⟨distinct, by simp, by simpa using fresh⟩
  · intro k es
    rw [appendTo_mem distinct, List.filter_append]
    by_cases own : scopeKey scope e = k
    · subst own
      rw [List.filter_cons_of_pos (by simp), List.filter_nil]
      constructor
      · rintro (⟨other, -⟩ | ⟨-, ⟨old, mem, rfl⟩ | ⟨fresh, rfl⟩⟩)
        · exact absurd rfl other
        · exact ⟨by simp, by rw [← ((groups_ _ _).mp mem).2]⟩
        · have nothing : events.filter (fun x => decide (scopeKey scope x = scopeKey scope e)) = [] := by
            by_contra some_
            exact fresh (List.mem_map.mpr ⟨_, (groups_ _ _).mpr ⟨some_, rfl⟩, rfl⟩)
          exact ⟨by simp, by rw [nothing, List.nil_append]⟩
      · rintro ⟨-, rfl⟩
        refine .inr ⟨rfl, ?_⟩
        by_cases nothing : events.filter (fun x => decide (scopeKey scope x = scopeKey scope e)) = []
        · refine .inr ⟨?_, by rw [nothing, List.nil_append]⟩
          intro mem
          obtain ⟨⟨l, old⟩, mem, rfl⟩ := List.mem_map.mp mem
          obtain ⟨some_, same⟩ := (groups_ _ _).mp mem
          exact some_ (same.trans nothing)
        · exact .inl ⟨_, (groups_ _ _).mpr ⟨nothing, rfl⟩, rfl⟩
    · have other : ¬ k = scopeKey scope e := fun h => own h.symm
      rw [List.filter_cons_of_neg (by simpa using own), List.filter_nil, List.append_nil]
      simp [other, groups_]

/-- The groups are the events by their keys, each key once. -/
theorem groupByScope_grouped (events : List EventRecord) (scope : String) :
    Grouped scope events (groupByScope events scope) := by
  unfold groupByScope
  induction events using List.reverseRecOn with
  | nil => exact ⟨by simp, by simp⟩
  | append_singleton events e ih =>
    rw [List.foldl_append, List.foldl_cons, List.foldl_nil]
    exact ih.append

end FreeSdn.Correlation
