import FreeSdn.Lib.Json
import FreeSdn.Lib.Text
import Mathlib.Data.List.Infix

/-! `Condition` and `ConditionGroup` of `services/automation.py`: the comparisons of Python on JSON
values, with the operands on which they raise, and the evaluation of a tree of conditions. -/

namespace FreeSdn.Automation

open FreeSdn.Lib

/-- What leaves `evaluate` as an exception. -/
inductive Fault
  | typeError
  | valueError
  | other
  deriving DecidableEq, Repr

/-- A number: `bool` is a subclass of `int`. -/
inductive Number
  | int (n : Int)
  | float (t : FloatText)
  deriving DecidableEq

/-- What `re.compile` does with a pattern: `re.error` is the only exception that `safe_regex`
turns into a `ValueError`. -/
inductive Compiled
  | pattern (fromStart : String → Bool)
  | error
  | raises (f : Fault)

/-- The parts of Python's library on which a condition depends. -/
structure Python where
  /-- `str` of a value that is not a string; `none` when it raises `ValueError`, as it does for an
  integer of too many digits. -/
  str : Json → Option String
  /-- How two numbers compare when one of them is a float; `none` when one is not a number. -/
  compareFloat : Number → Number → Option Ordering
  /-- `_DANGEROUS_PATTERNS.search`. -/
  dangerous : String → Bool
  compile : String → Compiled

def number : Json → Option Number
  | .bool b => some (.int (if b then 1 else 0))
  | .int n => some (.int n)
  | .float t => some (.float t)
  | _ => none

variable (py : Python)

def compareNumbers : Number → Number → Option Ordering
  | .int a, .int b => some (compare a b)
  | a, b => py.compareFloat a b

/-! ### Equality and order -/

mutual
/-- `a == b`. -/
def equal : Json → Json → Bool
  | .null, .null => true
  | .str a, .str b => a == b
  | .arr a, .arr b => equalItems a b
  | .obj a, .obj b => a.length == b.length && equalMembers a b
  | a, b =>
    match number a, number b with
    | some m, some n => compareNumbers py m n == some .eq
    | _, _ => false

def equalItems : List Json → List Json → Bool
  | [], [] => true
  | a :: as, b :: bs => equal a b && equalItems as bs
  | _, _ => false

/-- Every member of a dictionary is a member of `other`. -/
def equalMembers : List (String × Json) → Dict → Bool
  | [], _ => true
  | (k, a) :: as, other =>
    (match other.find? (·.1 == k) with
      | some (_, b) => equal a b
      | none => false) && equalMembers as other
end

/-- The four ordering operators. -/
inductive Order
  | gt | ge | lt | le
  deriving DecidableEq, Repr

def Order.holds : Order → Ordering → Bool
  | .gt, o => o == .gt
  | .ge, o => o != .lt
  | .lt, o => o == .lt
  | .le, o => o != .gt

mutual
/-- `a > b` and its siblings.  Numbers and strings are ordered, and so are lists: by the first items
that differ, else by length.  Everything else raises. -/
def ordered (op : Order) : Json → Json → Except Fault Bool
  | .str a, .str b => .ok (op.holds (compareOfLessAndEq a.toList b.toList))
  | .arr a, .arr b => orderedItems op a b
  | a, b =>
    match number a, number b with
    | some m, some n => .ok ((compareNumbers py m n).any op.holds)
    | _, _ => .error .typeError

def orderedItems (op : Order) : List Json → List Json → Except Fault Bool
  | a :: as, b :: bs => if equal py a b then orderedItems op as bs else ordered op a b
  | as, bs => .ok (op.holds (compare as.length bs.length))
end

/-! ### Membership -/

/-- `part in text`, for two strings. -/
def isSubstring (part text : String) : Bool := text.toList.tails.any (part.toList.isPrefixOf ·)

def toText : Json → Except Fault String
  | .str s => .ok s
  | v =>
    match py.str v with
    | some s => .ok s
    | none => .error .valueError

/-- `value in text`. -/
def inText (value : Json) (text : String) : Except Fault Bool :=
  match value with
  | .str part => .ok (isSubstring part text)
  | _ => .error .typeError

/-- `x in container`. -/
def contains (x : Json) : Json → Except Fault Bool
  | .arr items => .ok (items.any (equal py x))
  | .str text => inText x text
  | .obj members =>
    match x with
    | .arr _ => .error .typeError
    | .obj _ => .error .typeError
    | .str key => .ok (members.any (·.1 == key))
    | _ => .ok false
  | _ => .error .typeError

/-! ### Patterns -/

def maxRegexLength : Nat := 200

/-- `safe_regex`; every `ValueError` is the same one here. -/
def safeRegex : Json → Except Fault (String → Bool)
  | .str pattern =>
    if pattern = "" ∨ maxRegexLength < pattern.length ∨ py.dangerous pattern then
      .error .valueError
    else
      match py.compile pattern with
      | .pattern fromStart => .ok fromStart
      | .error => .error .valueError
      | .raises f => .error f
  | _ => .error .valueError

/-- `except ValueError: return False`. -/
def orFalse (r : Except Fault Bool) : Except Fault Bool :=
  match r with
  | .error .valueError => .ok false
  | r => r

def matchesRegex (fieldValue value : Json) : Except Fault Bool :=
  orFalse (do
    let compiled ← safeRegex py value
    let text ← toText py fieldValue
    return compiled (truncate 4096 text))

/-! ### Conditions -/

inductive ConditionOperator
  | equals | notEquals | greaterThan | greaterEqual | lessThan | lessEqual
  | contains | notContains | matches | in_ | notIn | exists_ | notExists
  deriving DecidableEq, Repr

structure Condition where
  field : String
  operator : ConditionOperator
  value : Json

/-- `_get_field_value` over the parts of the path; `None` for a part that is missing. -/
def getParts : List String → Json → Json
  | [], current => current
  | part :: parts, .obj members =>
    match members.find? (·.1 == part) with
    | some (_, next) => getParts parts next
    | none => .null
  | _, _ => .null

def getFieldValue (data : Dict) (path : String) : Json :=
  getParts ((splitChars '.' path.toList).map String.ofList) (.obj data)

def negated (r : Except Fault Bool) : Except Fault Bool := r.map (!·)

/-- The operators on a field that is present. -/
def Condition.compare (c : Condition) (fieldValue : Json) : Except Fault Bool :=
  match c.operator with
  | .equals => .ok (equal py fieldValue c.value)
  | .notEquals => .ok (!equal py fieldValue c.value)
  | .greaterThan => ordered py .gt fieldValue c.value
  | .greaterEqual => ordered py .ge fieldValue c.value
  | .lessThan => ordered py .lt fieldValue c.value
  | .lessEqual => ordered py .le fieldValue c.value
  | .contains => toText py fieldValue >>= inText c.value
  | .notContains => negated (toText py fieldValue >>= inText c.value)
  | .matches => matchesRegex py fieldValue c.value
  | .in_ => contains py fieldValue c.value
  | .notIn => negated (contains py fieldValue c.value)
  | _ => .ok false

def Condition.evaluate (c : Condition) (data : Dict) : Except Fault Bool :=
  let fieldValue := getFieldValue data c.field
  match c.operator with
  | .exists_ => .ok (fieldValue != .null)
  | .notExists => .ok (fieldValue == .null)
  | _ => if fieldValue = .null then .ok false else c.compare py fieldValue

/-- A member of a group: a condition, or a group with its logic and its members. -/
inductive Clause
  | condition (c : Condition)
  | group (logic : String) (conditions : List Clause)

structure ConditionGroup where
  conditions : List Clause
  logic : String

/-- `all(results)` or `any(results)`; a group of nothing holds. -/
def decideGroup (logic : String) (results : List Bool) : Bool :=
  results.isEmpty || if logic = "and" then results.all id else results.any id

mutual
def Clause.evaluate : Clause → Dict → Except Fault Bool
  | .condition c, data => c.evaluate py data
  | .group logic conditions, data => (evaluateAll conditions data).map (decideGroup logic)

/-- The list comprehension: every member is evaluated, and the first that raises ends it. -/
def evaluateAll : List Clause → Dict → Except Fault (List Bool)
  | [], _ => .ok []
  | c :: cs, data => do
    let result ← c.evaluate data
    let results ← evaluateAll cs data
    return result :: results
end

def ConditionGroup.evaluate (g : ConditionGroup) (data : Dict) : Except Fault Bool :=
  (Clause.group g.logic g.conditions).evaluate py data

/-! ### Where a tree raises -/

mutual
/-- The conditions in a tree. -/
def Clause.leaves : Clause → List Condition
  | .condition c => [c]
  | .group _ conditions => leavesOf conditions

def leavesOf : List Clause → List Condition
  | [] => []
  | c :: cs => c.leaves ++ leavesOf cs
end

def Raises {α : Type} (r : Except Fault α) : Prop := ∃ f, r = .error f

theorem raises_map {α β : Type} {r : Except Fault α} {g : α → β} : Raises (r.map g) ↔ Raises r := by
  cases r <;> simp [Raises, Except.map]

theorem raises_cons {c : Clause} {cs : List Clause} {data : Dict} :
    Raises (evaluateAll py (c :: cs) data) ↔
      Raises (c.evaluate py data) ∨ Raises (evaluateAll py cs data) := by
  rw [evaluateAll]
  cases c.evaluate py data with
  | error f => simp [Raises, bind, Except.bind]
  | ok b => cases evaluateAll py cs data <;> simp [Raises, bind, Except.bind, pure, Except.pure]

mutual
/-- Nothing in a group is skipped: it raises when any condition below it does, whatever its logic and
whatever the others answer. -/
theorem Clause.raises_iff : (c : Clause) → (data : Dict) →
    (Raises (c.evaluate py data) ↔ ∃ leaf ∈ c.leaves, Raises (leaf.evaluate py data))
  | .condition c, data => by simp [Clause.evaluate, Clause.leaves]
  | .group logic conditions, data => by
    rw [Clause.evaluate, Clause.leaves, raises_map]
    exact raises_all_iff conditions data

theorem raises_all_iff : (cs : List Clause) → (data : Dict) →
    (Raises (evaluateAll py cs data) ↔ ∃ leaf ∈ leavesOf cs, Raises (leaf.evaluate py data))
  | [], data => by simp [evaluateAll, leavesOf, Raises]
  | c :: cs, data => by
    rw [raises_cons, Clause.raises_iff c data, raises_all_iff cs data, leavesOf]
    simp only [List.mem_append, or_and_right, exists_or]
end

end FreeSdn.Automation
