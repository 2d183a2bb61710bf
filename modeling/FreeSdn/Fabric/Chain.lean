import FreeSdn.Fabric.Negotiator
import FreeSdn.Lib.Except
import FreeSdn.Lib.JsonText
import Mathlib.Data.Nat.Digits.Defs

/-! The step chain of a Connection (`Negotiator._run` and `_run_step`) with the data that flows along
it, and the references by which the params of a step name earlier steps (`core/fabric/templating.py`). -/

namespace FreeSdn.Fabric

open FreeSdn.Lib

/-! ### Templates -/

/-- What the resolver takes from Python: `str` and the length of `json.dumps`, each where it does not
raise. -/
structure Rendering where
  str : Json → Option String
  dumped : Json → Option Nat

/-- The characters of a reference. -/
def isPathChar (c : Char) : Bool := isAsciiAlnum c || c = '_' || c = '.' || c = '-'

/-- `{{ path }}` in front of a text. -/
def readReference : List Char → Option (List Char × List Char)
  | '\x7b' :: '\x7b' :: cs =>
    let cs := cs.dropWhile isWhitespace
    let path := cs.takeWhile isPathChar
    match (cs.dropWhile isPathChar).dropWhile isWhitespace with
    | '\x7d' :: '\x7d' :: rest => if path.isEmpty then none else some (path, rest)
    | _ => none
  | _ => none

/-- A text that is one reference; `$` also matches in front of a last newline. -/
def wholeReference (cs : List Char) : Option (List Char) :=
  match readReference cs with
  | some (path, []) | some (path, ['\n']) => some path
  | _ => none

def isIndex (segment : List Char) : Bool := !segment.isEmpty && segment.all isAsciiDigit

/-- Why a path ends early: the segment is missing, or `int` raises. -/
inductive Stop
  | missing | raised

/-- The digits that `int` reads at most. -/
def maxStrDigits : Nat := 4300

/-- `int` refuses the index.  No list is as long as an index of so many digits. -/
def isRefused (segment : List Char) (items : List Json) : Bool :=
  maxStrDigits < segment.length && items.length < 10 ^ maxStrDigits

/-- One segment of a path. -/
def descend (v : Json) (segment : List Char) : Except Stop Json :=
  match v with
  | .obj members => orRaise (members.lookup (String.ofList segment)) .missing
  | .arr items =>
    if isIndex segment then
      if isRefused segment items then .error .raised
      else orRaise items[Nat.ofDigitChars 10 segment 0]? .missing
    else .error .missing
  | _ => .error .missing

/-- The value at the end of a path. -/
def walk : List (List Char) → Json → Except Stop Json
  | [], v => .ok v
  | segment :: segments, v => (descend v segment).bind (walk segments)

/-- What `_lookup` returns: null for a missing segment, nothing where it raises. -/
def answer : Except Stop Json → Option Json
  | .ok v => some v
  | .error .missing => some .null
  | .error .raised => none

/-- `_lookup`. -/
def lookup (path : List Char) (context : Json) : Option Json :=
  answer (walk (splitChars '.' path) context)

section
variable (r : Rendering)

def maxRenderedStr : Nat := 16 * 1024

def maxRefObjectBytes : Nat := 256 * 1024

/-- `_cap_object`. -/
def capObject (v : Json) : Json :=
  match r.dumped v with
  | none => .null
  | some size =>
    if size ≤ maxRefObjectBytes then v
    else .obj [("__truncated__", .str "resolved value exceeded 262144 bytes")]

/-- The text of a reference inside a longer text. -/
def renderReference (context : Json) (path : List Char) : Option (List Char) :=
  match lookup path context with
  | none => none
  | some .null => some []
  | some v => (r.str v).map String.toList

/-- `_REF_RE.sub`; the first argument bounds the turns. -/
def renderText (context : Json) : Nat → List Char → Option (List Char)
  | 0, cs => some cs
  | _, [] => some []
  | turns + 1, c :: cs =>
    match readReference (c :: cs) with
    | some (path, rest) => do
      let text ← renderReference r context path
      let behind ← renderText context turns rest
      return text ++ behind
    | none => do
      let behind ← renderText context turns cs
      return c :: behind

/-- What stands for a string that is one reference. -/
def wholeValue : Json → Json
  | .str s => .str (truncate maxRenderedStr s)
  | .obj members => capObject r (.obj members)
  | .arr items => capObject r (.arr items)
  | v => v

def resolveText (context : Json) (text : String) : Option Json :=
  match wholeReference text.toList with
  | some path => (lookup path context).map (wholeValue r)
  | none => (renderText r context text.length text.toList).map fun rendered =>
      .str (truncate maxRenderedStr (String.ofList rendered))

mutual
/-- `resolve_template`; nothing where it raises. -/
def resolveTemplate (context : Json) (depth : Nat) : Json → Option Json
  | .str text => resolveText r context text
  | .obj members =>
    if 12 < depth then some .null else (resolveMembers context (depth + 1) members).map .obj
  | .arr items => if 12 < depth then some .null else (resolveItems context (depth + 1) items).map .arr
  | v => if 12 < depth then some .null else some v

def resolveItems (context : Json) (depth : Nat) : List Json → Option (List Json)
  | [] => some []
  | v :: vs => do
    let w ← resolveTemplate context depth v
    let ws ← resolveItems context depth vs
    return w :: ws

def resolveMembers (context : Json) (depth : Nat) :
    List (String × Json) → Option (List (String × Json))
  | [] => some []
  | (key, v) :: rest => do
    let w ← resolveTemplate context depth v
    let ws ← resolveMembers context depth rest
    return (key, w) :: ws
end

end

/-! ### Steps -/

structure ChainStep where
  operationId : String
  params : Json
  continueOnError : Bool

/-- `OperationResult`. -/
structure StepResult where
  success : Bool
  output : Json
  artifact : Option Json

/-- The surroundings of a run: the catalog, the permission checks, and what the executor returns for
the step of a chain; nothing when the step raises. -/
structure Engine where
  rendering : Rendering
  operation : String → Option Operation
  reply : Nat → CheckerReply
  execute : Nat → Operation → Json → Option Json → Option StepResult

/-- How a step ends. -/
inductive Attempt
  | unknown
  | denied
  | crashed
  | executed (result : StepResult)

def Attempt.success : Attempt → Bool
  | .executed result => result.success
  | _ => false

/-- The templating of the params was reached. -/
def Attempt.templated : Attempt → Bool
  | .crashed | .executed _ => true
  | _ => false

def Attempt.isExecuted : Attempt → Bool
  | .executed _ => true
  | _ => false

/-- What a step has to say in the context: its output, artifact and success. -/
def Attempt.entry : Attempt → Json
  | .executed result => .obj [("output", result.output), ("artifact", result.artifact.getD .null),
      ("success", .bool result.success)]
  | _ => .obj [("output", .null), ("artifact", .null), ("success", .bool false)]

/-- What `_run_step` appends to the context. -/
def Attempt.recorded (a : Attempt) : List Json := if a.isExecuted then [a.entry] else []

/-- The artifact for the next step. -/
def Attempt.thread (a : Attempt) (input : Option Json) : Option Json :=
  match a with
  | .executed result => result.artifact <|> input
  | _ => input

def contextOf (trigger : Json) (steps : List Json) : Json :=
  .obj [("trigger", trigger), ("steps", .arr steps)]

/-- `params=resolved if isinstance(resolved, dict) else {}`. -/
def paramsOf : Json → Json
  | .obj members => .obj members
  | _ => .obj []

/-- `_run_step`. -/
def runStep (eng : Engine) (trigger : Json) (k : Nat) (step : ChainStep) (steps : List Json)
    (input : Option Json) : Attempt :=
  match eng.operation step.operationId with
  | none => .unknown
  | some op =>
    if checkPermission op (eng.reply k) then
      match resolveTemplate eng.rendering (contextOf trigger steps) 0 step.params with
      | none => .crashed
      | some resolved =>
        match eng.execute k op (paramsOf resolved) input with
        | none => .crashed
        | some result => .executed result
    else .denied

/-- A step of the chain as it was run: the context in front of it, and how it ended. -/
structure Visit where
  steps : List Json
  attempt : Attempt

/-- The loop of `_run`. -/
def runChain (eng : Engine) (trigger : Json) : Nat → List ChainStep → List Json → Option Json → List Visit
  | _, [], _, _ => []
  | k, step :: rest, steps, input =>
    let attempt := runStep eng trigger k step steps input
    ⟨steps, attempt⟩ ::
      if attempt.success || step.continueOnError then
        runChain eng trigger (k + 1) rest (steps ++ attempt.recorded) (attempt.thread input)
      else []

/-- `_run`: the steps that are reached, in the order of the chain. -/
def run (eng : Engine) (trigger : Json) (chain : List ChainStep) : List Visit :=
  runChain eng trigger 0 chain [] none

/-- Whenever a step is templated, `steps.i` and what is behind it denote the chain's step `i`. -/
def Denotes (trigger : Json) (visits : List Visit) : Prop :=
  ∀ (k : Nat) (v : Visit), visits[k]? = some v → v.attempt.templated = true →
    ∀ (i : Nat) (u : Visit), i < k → visits[i]? = some u →
    ∀ path segments, splitChars '.' path = "steps".toList :: Json.natText i :: segments →
      lookup path (contextOf trigger v.steps) = answer (walk segments u.attempt.entry)

/-- Every step in front of a templated one was executed. -/
def Recorded (visits : List Visit) : Prop :=
  ∀ (k : Nat) (v : Visit), visits[k]? = some v → v.attempt.templated = true →
    ∀ (i : Nat) (u : Visit), i < k → visits[i]? = some u →
    u.attempt.isExecuted = true

variable {eng : Engine} {trigger : Json} {steps : List Json} {visits : List Visit}

/-! ### Paths -/

theorem splitChars_single {c : Char} {cs : List Char} (free : c ∉ cs) : splitChars c cs = [cs] := by
  induction cs with
  | nil => rfl
  | cons d cs ih =>
    simp only [List.mem_cons, not_or] at free
    rw [splitChars, ih free.2]
    simp [Ne.symm free.1]

theorem splitChars_cons {c : Char} {front back : List Char} (free : c ∉ front) :
    splitChars c (front ++ c :: back) = front :: splitChars c back := by
  induction front with
  | nil =>
    rw [List.nil_append, splitChars]
    cases rest : splitChars c back with
    | nil =>
      cases back with
      | nil => simp [splitChars] at rest
      | cons d back =>
        rw [splitChars] at rest
        split at rest
        · cases rest
        · split at rest
          · cases rest
          · cases rest
    | cons field fields => simp
  | cons d front ih =>
    simp only [List.mem_cons, not_or] at free
    rw [List.cons_append, splitChars, ih free.2]
    simp [Ne.symm free.1]

theorem natText_index (n : Nat) : isIndex (Json.natText n) = true := by
  simp only [isIndex, Bool.and_eq_true, List.all_eq_true, Bool.not_eq_true']
  constructor
  · simpa using Json.natText_ne_nil n
  · intro c mem
    have digit := Json.natText_digits n c mem
    simp only [Char.isDigit, Bool.and_eq_true, decide_eq_true_eq] at digit
    simp only [isAsciiDigit, Bool.and_eq_true, decide_eq_true_eq]
    exact digit

/-- A reference to a step looks into the list of the context. -/
theorem lookup_step {path : List Char} {segments : List (List Char)} {i : Nat}
    (split : splitChars '.' path = "steps".toList :: Json.natText i :: segments) :
    lookup path (contextOf trigger steps) =
      answer ((descend (.arr steps) (Json.natText i)).bind (walk segments)) := by
  have list : descend (contextOf trigger steps) "steps".toList = .ok (.arr steps) := by
    simp [descend, contextOf, List.lookup_cons, orRaise]
  rw [lookup, split, walk, list]
  rfl

/-- The index of an item has no more digits than `int` reads. -/
theorem natText_accepted {i : Nat} (inside : i < steps.length) :
    isRefused (Json.natText i) steps = false := by
  rw [isRefused, Bool.and_eq_false_iff, decide_eq_false_iff_not, decide_eq_false_iff_not]
  by_cases few : i < 10 ^ maxStrDigits
  · exact .inl (Nat.not_lt.mpr (Nat.toDigits_length 10 i maxStrDigits (by decide) few))
  · exact .inr fun short => few (inside.trans short)

theorem descend_item {i : Nat} {v : Json} (there : steps[i]? = some v) :
    descend (.arr steps) (Json.natText i) = .ok v := by
  have inside : i < steps.length := (List.getElem?_eq_some_iff.mp there).1
  rw [descend, if_pos (natText_index i), natText_accepted inside, Json.natText_value, there]
  rfl

theorem descend_beyond {i : Nat} (beyond : steps[i]? = none) :
    ∃ stop, descend (.arr steps) (Json.natText i) = .error stop := by
  rw [descend, if_pos (natText_index i), Json.natText_value, beyond]
  split
  · exact ⟨.raised, rfl⟩
  · exact ⟨.missing, rfl⟩

/-! ### The context along a chain -/

/-- The context of a step is what the steps in front of it recorded. -/
theorem runChain_steps {k j : Nat} {chain : List ChainStep} {input : Option Json} {v : Visit}
    (h : (runChain eng trigger k chain steps input)[j]? = some v) :
    v.steps = steps ++ ((runChain eng trigger k chain steps input).take j).flatMap (·.attempt.recorded) := by
  induction chain generalizing k j steps input with
  | nil => simp [runChain] at h
  | cons step chain ih =>
    rw [runChain] at h ⊢
    cases j with
    | zero =>
      obtain rfl := Option.some.inj h
      simp
    | succ j =>
      rw [List.getElem?_cons_succ] at h
      split at h
      · next goes =>
        rw [if_pos goes, List.take_succ_cons, List.flatMap_cons, ← List.append_assoc]
        exact ih h
      · simp at h

theorem run_steps {chain : List ChainStep} {k : Nat} {v : Visit}
    (h : (run eng trigger chain)[k]? = some v) :
    v.steps = ((run eng trigger chain).take k).flatMap (·.attempt.recorded) := by
  simpa [run] using runChain_steps h

theorem flatMap_recorded (all : ∀ u ∈ visits, u.attempt.isExecuted = true) :
    visits.flatMap (·.attempt.recorded) = visits.map (·.attempt.entry) := by
  induction visits with
  | nil => rfl
  | cons u visits ih =>
    rw [List.flatMap_cons, ih fun w mem => all w (List.mem_cons_of_mem u mem)]
    simp [Attempt.recorded, all u List.mem_cons_self]

theorem length_recorded_le : (visits.flatMap (·.attempt.recorded)).length ≤ visits.length := by
  induction visits with
  | nil => exact Nat.le_refl 0
  | cons u visits ih =>
    rw [List.flatMap_cons, List.length_append, List.length_cons]
    have one : u.attempt.recorded.length ≤ 1 := by
      unfold Attempt.recorded
      split <;> simp
    omega

/-- A step that was not executed leaves the context short. -/
theorem length_recorded_lt {u : Visit} (mem : u ∈ visits) (skipped : u.attempt.isExecuted ≠ true) :
    (visits.flatMap (·.attempt.recorded)).length < visits.length := by
  obtain ⟨front, back, rfl⟩ := List.append_of_mem mem
  have before : (front.flatMap (·.attempt.recorded)).length ≤ front.length := length_recorded_le
  have behind : (back.flatMap (·.attempt.recorded)).length ≤ back.length := length_recorded_le
  have none_ : u.attempt.recorded = [] := by simp [Attempt.recorded, skipped]
  rw [List.flatMap_append, List.flatMap_cons, none_, List.nil_append, List.length_append,
    List.length_append, List.length_cons]
  omega

theorem mem_take {k i : Nat} {u : Visit} (less : i < k) (h : visits[i]? = some u) :
    u ∈ visits.take k := by
  apply List.mem_of_getElem? (i := i)
  rw [List.getElem?_take_of_lt less]
  exact h

theorem entry_ne_null (a : Attempt) : a.entry ≠ .null := by
  cases a <;> simp [Attempt.entry]

/-- References denote steps exactly when every step in front of a templated one was executed. -/
theorem step_references_denote (eng : Engine) (trigger : Json) (chain : List ChainStep) :
    Denotes trigger (run eng trigger chain) ↔ Recorded (run eng trigger chain) := by
  constructor
  · intro denotes k v here templated i u less there
    by_contra skipped
    have short := length_recorded_lt (mem_take less there) skipped
    rw [← run_steps here] at short
    have inside : k < (run eng trigger chain).length := (List.getElem?_eq_some_iff.mp here).1
    have size : v.steps.length < k := short.trans_le (List.length_take_le k _)
    -- the step in front of the templated one has no entry
    obtain ⟨w, last⟩ : ∃ w, (run eng trigger chain)[k - 1]? = some w :=
      ⟨_, List.getElem?_eq_getElem (by omega)⟩
    have split : splitChars '.' ("steps".toList ++ '.' :: Json.natText (k - 1)) =
        "steps".toList :: Json.natText (k - 1) :: [] := by
      rw [splitChars_cons (by decide), splitChars_single]
      intro dot
      have digit := Json.natText_digits (k - 1) _ dot
      simp at digit
    have same := denotes k v here templated (k - 1) w (by omega) last _ _ split
    obtain ⟨stop, beyond⟩ := descend_beyond (List.getElem?_eq_none (l := v.steps) (i := k - 1) (by omega))
    rw [lookup_step split, beyond] at same
    cases stop with
    | missing => exact entry_ne_null w.attempt (Option.some.inj same).symm
    | raised => cases same
  · intro recorded k v here templated i u less there path segments split
    have all : ∀ w ∈ (run eng trigger chain).take k, w.attempt.isExecuted = true := by
      intro w mem
      obtain ⟨j, at_⟩ := List.getElem?_of_mem mem
      have bound : j < k := by
        have := (List.getElem?_eq_some_iff.mp at_).1
        rw [List.length_take] at this
        omega
      rw [List.getElem?_take_of_lt bound] at at_
      exact recorded k v here templated j w bound at_
    have item : v.steps[i]? = some u.attempt.entry := by
      rw [run_steps here, flatMap_recorded all, List.getElem?_map, List.getElem?_take_of_lt less, there]
      rfl
    rw [lookup_step split, descend_item item]
    rfl

/-! ### A shifted reference -/

/-- The first operation is unknown, and the other two return their own name. -/
def threeSteps : List ChainStep :=
  [⟨"removed", .obj [], true⟩, ⟨"camera", .obj [], true⟩,
   ⟨"door", .obj [("name", .str "\x7b\x7bsteps.1.output\x7d\x7d")], true⟩]

def twoOperations : Engine where
  rendering := ⟨fun _ => some "", fun _ => some 0⟩
  operation name := if name = "removed" then none else some ⟨name, none, .native, false⟩
  reply _ := .unconfigured
  execute _ op _ _ := some ⟨true, .str op.id, none⟩

/-- In front of the third step the context has one entry, the second step's, at index 0. -/
theorem removed_step_shifts : ¬ Denotes (.obj []) (run twoOperations (.obj []) threeSteps) ∧
    ((run twoOperations (.obj []) threeSteps)[2]?.bind fun v =>
        lookup "steps.0.output".toList (contextOf (.obj []) v.steps)) = some (.str "camera") := by
  constructor
  · intro denotes
    have shifted := denotes 2 ⟨[(Attempt.executed ⟨true, .str "camera", none⟩).entry],
      .executed ⟨true, .str "door", none⟩⟩ rfl rfl 0 ⟨[], .unknown⟩ (by decide) rfl
      "steps.0.output".toList ["output".toList] (by decide)
    exact absurd shifted (by decide)
  · rfl

end FreeSdn.Fabric
