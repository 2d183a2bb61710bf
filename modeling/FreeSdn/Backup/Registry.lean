import FreeSdn.Lib.Except
import FreeSdn.Lib.Topological
import Mathlib.Data.String.Basic

/-! The registry of backup contributors (`services/backup_contributors/registry.py`) and the order in which
their sections are restored: Kahn's algorithm over the declared dependencies. -/

namespace FreeSdn.Backup

open FreeSdn.Lib

/-- `BackupContributor`, as far as the order reads it. -/
class BackupContributor (γ : Type) where
  contributorId : γ → String
  dependsOn : γ → List String

open BackupContributor (contributorId dependsOn)

/-- `_contributors`, in the order of registration. -/
structure Registry (γ : Type) [BackupContributor γ] where
  contributors : List γ
  distinct : (contributors.map contributorId).Nodup

inductive OrderError
  | unknownDependency (cid dep : String) (registered : List String)
  | cyclicDependency (remaining : List String)
  deriving DecidableEq

/-- `repr` of a list of strings. -/
def reprList (repr : String → String) (texts : List String) : String :=
  "[" ++ String.intercalate ", " (texts.map repr) ++ "]"

/-- The text of the exception. -/
def OrderError.message (repr : String → String) : OrderError → String
  | .unknownDependency cid dep registered => "contributor " ++ repr cid ++ " depends on " ++ repr dep ++
      ", but no such contributor is registered. Registered: " ++ reprList repr registered ++
      ". Either load the module providing it, or drop the dependency."
  | .cyclicDependency remaining => "cycle in contributor dependency graph; cannot topologically " ++
      "order. Remaining contributors involved in the cycle: " ++ reprList repr remaining ++
      ". Inspect their ``depends_on`` declarations."

/-- `sorted`. -/
def sorted (texts : List String) : List String := texts.insertionSort (· ≤ ·)

theorem sorted_perm (texts : List String) : (sorted texts).Perm texts :=
  List.perm_insertionSort (· ≤ ·) texts

/-- The order depends on the texts alone, not on how they are listed. -/
theorem sorted_congr {texts others : List String} (same : texts.Perm others) :
    sorted texts = sorted others := by
  have ordered (ts : List String) : (sorted ts).Pairwise (· ≤ ·) := List.pairwise_insertionSort (· ≤ ·) ts
  refine List.Perm.eq_of_pairwise ?_ (ordered texts) (ordered others)
    ((sorted_perm texts).trans (same.trans (sorted_perm others).symm))
  exact fun _ _ _ _ => le_antisymm

/-- The counts of dependencies that are not yet ordered, and who depends on whom. -/
structure Degrees where
  inDegree : String → Int
  revEdges : String → List String

def Degrees.add (g : Degrees) (cid dep : String) : Degrees where
  inDegree x := if x = cid then g.inDegree x + 1 else g.inDegree x
  revEdges x := if x = dep then g.revEdges x ++ [cid] else g.revEdges x

/-- `in_degree[dependent] -= 1`, and whether it becomes ready. -/
def relax (s : (String → Int) × List String) (dependent : String) : (String → Int) × List String :=
  let inDegree := fun x => if x = dependent then s.1 x - 1 else s.1 x
  (inDegree, if inDegree dependent = 0 then s.2 ++ [dependent] else s.2)

/-- The loop `while ready`. -/
def drain (revEdges : String → List String) :
    Nat → (String → Int) → List String → List String → List String
  | 0, _, _, ordered => ordered
  | _ + 1, _, [], ordered => ordered
  | fuel + 1, inDegree, cid :: ready, ordered =>
    let s := (sorted (revEdges cid)).foldl relax (inDegree, ready)
    drain revEdges fuel s.1 s.2 (ordered ++ [cid])

namespace Registry

variable {γ : Type} [BackupContributor γ] (r : Registry γ)

def ids : List String := r.contributors.map contributorId

def get (cid : String) : Option γ := r.contributors.find? fun c => contributorId c = cid

def scanDependency (cid : String) (g : Degrees) (dep : String) : Except OrderError Degrees :=
  if dep ∉ r.ids then .error (.unknownDependency cid dep (sorted r.ids)) else .ok (g.add cid dep)

def scanContributor (g : Degrees) (c : γ) : Except OrderError Degrees :=
  (dependsOn c).foldlM (r.scanDependency (contributorId c)) g

/-- The first loop. -/
def scan : Except OrderError Degrees :=
  r.contributors.foldlM r.scanContributor ⟨fun _ => 0, fun _ => []⟩

/-- The identifiers in the order in which they become ready.  Every one does so at most once, so the loop
turns at most as often as there are contributors. -/
def orderedIds (g : Degrees) : List String :=
  drain g.revEdges r.ids.length g.inDegree (sorted (r.ids.filter fun cid => g.inDegree cid = 0)) []

/-- `topological_order`. -/
def topologicalOrder : Except OrderError (List γ) := do
  let g ← r.scan
  let ordered := (r.orderedIds g).filterMap r.get
  if ordered.length < r.contributors.length then
    .error (.cyclicDependency (sorted (r.ids.filter fun cid => cid ∉ ordered.map contributorId)))
  else .ok ordered

end Registry

/-! ### The loop -/

/-- Waiting nodes are freed as often as they are listed, and become ready when nothing is left. -/
theorem relax_spec (dependents : List String) (inDegree : String → Int) (ready : List String)
    (enough : ∀ x, (dependents.count x : Int) ≤ inDegree x) :
    (∀ x, (dependents.foldl relax (inDegree, ready)).1 x = inDegree x - dependents.count x) ∧
      ∃ freed, (dependents.foldl relax (inDegree, ready)).2 = ready ++ freed ∧ freed.Nodup ∧
        ∀ x, x ∈ freed ↔ x ∈ dependents ∧ inDegree x = dependents.count x := by
  induction dependents generalizing inDegree ready with
  | nil => exact ⟨by simp, [], by simp⟩
  | cons y rest ih =>
    have counted (x : String) : ((y :: rest).count x : Int) =
        rest.count x + if x = y then 1 else 0 := by
      rw [List.count_cons]
      by_cases same : x = y
      · simp [same]
      · simp [same, Ne.symm same]
    obtain ⟨degrees, freed, readied, distinct, who⟩ :=
      ih (fun x => if x = y then inDegree x - 1 else inDegree x)
        (if inDegree y - 1 = 0 then ready ++ [y] else ready) (by
          intro x
          have bound := enough x
          rw [counted] at bound
          by_cases same : x = y
          · rw [if_pos same] at bound ⊢
            omega
          · rw [if_neg same] at bound ⊢
            omega)
    have step : relax (inDegree, ready) y = (fun x => if x = y then inDegree x - 1 else inDegree x,
        if inDegree y - 1 = 0 then ready ++ [y] else ready) := by
      simp [relax]
    have own := enough y
    rw [counted, if_pos rfl] at own
    rw [List.foldl_cons, step]
    refine ⟨?_, (if inDegree y - 1 = 0 then [y] else []) ++ freed, ?_, ?_, ?_⟩
    · intro x
      rw [degrees, counted]
      split <;> omega
    · rw [readied]
      split <;> simp
    · rw [List.nodup_append]
      refine ⟨by split <;> simp, distinct, ?_⟩
      rintro a first b second rfl
      split at first
      · rename_i last
        obtain rfl := List.mem_singleton.mp first
        have listed := List.count_pos_iff.mpr ((who a).mp second).1
        omega
      · simp at first
    · intro x
      rw [List.mem_append, who, counted, List.mem_cons]
      by_cases same : x = y
      · subst same
        simp only [if_true, true_or, true_and]
        constructor
        · rintro (first | ⟨-, rest_⟩)
          · split at first
            · omega
            · simp at first
          · omega
        · intro last
          by_cases zero : inDegree x - 1 = 0
          · simp [zero]
          · have listed : x ∈ rest := List.count_pos_iff.mp (by omega)
            exact Or.inr ⟨listed, by omega⟩
      · have absent : x ∉ (if inDegree y - 1 = 0 then [y] else []) := by split <;> simp [same]
        simp [same, absent]

/-- Where the loop stands: what is ordered, what is ready, and how many dependencies of each node are not
ordered yet. -/
structure Draining (deps : String → List String) (nodes ordered ready : List String)
    (inDegree : String → Int) : Prop where
  distinct : (ordered ++ ready).Nodup
  inside : ∀ x ∈ ordered ++ ready, x ∈ nodes
  degree : ∀ x, inDegree x = ((deps x).countP fun d => d ∉ ordered : Nat)
  ready_iff : ∀ x ∈ nodes, x ∈ ordered ++ ready ↔ ∀ d ∈ deps x, d ∈ ordered
  behind : Ordered deps ordered

theorem countP_concat {ordered : List String} {cid : String} (new : cid ∉ ordered)
    (ds : List String) : (ds.countP fun d => d ∉ ordered) =
      (ds.countP fun d => d ∉ ordered ++ [cid]) + ds.count cid := by
  induction ds with
  | nil => rfl
  | cons d ds ih =>
    rw [List.countP_cons, List.countP_cons, List.count_cons, ih]
    by_cases same : d = cid
    · subst same
      simp [new]
      omega
    · simp [same]
      omega

theorem Draining.length_le {deps : String → List String} {nodes ordered ready : List String}
    {inDegree : String → Int} (d : Draining deps nodes ordered ready inDegree) :
    ordered.length + ready.length ≤ nodes.length := by
  rw [← List.length_append]
  exact (List.subperm_of_subset d.distinct d.inside).length_le

/-- One turn of the loop. -/
theorem Draining.next {deps revEdges : String → List String} {nodes ordered ready : List String}
    {inDegree : String → Int} {cid : String}
    (d : Draining deps nodes ordered (cid :: ready) inDegree)
    (owners : ∀ x, deps x ≠ [] → x ∈ nodes)
    (edges : ∀ c x, (revEdges c).count x = (deps x).count c) :
    Draining deps nodes (ordered ++ [cid]) ((sorted (revEdges cid)).foldl relax (inDegree, ready)).2
      ((sorted (revEdges cid)).foldl relax (inDegree, ready)).1 := by
  have distinct := d.distinct
  rw [List.nodup_append] at distinct
  have new : cid ∉ ordered := fun mem => distinct.2.2 cid mem cid List.mem_cons_self rfl
  have count (x : String) : (sorted (revEdges cid)).count x = (deps x).count cid := by
    rw [(sorted_perm _).count_eq, edges]
  have split (x : String) := countP_concat new (deps x)
  obtain ⟨degrees, freed, readied, freedDistinct, who⟩ :=
    relax_spec (sorted (revEdges cid)) inDegree ready (by
      intro x
      have less := split x
      rw [count, d.degree]
      omega)
  have freed_iff (x : String) : x ∈ freed ↔ cid ∈ deps x ∧ ∀ e ∈ deps x, e ∈ ordered ++ [cid] := by
    have less := split x
    have none_left : ((deps x).countP fun e => e ∉ ordered ++ [cid]) = 0 ↔
        ∀ e ∈ deps x, e ∈ ordered ++ [cid] := by
      rw [List.countP_eq_zero]
      simp only [decide_not, Bool.not_eq_true', decide_eq_false_iff_not, not_not]
    rw [who, count, d.degree, ← List.count_pos_iff, count, List.count_pos_iff, ← none_left]
    refine and_congr_right fun _ => ?_
    omega
  have early : ∀ x ∈ freed, x ∉ ordered ++ cid :: ready := by
    intro x mem waiting
    obtain ⟨direct, -⟩ := (freed_iff x).mp mem
    have owner := owners x (List.ne_nil_of_mem direct)
    exact new ((d.ready_iff x owner).mp waiting cid direct)
  rw [readied]
  have arranged : (ordered ++ [cid]) ++ (ready ++ freed) = (ordered ++ cid :: ready) ++ freed := by simp
  refine ⟨?_, ?_, ?_, ?_, ?_⟩
  · rw [arranged, List.nodup_append]
    exact ⟨d.distinct, freedDistinct, fun a first b second same => early b second (same ▸ first)⟩
  · intro x mem
    rw [arranged] at mem
    rcases List.mem_append.mp mem with old | added
    · exact d.inside x old
    · exact owners x (List.ne_nil_of_mem ((freed_iff x).mp added).1)
  · intro x
    have less := split x
    rw [degrees, count, d.degree]
    omega
  · intro x node
    rw [arranged, List.mem_append, d.ready_iff x node, freed_iff]
    constructor
    · rintro (all | ⟨-, all⟩) e direct
      · exact List.mem_append_left _ (all e direct)
      · exact all e direct
    · intro all
      by_cases here : cid ∈ deps x
      · exact Or.inr ⟨here, all⟩
      · refine Or.inl fun e direct => ?_
        rcases List.mem_append.mp (all e direct) with old | last
        · exact old
        · exact absurd (List.mem_singleton.mp last ▸ direct) here
  · refine d.behind.concat ?_
    have node := d.inside cid (by simp)
    exact (d.ready_iff cid node).mp (by simp)

/-- The loop ends with nothing ready. -/
theorem drain_spec {deps revEdges : String → List String} {nodes : List String}
    (owners : ∀ x, deps x ≠ [] → x ∈ nodes)
    (edges : ∀ c x, (revEdges c).count x = (deps x).count c) (fuel : Nat)
    {ordered ready : List String} {inDegree : String → Int}
    (d : Draining deps nodes ordered ready inDegree) (enough : nodes.length ≤ ordered.length + fuel) :
    ∃ inDegree', Draining deps nodes (drain revEdges fuel inDegree ready ordered) [] inDegree' := by
  induction fuel generalizing ordered ready inDegree with
  | zero =>
    have full := d.length_le
    obtain rfl : ready = [] := List.length_eq_zero_iff.mp (by omega)
    exact ⟨inDegree, d⟩
  | succ fuel ih =>
    cases ready with
    | nil => exact ⟨inDegree, d⟩
    | cons cid ready =>
      refine ih (d.next owners edges) ?_
      rw [List.length_append, List.length_singleton]
      omega

end FreeSdn.Backup
