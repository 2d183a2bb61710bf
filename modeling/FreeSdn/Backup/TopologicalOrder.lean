import FreeSdn.Backup.Registry
import FreeSdn.Lib.Table

/-! The restore order of the registered contributors is a topological order, or says why there is none. -/

namespace FreeSdn.Backup

open FreeSdn.Lib
open BackupContributor (contributorId dependsOn)

variable {γ : Type} [BackupContributor γ]

instance contributorKeyed : Keyed γ String := ⟨contributorId⟩

/-- What the contributor with this identifier depends on, in a list of contributors. -/
def depsIn (contributors : List γ) (cid : String) : List String :=
  ((Table.lookup contributors cid).map dependsOn).getD []

theorem depsIn_cons (c : γ) (contributors : List γ) (cid : String) : depsIn (c :: contributors) cid =
    if cid = contributorId c then dependsOn c else depsIn contributors cid := by
  by_cases same : cid = contributorId c
  · simp [depsIn, Table.lookup, Keyed.key, same]
  · simp [depsIn, Table.lookup, Keyed.key, same, Ne.symm same]

theorem depsIn_new {contributors : List γ} {cid : String}
    (new : cid ∉ contributors.map contributorId) : depsIn contributors cid = [] := by
  have absent : Table.lookup contributors cid = none :=
    Table.lookup_none.mpr fun c mem same => new (List.mem_map.mpr ⟨c, mem, same⟩)
  rw [depsIn, absent]
  rfl

/-! ### The first loop -/

/-- The counts with one more contributor. -/
def Degrees.count (g : Degrees) (c : γ) : Degrees :=
  (dependsOn c).foldl (fun g dep => g.add (contributorId c) dep) g

theorem add_fold (cid : String) (deps : List String) (g : Degrees) :
    (∀ x, (deps.foldl (fun g dep => g.add cid dep) g).inDegree x =
      g.inDegree x + if x = cid then (deps.length : Int) else 0) ∧
    ∀ d x, ((deps.foldl (fun g dep => g.add cid dep) g).revEdges d).count x =
      (g.revEdges d).count x + if x = cid then deps.count d else 0 := by
  induction deps generalizing g with
  | nil => simp
  | cons dep deps ih =>
    obtain ⟨degrees, edges⟩ := ih (g.add cid dep)
    constructor
    · intro x
      rw [List.foldl_cons, degrees, List.length_cons]
      by_cases own : x = cid
      · simp only [Degrees.add, own, if_true]
        omega
      · simp [Degrees.add, own]
    · intro d x
      rw [List.foldl_cons, edges]
      by_cases here : d = dep <;> by_cases own : x = cid
      · subst here own
        simp [Degrees.add]
        omega
      · simp [Degrees.add, here, own, Ne.symm own]
      · simp [Degrees.add, here, own, Ne.symm here]
      · simp [Degrees.add, here, own]

/-- What the loop counts: the dependencies of each contributor, with repetitions, and who lists whom. -/
theorem count_fold {contributors : List γ} (distinct : (contributors.map contributorId).Nodup)
    (g : Degrees) :
    (∀ x, (contributors.foldl Degrees.count g).inDegree x =
      g.inDegree x + (depsIn contributors x).length) ∧
    ∀ d x, ((contributors.foldl Degrees.count g).revEdges d).count x =
      (g.revEdges d).count x + (depsIn contributors x).count d := by
  induction contributors generalizing g with
  | nil => simp [depsIn, Table.lookup]
  | cons c contributors ih =>
    rw [List.map_cons, List.nodup_cons] at distinct
    obtain ⟨degrees, edges⟩ := ih distinct.2 (g.count c)
    obtain ⟨ownDegrees, ownEdges⟩ := add_fold (contributorId c) (dependsOn c) g
    have none_later : depsIn contributors (contributorId c) = [] := depsIn_new distinct.1
    constructor
    · intro x
      rw [List.foldl_cons, degrees, Degrees.count, ownDegrees, depsIn_cons]
      split
      · rename_i same
        subst same
        simp [none_later]
      · simp
    · intro d x
      rw [List.foldl_cons, edges, Degrees.count, ownEdges, depsIn_cons]
      split
      · rename_i same
        subst same
        simp [none_later]
      · simp

namespace Registry

variable (r : Registry γ)

/-- What the contributor with this identifier depends on. -/
def depsOf (cid : String) : List String := depsIn r.contributors cid

/-- Every dependency is registered. -/
def Closed : Prop := ∀ c ∈ r.contributors, ∀ dep ∈ dependsOn c, dep ∈ r.ids

theorem get_of_mem {c : γ} (mem : c ∈ r.contributors) : r.get (contributorId c) = some c :=
  Table.Unique.lookup r.distinct mem

theorem depsOf_of_mem {c : γ} (mem : c ∈ r.contributors) : r.depsOf (contributorId c) = dependsOn c := by
  have found : Table.lookup r.contributors (contributorId c) = some c := r.get_of_mem mem
  rw [depsOf, depsIn, found]
  rfl

theorem mem_ids_of_deps (cid : String) (some_ : r.depsOf cid ≠ []) : cid ∈ r.ids := by
  by_contra new
  exact some_ (depsIn_new new)

theorem filterMap_get : r.ids.filterMap r.get = r.contributors := by
  rw [ids, List.filterMap_map]
  have each : ∀ c ∈ r.contributors, (r.get ∘ contributorId) c = some c := fun c mem => r.get_of_mem mem
  rw [List.filterMap_congr each, List.filterMap_some]

/-- The identifiers of what is found under registered identifiers. -/
theorem map_filterMap_get {cids : List String} (inside : ∀ cid ∈ cids, cid ∈ r.ids) :
    (cids.filterMap r.get).map contributorId = cids := by
  induction cids with
  | nil => rfl
  | cons cid cids ih =>
    obtain ⟨c, mem, rfl⟩ := List.mem_map.mp (inside cid List.mem_cons_self)
    rw [List.filterMap_cons_some (r.get_of_mem mem), List.map_cons,
      ih fun other later => inside other (List.mem_cons_of_mem _ later)]

/-- What the first loop counts when it returns. -/
def counted : Degrees := r.contributors.foldl Degrees.count ⟨fun _ => 0, fun _ => []⟩

theorem counted_inDegree (x : String) : r.counted.inDegree x = (r.depsOf x).length := by
  rw [counted, (count_fold r.distinct _).1]
  exact Int.zero_add _

theorem counted_revEdges (d x : String) : (r.counted.revEdges d).count x = (r.depsOf x).count d := by
  rw [counted, (count_fold r.distinct _).2]
  exact Nat.zero_add _

theorem scanContributor_ok {c : γ} (known : ∀ dep ∈ dependsOn c, dep ∈ r.ids) (g : Degrees) :
    r.scanContributor g c = .ok (g.count c) :=
  foldlM_passes (fun dep mem _ => if_neg (not_not.mpr (known dep mem))) g

/-- The first loop returns its counts when every dependency is registered. -/
theorem scan_ok (closed : r.Closed) : r.scan = .ok r.counted :=
  foldlM_passes (fun c mem g => r.scanContributor_ok (closed c mem) g) _

/-- Else it names one that is not. -/
theorem scan_error (missing : ¬ r.Closed) :
    ∃ cid dep, dep ∉ r.ids ∧ r.scan = .error (.unknownDependency cid dep (sorted r.ids)) := by
  let unknown (e : OrderError) : Prop :=
    ∃ cid dep, dep ∉ r.ids ∧ e = .unknownDependency cid dep (sorted r.ids)
  have dependency (cid dep : String) (g : Degrees) (new : dep ∉ r.ids) :
      ∃ e, unknown e ∧ r.scanDependency cid g dep = .error e :=
    ⟨_, ⟨cid, dep, new, rfl⟩, if_pos new⟩
  have contributor (c : γ) (bad : ∃ dep ∈ dependsOn c, dep ∉ r.ids) (g : Degrees) :
      ∃ e, unknown e ∧ r.scanContributor g c = .error e := by
    refine foldlM_fails ?_ ?_ g
    · intro dep _
      by_cases known : dep ∈ r.ids
      · exact Or.inl fun g => ⟨_, if_neg (not_not.mpr known)⟩
      · exact Or.inr fun g => dependency _ dep g known
    · obtain ⟨dep, mem, new⟩ := bad
      exact ⟨dep, mem, fun g => dependency _ dep g new⟩
  have some_bad : ∃ c ∈ r.contributors, ∃ dep ∈ dependsOn c, dep ∉ r.ids := by
    unfold Closed at missing
    push Not at missing
    exact missing
  obtain ⟨e, ⟨cid, dep, new, rfl⟩, raised⟩ : ∃ e, unknown e ∧ r.scan = .error e := by
    refine foldlM_fails ?_ ?_ _
    · intro c _
      by_cases known : ∀ dep ∈ dependsOn c, dep ∈ r.ids
      · exact Or.inl fun g => ⟨_, r.scanContributor_ok known g⟩
      · push Not at known
        exact Or.inr (contributor c known)
    · obtain ⟨c, mem, bad⟩ := some_bad
      exact ⟨c, mem, contributor c bad⟩
  exact ⟨cid, dep, new, raised⟩

/-! ### The second loop -/

theorem draining_start : Draining r.depsOf r.ids []
    (sorted (r.ids.filter fun cid => r.counted.inDegree cid = 0)) r.counted.inDegree := by
  have members (x : String) : x ∈ sorted (r.ids.filter fun cid => r.counted.inDegree cid = 0) ↔
      x ∈ r.ids ∧ r.depsOf x = [] := by
    rw [(sorted_perm _).mem_iff, List.mem_filter, decide_eq_true_iff, r.counted_inDegree,
      Int.natCast_eq_zero, List.length_eq_zero_iff]
  refine ⟨?_, ?_, ?_, ?_, Ordered.nil⟩
  · exact ((sorted_perm _).nodup_iff).mpr (r.distinct.filter _)
  · exact fun x mem => ((members x).mp mem).1
  · intro x
    simp [r.counted_inDegree]
  · intro x node
    rw [List.nil_append, members, List.eq_nil_iff_forall_not_mem]
    simp [node]

/-- Where the second loop ends. -/
theorem orderedIds_spec :
    ∃ inDegree, Draining r.depsOf r.ids (r.orderedIds r.counted) [] inDegree :=
  drain_spec r.mem_ids_of_deps r.counted_revEdges r.ids.length r.draining_start (by simp)

/-- What the second loop leaves out waits in a cycle. -/
theorem cyclic_of_short (closed : r.Closed) (short : (r.orderedIds r.counted).length < r.ids.length) :
    Cyclic r.depsOf := by
  obtain ⟨_, done⟩ := r.orderedIds_spec
  have of_waiting := @cyclic_of_waiting _ r.depsOf (r.ids.filter fun cid => cid ∉ r.orderedIds r.counted)
  refine of_waiting ?_ ?_
  · intro none_left
    have all : ∀ cid ∈ r.ids, cid ∈ r.orderedIds r.counted := by
      simpa [List.filter_eq_nil_iff] using none_left
    exact absurd (List.subperm_of_subset r.distinct all).length_le (Nat.not_le.mpr short)
  · intro x mem
    simp only [List.mem_filter, decide_eq_true_iff] at mem ⊢
    obtain ⟨node, waits⟩ := mem
    have some_waits : ¬ ∀ d ∈ r.depsOf x, d ∈ r.orderedIds r.counted := fun all => by
      have ready := (done.ready_iff x node).mpr all
      rw [List.append_nil] at ready
      exact waits ready
    push Not at some_waits
    obtain ⟨d, direct, late⟩ := some_waits
    obtain ⟨c, mem, rfl⟩ := List.mem_map.mp node
    rw [r.depsOf_of_mem mem] at direct ⊢
    exact ⟨d, direct, closed c mem d direct, late⟩

/-- The contributors in the order in which they become ready. -/
def ordered : List γ := (r.orderedIds r.counted).filterMap r.get

theorem map_ordered : r.ordered.map contributorId = r.orderedIds r.counted := by
  obtain ⟨_, done⟩ := r.orderedIds_spec
  refine r.map_filterMap_get fun cid mem => done.inside cid ?_
  rwa [List.append_nil]

theorem ordered_length : r.ordered.length = (r.orderedIds r.counted).length := by
  rw [← r.map_ordered, List.length_map]

theorem ordered_perm (long : r.contributors.length ≤ r.ordered.length) :
    r.ordered.Perm r.contributors := by
  obtain ⟨_, done⟩ := r.orderedIds_spec
  have distinct := done.distinct
  have inside := done.inside
  rw [List.append_nil] at distinct inside
  have same : (r.orderedIds r.counted).Perm r.ids := by
    refine (List.subperm_of_subset distinct inside).perm_of_length_le ?_
    rw [ids, List.length_map, ← r.ordered_length]
    exact long
  have found := same.filterMap r.get
  rwa [r.filterMap_get] at found

theorem ordered_behind {before after : List γ} {c : γ} (split : r.ordered = before ++ c :: after) :
    ∀ dep ∈ dependsOn c, ∃ b ∈ before, contributorId b = dep := by
  obtain ⟨_, done⟩ := r.orderedIds_spec
  have mem : c ∈ r.contributors := by
    have inside : c ∈ r.ordered := split ▸ List.mem_append_right _ List.mem_cons_self
    obtain ⟨cid, -, found⟩ := List.mem_filterMap.mp inside
    exact Table.lookup_mem found
  intro dep direct
  rw [← r.depsOf_of_mem mem] at direct
  have names := r.map_ordered
  rw [split, List.map_append, List.map_cons] at names
  have early := done.behind _ _ _ names.symm dep direct
  simpa using early

theorem not_cyclic_of_long (long : r.contributors.length ≤ r.ordered.length) : ¬ Cyclic r.depsOf := by
  obtain ⟨_, done⟩ := r.orderedIds_spec
  have distinct := done.distinct
  rw [List.append_nil] at distinct
  refine done.behind.acyclic distinct fun x some_ => ?_
  have names := (r.ordered_perm long).map contributorId
  rw [r.map_ordered] at names
  exact names.mem_iff.mpr (r.mem_ids_of_deps x some_)

/-! ### The three outcomes -/

theorem order_unknown (missing : ¬ r.Closed) :
    ∃ cid dep, dep ∉ r.ids ∧ r.topologicalOrder = .error (.unknownDependency cid dep (sorted r.ids)) := by
  obtain ⟨cid, dep, new, raised⟩ := r.scan_error missing
  refine ⟨cid, dep, new, ?_⟩
  rw [topologicalOrder, raised]
  rfl

theorem order_closed (closed : r.Closed) : r.topologicalOrder =
    if r.ordered.length < r.contributors.length then
      .error (.cyclicDependency (sorted (r.ids.filter fun cid => cid ∉ r.ordered.map contributorId)))
    else .ok r.ordered :=
  ok_bind (r.scan_ok closed)

theorem order_cyclic (closed : r.Closed) (cyclic : Cyclic r.depsOf) : r.topologicalOrder =
    .error (.cyclicDependency (sorted (r.ids.filter fun cid => cid ∉ r.ordered.map contributorId))) := by
  rw [r.order_closed closed, if_pos]
  exact Nat.lt_of_not_le fun long => r.not_cyclic_of_long long cyclic

theorem long_of_acyclic (closed : r.Closed) (acyclic : ¬ Cyclic r.depsOf) :
    r.contributors.length ≤ r.ordered.length := by
  refine Nat.le_of_not_lt fun short => acyclic (r.cyclic_of_short closed ?_)
  rwa [ids, List.length_map, ← r.ordered_length]

theorem order_acyclic (closed : r.Closed) (acyclic : ¬ Cyclic r.depsOf) :
    r.topologicalOrder = .ok r.ordered := by
  rw [r.order_closed closed, if_neg (Nat.not_lt.mpr (r.long_of_acyclic closed acyclic))]

/-! ### The order of registration -/

variable {r} {other : Registry γ}

theorem get_congr (same : other.contributors.Perm r.contributors) (cid : String) :
    other.get cid = r.get cid := by
  cases found : r.get cid with
  | some c =>
    have mem := Table.lookup_mem (k := cid) found
    obtain rfl : contributorId c = cid := Table.lookup_key found
    exact other.get_of_mem (same.mem_iff.mpr mem)
  | none => exact Table.lookup_none.mpr fun c mem => Table.lookup_none.mp found c (same.mem_iff.mp mem)

theorem ids_congr (same : other.contributors.Perm r.contributors) : other.ids.Perm r.ids :=
  same.map contributorId

theorem depsOf_congr (same : other.contributors.Perm r.contributors) : other.depsOf = r.depsOf :=
  funext fun cid => congrArg (fun c => (Option.map dependsOn c).getD []) (get_congr same cid)

theorem closed_congr (same : other.contributors.Perm r.contributors) : other.Closed ↔ r.Closed := by
  unfold Closed
  simp only [same.mem_iff, (ids_congr same).mem_iff]

theorem counted_congr (same : other.contributors.Perm r.contributors) :
    other.counted.inDegree = r.counted.inDegree ∧
      ∀ d, (other.counted.revEdges d).Perm (r.counted.revEdges d) := by
  constructor
  · funext x
    rw [counted_inDegree, counted_inDegree, depsOf_congr same]
  · intro d
    refine List.perm_iff_count.mpr fun x => ?_
    rw [counted_revEdges, counted_revEdges, depsOf_congr same]

theorem drain_congr {revEdges revEdges' : String → List String}
    (same : ∀ d, (revEdges' d).Perm (revEdges d)) (fuel : Nat) (inDegree : String → Int)
    (ready ordered : List String) :
    drain revEdges' fuel inDegree ready ordered = drain revEdges fuel inDegree ready ordered := by
  induction fuel generalizing inDegree ready ordered with
  | zero => rfl
  | succ fuel ih =>
    cases ready with
    | nil => rfl
    | cons cid ready =>
      rw [drain, drain, sorted_congr (same cid)]
      exact ih _ _ _

theorem orderedIds_congr (same : other.contributors.Perm r.contributors) :
    other.orderedIds other.counted = r.orderedIds r.counted := by
  obtain ⟨degrees, edges⟩ := counted_congr same
  rw [orderedIds, orderedIds, drain_congr edges, degrees, (ids_congr same).length_eq,
    sorted_congr ((ids_congr same).filter _)]

theorem ordered_congr (same : other.contributors.Perm r.contributors) : other.ordered = r.ordered := by
  rw [ordered, ordered, orderedIds_congr same, funext (get_congr same)]

end Registry

/-- The same list, or the same error; which of several unregistered dependencies it names is left open. -/
def SameResult : Except OrderError (List γ) → Except OrderError (List γ) → Prop
  | .ok order, .ok order' => order = order'
  | .error (.cyclicDependency remaining), .error (.cyclicDependency remaining') => remaining = remaining'
  | .error (.unknownDependency _ _ registered), .error (.unknownDependency _ _ registered') =>
    registered = registered'
  | _, _ => False

theorem Registry.sameResult {r other : Registry γ} (same : other.contributors.Perm r.contributors) :
    SameResult r.topologicalOrder other.topologicalOrder := by
  by_cases closed : r.Closed
  · have closed' := (closed_congr same).mpr closed
    rw [r.order_closed closed, other.order_closed closed', ordered_congr same, same.length_eq,
      sorted_congr ((ids_congr same).filter _)]
    split
    · exact rfl
    · exact rfl
  · obtain ⟨cid, dep, -, raised⟩ := r.order_unknown closed
    obtain ⟨cid', dep', -, raised'⟩ := other.order_unknown fun h => closed ((closed_congr same).mp h)
    rw [raised, raised']
    exact (sorted_congr (ids_congr same)).symm

/-- The contributors in an order of which each comes after everything that it depends on, when there is
one and everything is registered; else the error that says which of the two fails.  The order of
registration plays no role. -/
theorem Registry.topologicalOrder_spec (r : Registry γ) :
    (∀ order, r.topologicalOrder = .ok order → order.Perm r.contributors ∧
      ∀ before c after, order = before ++ c :: after →
        ∀ dep ∈ dependsOn c, ∃ b ∈ before, contributorId b = dep) ∧
    ((∃ order, r.topologicalOrder = .ok order) ↔ r.Closed ∧ ¬ Cyclic r.depsOf) ∧
    ((∃ cid dep registered, r.topologicalOrder = .error (.unknownDependency cid dep registered)) ↔
      ∃ c ∈ r.contributors, ∃ dep ∈ dependsOn c, dep ∉ r.ids) ∧
    ((∃ remaining, r.topologicalOrder = .error (.cyclicDependency remaining)) ↔
      r.Closed ∧ Cyclic r.depsOf) ∧
    ∀ other : Registry γ, other.contributors.Perm r.contributors →
      SameResult r.topologicalOrder other.topologicalOrder := by
  have missing_iff : (∃ c ∈ r.contributors, ∃ dep ∈ dependsOn c, dep ∉ r.ids) ↔ ¬ r.Closed := by
    unfold Closed
    push Not
    rfl
  rw [missing_iff]
  by_cases closed : r.Closed
  · by_cases cyclic : Cyclic r.depsOf
    · have raised := r.order_cyclic closed cyclic
      refine ⟨?_, ?_, ?_, ?_, fun other => sameResult⟩ <;> simp [raised, closed, cyclic]
    · have returned := r.order_acyclic closed cyclic
      refine ⟨?_, ?_, ?_, ?_, fun other => sameResult⟩
      · intro order same
        rw [returned] at same
        obtain rfl := Except.ok.inj same
        exact ⟨r.ordered_perm (r.long_of_acyclic closed cyclic), fun before c after => r.ordered_behind⟩
      all_goals simp [returned, closed, cyclic]
  · obtain ⟨cid, dep, -, raised⟩ := r.order_unknown closed
    refine ⟨?_, ?_, ?_, ?_, fun other => sameResult⟩ <;> simp [raised, closed]

end FreeSdn.Backup
