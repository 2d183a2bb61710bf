import FreeSdn.Backup.Restore

/-! A restore stays inside its tenant.  A record that passes the checks on its archived values yields
columns that put any row into scope, and the loop writes no row that was outside it: so the rows
differ from those before only where they are, and were, in scope. -/

namespace FreeSdn.Backup

open FreeSdn.Lib

variable {py : Python} {m : Model} {o : Options} {rec clean : Record} {field : String} {v : Value}

/-! ### Dictionaries -/

theorem find_replace (fs : List (String × Value)) (g : String) :
    ((fs.map fun f => if f.1 = field then (field, v) else f).find? fun f => f.1 = g).map (·.2) =
      if g = field then (fs.find? fun f => f.1 = field).map fun _ => v
      else (fs.find? fun f => f.1 = g).map (·.2) := by
  induction fs with
  | nil => simp
  | cons f fs ih =>
    by_cases here : f.1 = field
    · by_cases same : g = field
      · simp [here, same]
      · have other : ¬ field = g := fun h => same h.symm
        simpa [here, same, other] using ih
    · by_cases same : f.1 = g
      · have other : ¬ g = field := fun h => here (same.trans h)
        simp [same, other]
      · simpa [here, same] using ih

theorem Record.find_set (g : String) :
    (rec.set field v).find g = if g = field then some v else rec.find g := by
  unfold Record.set
  by_cases known : (rec.find field).isSome = true
  · rw [if_pos known]
    obtain ⟨w, here⟩ := Option.isSome_iff_exists.mp known
    unfold Record.find at here ⊢
    obtain ⟨f, found, -⟩ := Option.map_eq_some_iff.mp here
    rw [find_replace, found]
    rfl
  · rw [if_neg known]
    have absent : rec.find field = none := by simpa using known
    unfold Record.find at absent ⊢
    rw [Option.map_eq_none_iff] at absent
    by_cases same : g = field
    · subst same
      simp [List.find?_append, absent]
    · have other : ¬ field = g := fun h => same h.symm
      simp [List.find?_append, same, other]

/-- A filter on the names of the fields keeps or drops a field as a whole. -/
theorem Record.find_filter (rec : Record) (keep : String → Bool) (g : String) :
    (Record.mk (rec.fields.filter fun f => keep f.1)).find g = if keep g then rec.find g else none := by
  unfold Record.find
  dsimp only
  rw [List.find?_filter]
  by_cases kept : keep g = true
  · rw [if_pos kept]
    congr 2
    funext f
    by_cases here : f.1 = g
    · simp [here, kept]
    · simp [here]
  · rw [if_neg kept, Option.map_eq_none_iff, List.find?_eq_none]
    intro f _ both
    simp only [decide_eq_true_eq] at both
    obtain ⟨there, rfl⟩ := both
    exact kept there

theorem Record.find_writable (g : String) : (rec.writable m o).find g =
    if g ∈ m.columns ∧ g ∉ o.blocked ∧ g ≠ "id" then rec.find g else none := by
  have filtered := Record.find_filter rec
    (fun g => g ∈ m.columns && g ∉ o.blocked && g ≠ "id") g
  simpa [Record.writable, and_assoc] using filtered

theorem nullDangling_absent {fk : NullableFK} {g : String} (absent : clean.find g = none) :
    (nullDangling py clean fk).find g = none := by
  unfold nullDangling
  split
  · rename_i dangling
    rw [Record.find_set]
    split
    · rename_i same
      subst same
      simp [Record.get, absent] at dangling
    · exact absent
  · exact absent

theorem nullDangling_other {fk : NullableFK} {g : String} (other : fk.field ≠ g) :
    (nullDangling py clean fk).find g = clean.find g := by
  unfold nullDangling
  split
  · rw [Record.find_set, if_neg (Ne.symm other)]
  · rfl

theorem foldl_absent {fks : List NullableFK} {g : String} (absent : clean.find g = none) :
    (fks.foldl (nullDangling py) clean).find g = none := by
  induction fks generalizing clean with
  | nil => exact absent
  | cons fk fks ih => exact ih (nullDangling_absent absent)

theorem foldl_other {fks : List NullableFK} {g : String} (other : ∀ fk ∈ fks, fk.field ≠ g) :
    (fks.foldl (nullDangling py) clean).find g = clean.find g := by
  induction fks generalizing clean with
  | nil => rfl
  | cons fk fks ih =>
    rw [List.foldl_cons, ih fun k mem => other k (List.mem_cons_of_mem fk mem)]
    exact nullDangling_other (other fk List.mem_cons_self)

theorem forceOrganization_other {g : String} (other : g ≠ "organization_id") :
    (forceOrganization m o clean).find g = clean.find g := by
  unfold forceOrganization
  split
  · split
    · rw [Record.find_set, if_neg other]
    · rfl
  · rfl

/-! ### What a restore may write -/

/-- What the callers give: guards over columns that a restore writes, with the texts of identifiers
as valid values, apart from the nullable references; and rows are not born deleted. -/
structure Promised (py : Python) (m : Model) (o : Options) : Prop where
  columns : ∀ g ∈ o.rejectGuards, g.field ∈ m.columns ∧ g.field ∉ o.blocked ∧ g.field ≠ "id"
  valid : ∀ g ∈ o.rejectGuards, py.str .none ∉ g.valid
  apart : ∀ g ∈ o.rejectGuards, ∀ fk ∈ o.nullableFks, fk.field ≠ g.field
  alive : m.default "deleted_at" = .none

/-- Columns that leave the identity alone and put a row into scope. -/
structure Clean (py : Python) (m : Model) (o : Options) (clean : Record) : Prop where
  id : clean.find "id" = none
  deleted : clean.find "deleted_at" = none
  org : ∀ org, o.forceOrg = some org → "organization_id" ∈ m.columns →
    clean.find "organization_id" = some (.uuid org)
  guards : ∀ g ∈ o.rejectGuards, ∃ v, clean.find g.field = some v ∧ py.str v ∈ g.valid

theorem cleanRecord_absent {g : String} (other : g ≠ "organization_id")
    (fixed : g ∈ o.blocked ∨ g = "id") : (cleanRecord py m o rec).find g = none := by
  unfold cleanRecord
  rw [forceOrganization_other other]
  refine foldl_absent ?_
  rw [Record.find_writable, if_neg]
  rintro ⟨-, free, named⟩
  exact fixed.elim free named

theorem cleanRecord_org {org : Uuid} (forced : o.forceOrg = some org)
    (column : "organization_id" ∈ m.columns) :
    (cleanRecord py m o rec).find "organization_id" = some (.uuid org) := by
  unfold cleanRecord forceOrganization
  rw [forced]
  dsimp only
  rw [if_pos column, Record.find_set, if_pos rfl]

/-- A guarded field that passed is written as it passed. -/
theorem cleanRecord_guarded (promised : Promised py m o) {g : RejectGuard} (mem : g ∈ o.rejectGuards)
    (passed : py.str (rec.get g.field) ∈ g.valid)
    (home : ∀ org, o.forceOrg = some org → rec.get "organization_id" = .none ∨
      py.str (rec.get "organization_id") = py.str (.uuid org)) :
    ∃ v, (cleanRecord py m o rec).find g.field = some v ∧ py.str v ∈ g.valid := by
  obtain ⟨column, free, named⟩ := promised.columns g mem
  have given : rec.get g.field ≠ .none := fun absent => promised.valid g mem (absent ▸ passed)
  have plain : (o.nullableFks.foldl (nullDangling py) (rec.writable m o)).find g.field =
      some (rec.get g.field) := by
    rw [foldl_other (promised.apart g mem), Record.find_writable, if_pos ⟨column, free, named⟩]
    unfold Record.get at given ⊢
    cases found : rec.find g.field with
    | none => simp [found] at given
    | some v => rfl
  by_cases org : g.field = "organization_id"
  · cases forced : o.forceOrg with
    | none =>
      refine ⟨rec.get g.field, ?_, passed⟩
      unfold cleanRecord forceOrganization
      rw [forced]
      exact plain
    | some home' =>
      rw [org] at column given passed ⊢
      refine ⟨.uuid home', cleanRecord_org forced column, ?_⟩
      rcases home home' forced with absent | same
      · exact absurd absent given
      · exact same ▸ passed
  · refine ⟨rec.get g.field, ?_, passed⟩
    unfold cleanRecord
    rw [forceOrganization_other org]
    exact plain

theorem examine_clean (promised : Promised py m o) {archived : Json} {pk : Value}
    (h : examine py m o archived = .ok (pk, clean)) : Clean py m o clean := by
  unfold examine at h
  split at h
  · split at h
    · simp at h
    · rename_i fields read
      generalize (⟨fields⟩ : Record) = rec at h
      unfold examineRecord at h
      dsimp only at h
      split at h
      · simp at h
      · split at h
        · simp at h
        · rename_i home
          split at h
          · simp at h
          · rename_i passed
            obtain ⟨rfl, rfl⟩ := Prod.mk.inj (Except.ok.inj h)
            refine ⟨cleanRecord_absent (by decide) (.inr rfl),
              cleanRecord_absent (by decide) (.inl ?_), fun org => cleanRecord_org, fun g mem => ?_⟩
            · simp [Options.blocked, baseBlocked]
            · refine cleanRecord_guarded promised mem ?_ fun org forced => ?_
              · have ok := List.find?_eq_none.mp passed g mem
                simpa using ok
              · simp only [forced, Option.any_some, Bool.and_eq_true, decide_eq_true_eq] at home
                by_cases absent : rec.get "organization_id" = .none
                · exact .inl absent
                · refine .inr ?_
                  by_contra other
                  exact home ⟨absent, other⟩
  · simp at h

/-! ### The scope of a restore -/

/-- The row is live, belongs to the organization and passes every guard. -/
def InScope (py : Python) (m : Model) (o : Options) (r : Row) : Prop := outsideScope py m o r = false

theorem inScope_iff {r : Row} : InScope py m o r ↔ m.attr r "deleted_at" = .none ∧
    (∀ org, o.forceOrg = some org → "organization_id" ∈ m.columns →
      r.column "organization_id" = .uuid org) ∧
    ∀ g ∈ o.rejectGuards, py.str (m.attr r g.field) ∈ g.valid := by
  unfold InScope outsideScope
  cases o.forceOrg <;> simp [and_assoc]

section

variable {existing : Row} {pk : Value} {d : Draw}

theorem overwriteRow_inScope (promised : Promised py m o) (h : Clean py m o clean)
    (inside : InScope py m o existing) : InScope py m o (overwriteRow existing clean) := by
  rw [inScope_iff] at inside ⊢
  refine ⟨?_, fun org forced column => ?_, fun g mem => ?_⟩
  · simpa [Model.attr, overwriteRow, h.deleted] using inside.1
  · simp [overwriteRow, h.org org forced column]
  · obtain ⟨v, found, valid⟩ := h.guards g mem
    simpa [Model.attr, (promised.columns g mem).1, overwriteRow, found] using valid

theorem insertRow_inScope (promised : Promised py m o) (h : Clean py m o clean) :
    InScope py m o (insertRow m o pk d clean) := by
  rw [inScope_iff]
  refine ⟨?_, fun org forced column => ?_, fun g mem => ?_⟩
  · unfold Model.attr insertRow
    split
    · simp [h.deleted, promised.alive]
    · rfl
  · simp [insertRow, h.org org forced column]
  · obtain ⟨v, found, valid⟩ := h.guards g mem
    obtain ⟨column, -, named⟩ := promised.columns g mem
    simpa [Model.attr, column, insertRow, named, found] using valid

theorem overwriteRow_id (h : Clean py m o clean) :
    (overwriteRow existing clean).column "id" = existing.column "id" := by
  simp [overwriteRow, h.id]

end

/-! ### The loop -/

variable {rows : List Row} {s s' : State} {archived : Json} {d : Draw}

/-- The rows are those before, but for written ones, which are in scope and were. -/
structure Stays (py : Python) (m : Model) (o : Options) (rows : List Row) (s : State) : Prop where
  unique : Table.Unique s.rows
  kept : ∀ id, id ∉ s.written → Table.lookup s.rows id = Table.lookup rows id
  within : ∀ id ∈ s.written, ∃ r, Table.lookup s.rows id = some r ∧ InScope py m o r
  before : ∀ id ∈ s.written, ∀ r, Table.lookup rows id = some r → InScope py m o r

/-- What one record does to the rows. -/
inductive Wrote (py : Python) (m : Model) (o : Options) (s s' : State) : Prop
  | nothing : s'.rows = s.rows → s'.written = s.written → Wrote py m o s s'
  | updated {existing : Row} (row : Row) : Table.lookup s.rows (row.column "id") = some existing →
      InScope py m o existing → InScope py m o row →
      s'.rows = (Table.update s.rows (row.column "id") fun _ => row) →
      s'.written = s.written ++ [row.column "id"] → Wrote py m o s s'
  | inserted {row : Row} : Table.lookup s.rows (row.column "id") = none → InScope py m o row →
      s'.rows = s.rows ++ [row] → s'.written = s.written ++ [row.column "id"] → Wrote py m o s s'

theorem restoreOne_wrote (promised : Promised py m o)
    (h : restoreOne py m o s archived d = some s') : Wrote py m o s s' := by
  unfold restoreOne at h
  split at h
  · obtain rfl := Option.some.inj h
    exact .nothing rfl rfl
  · rename_i pk clean passed
    have tidy := examine_clean promised passed
    split at h
    · rename_i existing found
      split at h
      · obtain rfl := Option.some.inj h
        exact .nothing rfl rfl
      · rename_i inside
        have inside : InScope py m o existing := by simpa [InScope] using inside
        split at h
        · obtain rfl := Option.some.inj h
          exact .nothing rfl rfl
        · split at h
          · simp at h
          · obtain rfl := Option.some.inj h
            exact .nothing rfl rfl
          · obtain rfl := Option.some.inj h
            have id : (overwriteRow existing clean).column "id" = pk :=
              (overwriteRow_id tidy).trans (Table.lookup_key found)
            refine .updated (overwriteRow existing clean) ?_ inside
              (overwriteRow_inScope promised tidy inside) ?_ ?_
            · rw [id]
              exact found
            · rw [id]
              rfl
            · rw [id]
              rfl
    · split at h
      · obtain rfl := Option.some.inj h
        exact .nothing rfl rfl
      · split at h
        · simp at h
        · obtain rfl := Option.some.inj h
          exact .nothing rfl rfl
        · dsimp only at h
          split at h
          · obtain rfl := Option.some.inj h
            exact .nothing rfl rfl
          · rename_i fresh
            obtain rfl := Option.some.inj h
            exact .inserted (by simpa using fresh) (insertRow_inScope promised tidy) rfl rfl

theorem Stays.wrote (stays : Stays py m o rows s) (wrote : Wrote py m o s s') :
    Stays py m o rows s' := by
  obtain ⟨unique, kept, within, before⟩ := stays
  cases wrote with
  | nothing same written =>
    rw [← same] at unique kept within
    rw [← written] at kept within before
    exact ⟨unique, kept, within, before⟩
  | @updated existing row found inside into same written =>
    have keeps : ∀ r ∈ s.rows,
        Keyed.key (if Keyed.key r = row.column "id" then row else r) = Keyed.key r :=
      Table.update_keeps fun _ _ _ => rfl
    have lookup (id : Value) : Table.lookup s'.rows id =
        (Table.lookup s.rows id).map fun r => if Keyed.key r = row.column "id" then row else r := by
      rw [same]
      exact Table.lookup_map keeps
    have other {id : Value} (different : id ≠ row.column "id") :
        Table.lookup s'.rows id = Table.lookup s.rows id := by
      rw [lookup]
      cases here : Table.lookup s.rows id with
      | none => rfl
      | some r =>
        have own : Keyed.key r = id := Table.lookup_key here
        rw [Option.map_some, if_neg (own ▸ different)]
    refine ⟨same ▸ unique.map keeps, fun id fresh => ?_, fun id mem => ?_, fun id mem => ?_⟩
    · rw [written, List.mem_append, not_or, List.mem_singleton] at fresh
      rw [other fresh.2]
      exact kept id fresh.1
    · by_cases here : id = row.column "id"
      · refine ⟨row, ?_, into⟩
        have own : Keyed.key existing = row.column "id" := Table.lookup_key found
        rw [lookup, here, found, Option.map_some, if_pos own]
      · rw [written, List.mem_append, List.mem_singleton] at mem
        rw [other here]
        exact within id (mem.resolve_right here)
    · rw [written, List.mem_append, List.mem_singleton] at mem
      by_cases old : id ∈ s.written
      · exact before id old
      · intro r stored
        obtain rfl := mem.resolve_left old
        rw [← kept _ old, found] at stored
        exact Option.some.inj stored ▸ inside
  | @inserted row absent into same written =>
    have fresh : ∀ r ∈ s.rows, Keyed.key r ≠ Keyed.key row := Table.lookup_none.mp absent
    have other {id : Value} (different : id ≠ row.column "id") :
        Table.lookup s'.rows id = Table.lookup s.rows id := by
      have last : ¬ row.column "id" = id := fun eq => different eq.symm
      rw [same, Table.lookup, List.find?_append]
      simp [Table.lookup, last]
    refine ⟨same ▸ unique.append fresh, fun id new => ?_, fun id mem => ?_, fun id mem => ?_⟩
    · rw [written, List.mem_append, not_or, List.mem_singleton] at new
      rw [other new.2]
      exact kept id new.1
    · by_cases here : id = row.column "id"
      · refine ⟨row, ?_, into⟩
        rw [same, here]
        exact (unique.append fresh).lookup (by simp)
      · rw [written, List.mem_append, List.mem_singleton] at mem
        rw [other here]
        exact within id (mem.resolve_right here)
    · rw [written, List.mem_append, List.mem_singleton] at mem
      by_cases old : id ∈ s.written
      · exact before id old
      · intro r stored
        obtain rfl := mem.resolve_left old
        rw [← kept _ old, absent] at stored
        simp at stored

theorem Stays.start (unique : Table.Unique rows) : Stays py m o rows ⟨rows, 0, 0, 0, [], [], [], [], 0⟩ :=
  ⟨unique, fun _ _ => rfl, by simp, by simp⟩

theorem restoreFrom_stays (promised : Promised py m o) {draws : Nat → Draw} {i : Nat}
    {records : List Json} (stays : Stays py m o rows s)
    (h : restoreFrom py m o draws s i records = some s') : Stays py m o rows s' := by
  induction records generalizing s i with
  | nil =>
    obtain rfl := Option.some.inj h
    exact stays
  | cons archived records ih =>
    obtain ⟨next, one, rest⟩ := Option.bind_eq_some_iff.mp h
    exact ih (stays.wrote (restoreOne_wrote promised one)) rest

/-! ### Counts and identifiers -/

def State.counted (s : State) : Nat := s.created + s.updated + s.skipped

/-- The identifier that a record restores, as far as the rows decide it. -/
def offered (py : Python) (m : Model) (o : Options) (rows : List Row) (archived : Json) : List String :=
  match examine py m o archived with
  | .error _ => []
  | .ok (pk, _) =>
    if (Table.lookup rows pk).any (outsideScope py m o) then [] else [py.str pk]

/-- One record counts once, and offers its identifier unless its write fails. -/
theorem restoreOne_counted (h : restoreOne py m o s archived d = some s') :
    s'.counted = s.counted + 1 ∧ s.failures ≤ s'.failures ∧
      (s'.failures = s.failures → s'.ids = s.ids ++ offered py m o s.rows archived) ∧
      (o.dryRun = true → s'.failures = s.failures) := by
  have skipped (why : Refusal) : (s.skip why).counted = s.counted + 1 := by
    simp only [State.skip, State.counted]
    omega
  unfold restoreOne at h
  unfold offered
  cases checked : examine py m o archived with
  | error why =>
    rw [checked] at h
    obtain rfl := Option.some.inj h
    exact ⟨skipped why, Nat.le_refl _, fun _ => by simp [State.skip], fun _ => rfl⟩
  | ok found =>
    obtain ⟨pk, clean⟩ := found
    rw [checked] at h
    dsimp only at h ⊢
    have failed (action exception : String) (real : ¬ o.dryRun = true)
        (h : some (s.fail py o pk action exception) = some s') :
        s'.counted = s.counted + 1 ∧ s.failures ≤ s'.failures ∧
          (s'.failures = s.failures → s'.ids = s.ids ++
            if (Table.lookup s.rows pk).any (outsideScope py m o) then [] else [py.str pk]) ∧
          (o.dryRun = true → s'.failures = s.failures) := by
      obtain rfl := Option.some.inj h
      refine ⟨?_, Nat.le_succ _, fun same => ?_, fun dry => absurd dry real⟩
      · simp only [State.fail, State.skip, State.counted]
        omega
      · exact absurd same (Nat.succ_ne_self _)
    cases live : Table.lookup s.rows pk with
    | some existing =>
      rw [live] at h
      dsimp only at h
      split at h
      · rename_i outside
        obtain rfl := Option.some.inj h
        exact ⟨skipped _, Nat.le_refl _, fun _ => by simp [State.skip, outside], fun _ => rfl⟩
      · rename_i inside
        split at h
        · obtain rfl := Option.some.inj h
          refine ⟨skipped ⟨[], []⟩, Nat.le_refl _, fun _ => ?_, fun _ => rfl⟩
          simp [State.skip, State.restored, inside]
        · rename_i writes
          have real : ¬ o.dryRun = true := fun dry => writes (by simp [dry])
          split at h
          · simp at h
          · exact live ▸ failed _ _ real h
          · obtain rfl := Option.some.inj h
            refine ⟨?_, Nat.le_refl _, fun _ => ?_, fun _ => rfl⟩
            · simp only [State.counted, State.restored]
              omega
            · simp [State.restored, inside]
    | none =>
      rw [live] at h
      dsimp only at h
      split at h
      · obtain rfl := Option.some.inj h
        refine ⟨?_, Nat.le_refl _, fun _ => ?_, fun _ => rfl⟩
        · simp only [State.counted, State.restored]
          omega
        · simp [State.restored]
      · rename_i real
        split at h
        · simp at h
        · exact live ▸ failed _ _ real h
        · split at h
          · exact live ▸ failed _ _ real h
          · obtain rfl := Option.some.inj h
            refine ⟨?_, Nat.le_refl _, fun _ => ?_, fun _ => rfl⟩
            · simp only [State.counted, State.restored]
              omega
            · simp [State.restored]

section

variable {draws : Nat → Draw} {i : Nat} {records : List Json}

theorem restoreFrom_counted (h : restoreFrom py m o draws s i records = some s') :
    s'.counted = s.counted + records.length ∧ s.failures ≤ s'.failures := by
  induction records generalizing s i with
  | nil =>
    obtain rfl := Option.some.inj h
    exact ⟨rfl, Nat.le_refl _⟩
  | cons archived records ih =>
    obtain ⟨next, one, rest⟩ := Option.bind_eq_some_iff.mp h
    obtain ⟨counted, failed, -, -⟩ := restoreOne_counted one
    obtain ⟨counted', failed'⟩ := ih rest
    rw [List.length_cons]
    omega

theorem restoreOne_dry (dry : o.dryRun = true) (s : State) (archived : Json) (d : Draw) :
    ∃ next, restoreOne py m o s archived d = some next ∧ next.rows = s.rows := by
  unfold restoreOne
  split
  · exact ⟨_, rfl, rfl⟩
  · split
    · split
      · exact ⟨_, rfl, rfl⟩
      · rw [if_pos (by simp [dry])]
        exact ⟨_, rfl, rfl⟩
    · rw [if_pos dry]
      exact ⟨_, rfl, rfl⟩

/-- A dry run returns, and writes nothing. -/
theorem restoreFrom_dry (dry : o.dryRun = true) (s : State) (i : Nat) (records : List Json) :
    ∃ s', restoreFrom py m o draws s i records = some s' ∧ s'.rows = s.rows := by
  induction records generalizing s i with
  | nil => exact ⟨s, rfl, rfl⟩
  | cons archived records ih =>
    obtain ⟨next, found, rows⟩ := restoreOne_dry dry s archived (draws i)
    obtain ⟨last, rest, rows'⟩ := ih next (i + 1)
    refine ⟨last, ?_, rows'.trans rows⟩
    rw [restoreFrom, found]
    exact rest

/-- The options of the real run. -/
def Options.real (o : Options) : Options := { o with dryRun := false }

/-- The rows of a run offer the same identifiers as those before it. -/
theorem Stays.offered (stays : Stays py m o rows s) (archived : Json) :
    offered py m o s.rows archived = offered py m o rows archived := by
  unfold Backup.offered
  split
  · rfl
  · rename_i pk clean _
    by_cases touched : pk ∈ s.written
    · obtain ⟨r, found, inside⟩ := stays.within pk touched
      have now : (Table.lookup s.rows pk).any (outsideScope py m o) = false := by
        simpa [found, InScope] using inside
      have before : (Table.lookup rows pk).any (outsideScope py m o) = false := by
        cases old : Table.lookup rows pk with
        | none => rfl
        | some q => exact stays.before pk touched q old
      rw [now, before]
    · rw [stays.kept pk touched]

/-- A dry run and a real one that does not fail restore the same identifiers, record by record. -/
theorem restoreFrom_agree {draws' : Nat → Draw} {dry dry' real real' : State}
    (promised : Promised py m o.real) (asked : o.dryRun = true) (same : dry.rows = rows)
    (stays : Stays py m o.real rows real) (ids : dry.ids = real.ids)
    (first : restoreFrom py m o draws dry i records = some dry')
    (second : restoreFrom py m o.real draws' real i records = some real')
    (clean : real'.failures = real.failures) : dry'.ids = real'.ids := by
  induction records generalizing dry real i with
  | nil =>
    obtain rfl := Option.some.inj first
    obtain rfl := Option.some.inj second
    exact ids
  | cons archived records ih =>
    obtain ⟨next, one, rest⟩ := Option.bind_eq_some_iff.mp first
    obtain ⟨next', one', rest'⟩ := Option.bind_eq_some_iff.mp second
    obtain ⟨-, -, gives, unfailed⟩ := restoreOne_counted one
    obtain ⟨-, low, gives', -⟩ := restoreOne_counted one'
    have high := (restoreFrom_counted rest').2
    have quiet : next'.failures = real.failures := by omega
    have kept : next.rows = rows := by
      obtain ⟨again, single, rows'⟩ := restoreOne_dry asked dry archived (draws i)
      rw [Option.some.inj (one.symm.trans single), rows', same]
    refine ih kept (stays.wrote (restoreOne_wrote promised one')) ?_ rest rest' (by omega)
    rw [gives (unfailed asked), gives' quiet, ids, same]
    exact congrArg (real.ids ++ ·) (stays.offered archived).symm

end

theorem Promised.real (promised : Promised py m o) : Promised py m o.real :=
  ⟨promised.columns, promised.valid, promised.apart, promised.alive⟩

/-- The row is soft-deleted, belongs to another organization, or holds a guarded field outside the
valid values of its guard. -/
def Foreign (py : Python) (m : Model) (o : Options) (r : Row) : Prop :=
  m.attr r "deleted_at" ≠ .none ∨
    (∃ org, o.forceOrg = some org ∧ "organization_id" ∈ m.columns ∧
      r.column "organization_id" ≠ .uuid org) ∨
    ∃ g ∈ o.rejectGuards, py.str (m.attr r g.field) ∉ g.valid

theorem Foreign.outside {r : Row} (foreign : Foreign py m o r) : ¬ InScope py m o r := by
  intro inside
  obtain ⟨alive, home, valid⟩ := inScope_iff.mp inside
  rcases foreign with deleted | ⟨org, forced, column, other⟩ | ⟨g, mem, invalid⟩
  · exact deleted alive
  · exact other (home org forced column)
  · exact invalid (valid g mem)

/-- A restore never crosses the tenant boundary.  No row of another owner changes; every row that it
writes has the forced organization and passes the guards; every record is counted once; and a dry run
writes nothing and returns the identifiers of a real run that does not fail. -/
theorem restore_stays_in_tenant (promised : Promised py m o) {rows : List Row}
    (unique : Table.Unique rows) (draws : Nat → Draw) (records : List Json) :
    (∀ s, restoreRecords py m o draws rows records = some s →
      (∀ r ∈ rows, Foreign py m o r → r ∈ s.rows ∧ r.column "id" ∉ s.written) ∧
      (∀ r ∈ rows, r.column "id" ∉ s.written → r ∈ s.rows) ∧
      (∀ r ∈ s.rows, r ∈ rows ∨ r.column "id" ∈ s.written) ∧
      (∀ r ∈ s.rows, r.column "id" ∈ s.written →
        (∀ org, o.forceOrg = some org → "organization_id" ∈ m.columns →
          r.column "organization_id" = .uuid org) ∧
        ∀ g ∈ o.rejectGuards, py.str (m.attr r g.field) ∈ g.valid) ∧
      s.created + s.updated + s.skipped = records.length) ∧
    (o.dryRun = true → ∃ s, restoreRecords py m o draws rows records = some s ∧ s.rows = rows ∧
      ∀ draws' real, restoreRecords py m o.real draws' rows records = some real →
        real.failures = 0 → ∀ id, id ∈ s.ids ↔ id ∈ real.ids) := by
  refine ⟨fun s h => ?_, fun dry => ?_⟩
  · have stays := restoreFrom_stays promised (.start unique) h
    have keeps (r : Row) (mem : r ∈ rows) (untouched : r.column "id" ∉ s.written) : r ∈ s.rows := by
      have found := (stays.kept _ untouched).trans (unique.lookup mem)
      exact Table.lookup_mem found
    refine ⟨fun r mem foreign => ?_, keeps, fun r mem => ?_, fun r mem touched => ?_, ?_⟩
    · have untouched : r.column "id" ∉ s.written := fun touched =>
        foreign.outside (stays.before _ touched r (unique.lookup mem))
      exact ⟨keeps r mem untouched, untouched⟩
    · by_cases touched : r.column "id" ∈ s.written
      · exact .inr touched
      · have found := (stays.kept _ touched).symm.trans (stays.unique.lookup mem)
        exact .inl (Table.lookup_mem found)
    · obtain ⟨q, found, inside⟩ := stays.within _ touched
      obtain rfl := Option.some.inj ((stays.unique.lookup mem).symm.trans found)
      exact (inScope_iff.mp inside).2
    · have counted := (restoreFrom_counted h).1
      simpa [State.counted] using counted
  · obtain ⟨s, ran, same⟩ := restoreFrom_dry dry ⟨rows, 0, 0, 0, [], [], [], [], 0⟩ 0 records
    refine ⟨s, ran, same, fun draws' real second clean id => ?_⟩
    have ids := restoreFrom_agree promised.real dry rfl (.start unique) rfl ran second clean
    rw [ids]

/-! ### A small restore -/

def plainPython : Python where
  str
    | .uuid 1 => "u1"
    | .uuid 2 => "u2"
    | .json .null => "None"
    | _ => "?"
  readUuid
    | "u1" => some 1
    | "u2" => some 2
    | "u3" => some 3
    | _ => none

def siteModel : Model where
  columns := ["id", "organization_id", "name", "deleted_at"]
  uuidFields := ["id", "organization_id"]
  default := fun _ => .none

def siteOptions (dryRun : Bool) : Options where
  resource := "sites"
  dryRun := dryRun
  overwrite := true
  forceOrg := some 1
  rejectGuards := [⟨"organization_id", ["u1"], true⟩]
  nullableFks := []
  blockedFields := []
  preserveId := true

theorem siteOptions_promised (dryRun : Bool) : Promised plainPython siteModel (siteOptions dryRun) where
  columns := by simp [siteOptions, siteModel, Options.blocked, baseBlocked]
  valid := by simp [siteOptions, plainPython, Value.none]
  apart := by simp [siteOptions]
  alive := rfl

/-- A site of another organization. -/
def foreignSite : Row := ⟨fun field =>
  if field = "id" then .uuid 3 else if field = "organization_id" then .uuid 2 else .none⟩

/-- A new site, and one whose archived owner hides its live one. -/
def siteArchive : List Json :=
  [.obj [("id", .str "u2"), ("organization_id", .str "u1"), ("name", .str "HQ")],
   .obj [("id", .str "u3"), ("organization_id", .str "u1"), ("name", .str "stolen")]]

def steady : Nat → Draw := fun _ => ⟨.none, .held⟩

theorem siteRestore_stays :
    ∃ s, restoreRecords plainPython siteModel (siteOptions false) steady [foreignSite] siteArchive =
        some s ∧ foreignSite ∈ s.rows ∧ s.created = 1 ∧ s.skipped = 1 := by
  have ran : (restoreRecords plainPython siteModel (siteOptions false) steady [foreignSite]
      siteArchive).any (fun s => decide (s.created = 1 ∧ s.skipped = 1)) = true := by decide
  obtain ⟨s, ends, counts⟩ := (Option.any_eq_true _ _).mp ran
  obtain ⟨one, other⟩ := of_decide_eq_true counts
  have unique : Table.Unique [foreignSite] := by simp [Table.Unique]
  have facts := (restore_stays_in_tenant (siteOptions_promised false) unique steady siteArchive).1 s ends
  have foreign : Foreign plainPython siteModel (siteOptions false) foreignSite :=
    .inr (.inl ⟨1, rfl, by simp [siteModel], by simp [foreignSite]⟩)
  exact ⟨s, ends, (facts.1 foreignSite (by simp) foreign).1, one, other⟩

/-- A guarded column that is also a nullable reference, to nothing that was restored. -/
def nulledOptions : Options :=
  { siteOptions false with forceOrg := none, nullableFks := [⟨"organization_id", []⟩] }

/-- The archived value passes the guard and is nulled afterwards, so that the new row holds a value
outside the guard. -/
theorem guarded_reference_nulled :
    ¬ ∀ (o : Options) (rows : List Row) (records : List Json) (s : State),
      (∀ g ∈ o.rejectGuards, g.field ∈ siteModel.columns ∧ g.field ∉ o.blocked) →
      Table.Unique rows → restoreRecords plainPython siteModel o steady rows records = some s →
      ∀ r ∈ s.rows, r.column "id" ∈ s.written →
        ∀ g ∈ o.rejectGuards, plainPython.str (siteModel.attr r g.field) ∈ g.valid := by
  intro claim
  have ran : (restoreRecords plainPython siteModel nulledOptions steady [] siteArchive).any (fun s =>
      s.rows.any fun r => decide (r.column "id" ∈ s.written) &&
        decide (plainPython.str (siteModel.attr r "organization_id") = "None")) = true := by decide
  obtain ⟨s, ends, nulled⟩ := (Option.any_eq_true _ _).mp ran
  obtain ⟨r, mem, both⟩ := List.any_eq_true.mp nulled
  obtain ⟨written, outside⟩ := (Bool.and_eq_true _ _).mp both
  have inside := claim nulledOptions [] siteArchive s
    (by simp [nulledOptions, siteOptions, siteModel, Options.blocked, baseBlocked])
    Table.unique_nil ends r mem (of_decide_eq_true written) ⟨"organization_id", ["u1"], true⟩
    List.mem_cons_self
  rw [of_decide_eq_true outside] at inside
  simp at inside

end FreeSdn.Backup
