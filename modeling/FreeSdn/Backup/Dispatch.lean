import FreeSdn.Backup.TopologicalOrder
import FreeSdn.Lib.Dictionary
import FreeSdn.Lib.Json
import FreeSdn.Lib.Text

/-! Restoring the sections of an archive (`_dispatch_restore_via_contributors` of `services/backup.py`):
the registered contributors in topological order, each in a savepoint of its own, and the sections that
no contributor is registered for. -/

namespace FreeSdn.Backup

open FreeSdn.Lib
open BackupContributor (contributorId)

/-! ### Schema versions -/

def decimalValue (c : Char) : Option Nat :=
  (decimalZeros.find? fun z => z ≤ c.toNat && c.toNat < z + 10).map (c.toNat - ·)

/-- `int` of what `\d+` matches; it refuses more than 4300 digits. -/
def intOf (digits : List Char) : Option Nat :=
  if digits = [] ∨ 4300 < digits.length then none
  else digits.foldlM (fun n c => (decimalValue c).map (n * 10 + ·)) 0

structure SchemaVersion where
  major : Nat
  minor : Nat
  patch : Nat
  deriving DecidableEq, Repr

/-- `parse`.  The `$` of `_SEMVER_RE` also matches before a final line feed. -/
def parseVersion (version : String) : Option SchemaVersion :=
  match splitChars '.' (dropFinalNewline version.toList) with
  | [major, minor, patch] => do some ⟨← intOf major, ← intOf minor, ← intOf patch⟩
  | _ => none

inductive DispatchError
  | order (e : OrderError)
  | invalidSchemaVersion (version : String)
  deriving DecidableEq

def parse (version : String) : Except DispatchError SchemaVersion :=
  orRaise (parseVersion version) (.invalidSchemaVersion version)

def isCompatible (payloadVersion codeVersion : String) : Except DispatchError Bool := do
  let payload ← parse payloadVersion
  let code ← parse codeVersion
  .ok (payload.major = code.major)

def describeMismatch (payloadVersion codeVersion : String) : Except DispatchError String := do
  let payload ← parse payloadVersion
  let code ← parse codeVersion
  .ok (if payload.major < code.major then
      "backup payload schema is v" ++ payloadVersion ++ " (older major); running code expects v" ++
        codeVersion ++ ". Upgrade required: the contributor must implement ``migrate_from`` to convert " ++
        "the older payload. Restore for this contributor skipped."
    else if code.major < payload.major then
      "backup payload schema is v" ++ payloadVersion ++ " (newer major); running code is at v" ++
        codeVersion ++ ". Downgrade refused — the backup was taken on a newer instance and may carry " ++
        "fields this code can't safely interpret. Restore for this contributor skipped."
    else "schemas are compatible (" ++ payloadVersion ++ " ↔ " ++ codeVersion ++ ")")

/-! ### Contributors and archives -/

abbrev Counts := List (String × Int)

structure ContributorPayload where
  schemaVersion : String
  counts : Counts
  data : List (String × Json)
  metadata : List (String × Json)

inductive RestoreStatus
  | ok | dryRunOk | skipped | schemaMismatch | missing | error
  deriving DecidableEq, Repr

structure RestoreResult where
  contributorId : String
  status : RestoreStatus
  created : Counts := []
  updated : Counts := []
  skipped : Counts := []
  errors : List String := []
  warnings : List String := []
  deriving DecidableEq

structure RestoreRequest where
  organizationId : Nat
  dryRun : Bool
  options : List (String × Json)

/-- How a restore ends, and what it leaves in the session. -/
inductive Outcome (δ : Type)
  | raised (db : δ)
  | returned (result : RestoreResult) (db : δ)

inductive Migration
  | raised
  | returned (payload : Option ContributorPayload)

/-- A contributor over the databases `δ`.  It reports under its own identifier, and a restore that is no
dry run ends well or with an error; `migrateFrom` is there for a `MigratingContributor`. -/
structure Contributor (δ : Type) where
  contributorId : String
  schemaVersion : String
  dependsOn : List String
  restore : RestoreRequest → ContributorPayload → δ → Outcome δ
  migrateFrom : Option (String → ContributorPayload → Migration)
  reports : ∀ request payload db result after, restore request payload db = .returned result after →
    result.contributorId = contributorId ∧
      (request.dryRun = false → result.status = .ok ∨ result.status = .error)

instance contributorOrder (δ : Type) : BackupContributor (Contributor δ) where
  contributorId := Contributor.contributorId
  dependsOn := Contributor.dependsOn

structure ContributorEntry where
  id : String
  schemaVersion : String
  counts : Counts
  metadata : List (String × Json)

structure BackupArchive where
  manifest : List ContributorEntry
  contributors : List (String × List (String × Json))

/-- `manifest_by_id.get(cid)`. -/
def BackupArchive.entry (archive : BackupArchive) (cid : String) : Option ContributorEntry :=
  archive.manifest.reverse.find? (·.id = cid)

/-- The payload of a section. -/
def BackupArchive.payload (archive : BackupArchive) (entry : ContributorEntry) : ContributorPayload where
  schemaVersion := entry.schemaVersion
  counts := entry.counts
  data := (archive.contributors.lookup entry.id).getD []
  metadata := entry.metadata

/-! ### One contributor -/

/-- `selected is None or cid in selected`; an empty list leaves `selected` at `None`. -/
def isSelected (selectedContributors : Option (List String)) (cid : String) : Bool :=
  match selectedContributors with
  | none | some [] => true
  | some ids => ids.contains cid

/-- What was counted as created or updated is counted as skipped. -/
def RestoreResult.undone (r : RestoreResult) : RestoreResult :=
  let add (skipped : Counts) (m : String × Int) : Counts :=
    Dictionary.setItem skipped m.1 ((skipped.lookup m.1).getD 0 + m.2)
  { r with created := [], updated := [], skipped := r.updated.foldl add (r.created.foldl add r.skipped) }

namespace Contributor

variable {δ : Type} (c : Contributor δ)

/-- The restore in its savepoint. -/
def restoreNested (request : RestoreRequest) (payload : ContributorPayload) (db : δ) : RestoreResult × δ :=
  match c.restore request payload db with
  | .raised after =>
    ({ contributorId := c.contributorId, status := .error
       errors := ["Contributor restore failed; review module availability and retry."] },
      if request.dryRun then after else db)
  | .returned result after =>
    if request.dryRun = false ∧ result.status = .error then (result.undone, db) else (result, after)

/-- The payload that `migrate_from` returns, if there is one. -/
def migrated (oldVersion : String) (payload : ContributorPayload) : Option ContributorPayload :=
  c.migrateFrom.bind fun migrate =>
    match migrate oldVersion payload with
    | .raised => none
    | .returned payload => payload

/-- The turn of one contributor. -/
def visit (archive : BackupArchive) (request : RestoreRequest) (selection : Option (List String)) (db : δ) :
    Except DispatchError (RestoreResult × δ) :=
  if isSelected selection c.contributorId = false then
    .ok ({ contributorId := c.contributorId, status := .skipped }, db)
  else
    match archive.entry c.contributorId with
    | none => .ok ({ contributorId := c.contributorId, status := .missing }, db)
    | some entry => do
      let compatible ← isCompatible entry.schemaVersion c.schemaVersion
      if compatible then .ok (c.restoreNested request (archive.payload entry) db)
      else
        match c.migrated entry.schemaVersion (archive.payload entry) with
        | some payload => .ok (c.restoreNested request payload db)
        | none =>
          let mismatch ← describeMismatch entry.schemaVersion c.schemaVersion
          .ok ({ contributorId := c.contributorId, status := .schemaMismatch, errors := [mismatch] }, db)

end Contributor

/-! ### The dispatch -/

section

variable {δ : Type} (archive : BackupArchive) (request : RestoreRequest)
  (selection : Option (List String))

/-- The first loop. -/
def visitAll : List (Contributor δ) → δ → δ × Except DispatchError (List RestoreResult)
  | [], db => (db, .ok [])
  | c :: cs, db =>
    match c.visit archive request selection db with
    | .error e => (db, .error e)
    | .ok (result, db) =>
      let rest := visitAll cs db
      (rest.1, rest.2.map (result :: ·))

/-- `sum(counts.values())`. -/
def Counts.total (counts : Counts) : Int := counts.foldr (fun m n => m.2 + n) 0

/-- The entry of a section that no contributor is registered for. -/
def unregistered (entry : ContributorEntry) : RestoreResult :=
  if isSelected selection entry.id = false then { contributorId := entry.id, status := .skipped }
  else
    { contributorId := entry.id, status := .error, skipped := entry.counts
      errors := ["no '" ++ entry.id ++ "' contributor registered in this instance " ++
        "(is the module installed?) — its " ++ toString entry.counts.total ++
        " record(s) were NOT restored"] }

structure RestoreSummary where
  totalCreated : Int
  totalUpdated : Int
  totalSkipped : Int
  totalErrors : Nat
  contributorsOk : Nat
  contributorsFailed : Nat
  deriving DecidableEq

structure RestoreReport where
  contributors : List RestoreResult
  summary : RestoreSummary

def RestoreResult.failed (r : RestoreResult) : Bool := r.status = .error || r.status = .schemaMismatch

def restoreReport (results : List RestoreResult) : RestoreReport where
  contributors := results
  summary := {
    totalCreated := results.foldr (fun r n => r.created.total + n) 0
    totalUpdated := results.foldr (fun r n => r.updated.total + n) 0
    totalSkipped := results.foldr (fun r n => r.skipped.total + n) 0
    totalErrors := results.foldr (fun r n => r.errors.length + n) 0
    contributorsOk := results.countP fun r => r.status = .ok || r.status = .dryRunOk
    contributorsFailed := results.countP RestoreResult.failed }

/-- `_dispatch_restore_via_contributors`: the database it leaves, and what it returns or raises. -/
def dispatchRestore (registry : Registry (Contributor δ)) (db : δ) :
    δ × Except DispatchError RestoreReport :=
  match registry.topologicalOrder with
  | .error e => (db, .error (.order e))
  | .ok order =>
    let visited := visitAll archive request selection order db
    let sections := archive.manifest.filter fun entry => entry.id ∉ order.map contributorId
    (visited.1, visited.2.map fun results => restoreReport (results ++ sections.map (unregistered selection)))

end

/-! ### What a restore is for -/

/-- `None` selects every contributor, and a list those that it names. -/
def Selects : Option (List String) → String → Prop
  | none, _ => True
  | some ids, cid => cid ∈ ids

instance (selection : Option (List String)) (cid : String) : Decidable (Selects selection cid) :=
  match selection with
  | none => inferInstanceAs (Decidable True)
  | some ids => inferInstanceAs (Decidable (cid ∈ ids))

def sameMajor (payloadVersion codeVersion : String) : Bool :=
  (parseVersion payloadVersion).any fun payload => (parseVersion codeVersion).any fun code =>
    payload.major = code.major

section

variable {δ : Type} (archive : BackupArchive) (request : RestoreRequest)
  (selection : Option (List String))

namespace Contributor

variable (c : Contributor δ)

/-- The payload of a section that is compatible or migrated. -/
def accepted (entry : ContributorEntry) : Option ContributorPayload :=
  if sameMajor entry.schemaVersion c.schemaVersion then some (archive.payload entry)
  else c.migrated entry.schemaVersion (archive.payload entry)

/-- The database behind a restore that succeeds. -/
def succeeded (payload : ContributorPayload) (db : δ) : Option δ :=
  match c.restore request payload db with
  | .raised _ => none
  | .returned result after => if result.status = .error then none else some after

/-- The database behind the restore of a contributor that is selected, in the archive and accepted, and
that succeeds. -/
def restored (db : δ) : Option δ :=
  if Selects selection c.contributorId then
    (archive.entry c.contributorId).bind fun entry =>
      (c.accepted archive entry).bind fun payload => c.succeeded request payload db
  else none

end Contributor

/-- The contributors that are restored, in the given order, and the database behind them. -/
def restoreSections : List (Contributor δ) → δ → List String × δ
  | [], db => ([], db)
  | c :: cs, db =>
    match c.restored archive request selection db with
    | none => restoreSections cs db
    | some after =>
      let rest := restoreSections cs after
      (c.contributorId :: rest.1, rest.2)

/-- A report accounts for every contributor and every section, and the database holds what was restored. -/
structure Accounted (registry : Registry (Contributor δ)) (order : List (Contributor δ)) (db after : δ)
    (report : RestoreReport) : Prop where
  once : (report.contributors.map (·.contributorId)).Nodup
  all : ∀ cid, cid ∈ report.contributors.map (·.contributorId) ↔
    cid ∈ registry.ids ∨ cid ∈ archive.manifest.map (·.id)
  database : after = (restoreSections archive request selection order db).2
  selected : ∀ r ∈ report.contributors, r.status = .skipped ↔ ¬ Selects selection r.contributorId
  errors : ∀ r ∈ report.contributors, r.status = .error → r.created = [] ∧ r.updated = []
  failed : 0 < report.summary.contributorsFailed ↔ ∃ entry ∈ archive.manifest,
    Selects selection entry.id ∧ entry.id ∉ (restoreSections archive request selection order db).1

/-- The restore returns a report that accounts for everything. -/
def Accounts (registry : Registry (Contributor δ)) (db : δ) : Prop :=
  ∃ order report, registry.topologicalOrder = .ok order ∧
    (dispatchRestore archive request selection registry db).2 = .ok report ∧
    Accounted archive request selection registry order db
      (dispatchRestore archive request selection registry db).1 report

/-- The registry can be ordered, the versions of the selected sections and of their contributors are read,
and an empty selection meets nothing to select from. -/
structure Regular (registry : Registry (Contributor δ)) : Prop where
  closed : registry.Closed
  acyclic : ¬ Cyclic registry.depsOf
  versions : ∀ c ∈ registry.contributors, Selects selection c.contributorId →
    ∀ entry ∈ archive.manifest, entry.id = c.contributorId →
      (parseVersion entry.schemaVersion).isSome ∧ (parseVersion c.schemaVersion).isSome
  someSelected : selection = some [] → registry.contributors = [] ∧ archive.manifest = []

end

/-! ### One contributor -/

variable {δ : Type} {archive : BackupArchive} {request : RestoreRequest} {selection : Option (List String)}
  {c : Contributor δ} {db after : δ} {result : RestoreResult} {entry : ContributorEntry} {cid : String}

theorem isSelected_iff (listed : selection ≠ some []) :
    isSelected selection cid = true ↔ Selects selection cid := by
  match selection, listed with
  | none, _ => exact iff_of_true rfl trivial
  | some [], listed => exact absurd rfl listed
  | some (id :: ids), _ => exact List.contains_iff_mem

theorem entry_some (found : archive.entry cid = some entry) : entry ∈ archive.manifest ∧ entry.id = cid :=
  ⟨List.mem_reverse.mp (List.mem_of_find?_eq_some found), by simpa using List.find?_some found⟩

theorem entry_isSome (mem : entry ∈ archive.manifest) : ∃ found, archive.entry entry.id = some found := by
  apply Option.isSome_iff_exists.mp
  exact List.find?_isSome.mpr ⟨entry, List.mem_reverse.mpr mem, by simp⟩

theorem entry_eq (distinct : (archive.manifest.map (·.id)).Nodup) (mem : entry ∈ archive.manifest) :
    archive.entry entry.id = some entry := by
  obtain ⟨found, eq⟩ := entry_isSome mem
  obtain ⟨mem', same⟩ := entry_some eq
  rw [eq, List.inj_on_of_nodup_map distinct mem' mem same]

theorem isCompatible_ok {v w : String} {compatible : Bool} (h : isCompatible v w = .ok compatible) :
    (parseVersion v).isSome ∧ (parseVersion w).isSome := by
  obtain ⟨p, first, h⟩ := bind_ok h
  obtain ⟨q, second, -⟩ := bind_ok h
  exact ⟨Option.isSome_iff_exists.mpr ⟨p, orRaise_ok first⟩,
    Option.isSome_iff_exists.mpr ⟨q, orRaise_ok second⟩⟩

theorem isCompatible_eq {v w : String} (first : (parseVersion v).isSome) (second : (parseVersion w).isSome) :
    isCompatible v w = .ok (sameMajor v w) ∧ ∃ text, describeMismatch v w = .ok text := by
  obtain ⟨p, readV⟩ := Option.isSome_iff_exists.mp first
  obtain ⟨q, readW⟩ := Option.isSome_iff_exists.mp second
  unfold isCompatible describeMismatch sameMajor parse
  rw [readV, readW]
  exact ⟨rfl, _, rfl⟩

namespace Contributor

/-- Behind the savepoint is what a restore that succeeds leaves, or what was there before. -/
theorem restoreNested_spec (real : request.dryRun = false) (payload : ContributorPayload) (db : δ) :
    (c.restoreNested request payload db).2 = (c.succeeded request payload db).getD db ∧
      (c.restoreNested request payload db).1.contributorId = c.contributorId ∧
      ((c.restoreNested request payload db).1.status = .ok ∧
          (c.succeeded request payload db).isSome = true ∨
        (c.restoreNested request payload db).1.status = .error ∧
          (c.restoreNested request payload db).1.created = [] ∧
          (c.restoreNested request payload db).1.updated = [] ∧
          c.succeeded request payload db = none) := by
  unfold restoreNested succeeded
  cases outcome : c.restore request payload db with
  | raised after =>
    refine ⟨?_, rfl, .inr ⟨rfl, rfl, rfl, rfl⟩⟩
    dsimp only
    rw [if_neg (by simp [real])]
    rfl
  | returned result after =>
    obtain ⟨own, ends⟩ := c.reports request payload db result after outcome
    dsimp only
    by_cases error : result.status = .error
    · rw [if_pos ⟨real, error⟩, if_pos error]
      exact ⟨rfl, own, .inr ⟨error, rfl, rfl, rfl⟩⟩
    · rw [if_neg fun both => error both.2, if_neg error]
      exact ⟨rfl, own, .inl ⟨(ends real).resolve_right error, rfl⟩⟩

end Contributor

/-- What a report says of one contributor, where `applied` says whether it was restored. -/
structure Told (archive : BackupArchive) (selection : Option (List String)) (cid : String) (applied : Prop)
    (r : RestoreResult) : Prop where
  own : r.contributorId = cid
  skipped : r.status = .skipped ↔ ¬ Selects selection cid
  errors : r.status = .error → r.created = [] ∧ r.updated = []
  failed : r.failed = true ↔ Selects selection cid ∧ cid ∈ archive.manifest.map (·.id) ∧ ¬ applied

theorem Told.congr {applied applied' : Prop} (told : Told archive selection cid applied result)
    (same : applied ↔ applied') : Told archive selection cid applied' result :=
  propext same ▸ told

theorem restoreNested_told {payload : ContributorPayload} (real : request.dryRun = false)
    (selects : Selects selection c.contributorId) (there : c.contributorId ∈ archive.manifest.map (·.id)) :
    Told archive selection c.contributorId ((c.succeeded request payload db).isSome = true)
      (c.restoreNested request payload db).1 := by
  obtain ⟨-, own, ends⟩ := c.restoreNested_spec real payload db
  rcases ends with ⟨ok, some_⟩ | ⟨error, created, updated, none_⟩
  · exact {
      own := own
      skipped := by simp [ok, selects]
      errors := by simp [ok]
      failed := by simp [RestoreResult.failed, ok, some_] }
  · exact {
      own := own
      skipped := by simp [error, selects]
      errors := fun _ => ⟨created, updated⟩
      failed := by simp [RestoreResult.failed, error, none_, selects, there] }

namespace Contributor

/-- The turn of a contributor whose versions are read. -/
theorem visit_spec (real : request.dryRun = false) (listed : selection ≠ some [])
    (versions : Selects selection c.contributorId → ∀ entry, archive.entry c.contributorId = some entry →
      (parseVersion entry.schemaVersion).isSome ∧ (parseVersion c.schemaVersion).isSome) (db : δ) :
    ∃ result, c.visit archive request selection db =
        .ok (result, (c.restored archive request selection db).getD db) ∧
      Told archive selection c.contributorId ((c.restored archive request selection db).isSome = true)
        result := by
  unfold visit restored
  by_cases selects : Selects selection c.contributorId
  · rw [if_pos selects, if_neg (by simp [(isSelected_iff listed).mpr selects])]
    cases found : archive.entry c.contributorId with
    | none =>
      refine ⟨_, rfl, rfl, by simp [selects], by simp, ?_⟩
      have absent : c.contributorId ∉ archive.manifest.map (·.id) := by
        intro mem
        obtain ⟨entry, here, same⟩ := List.mem_map.mp mem
        obtain ⟨entry', found'⟩ := entry_isSome here
        rw [same, found] at found'
        cases found'
      simp [RestoreResult.failed, absent]
    | some entry =>
      obtain ⟨here, same⟩ := entry_some found
      have there : c.contributorId ∈ archive.manifest.map (·.id) := List.mem_map.mpr ⟨entry, here, same⟩
      obtain ⟨first, second⟩ := versions selects entry found
      obtain ⟨compatible, text, mismatch⟩ := isCompatible_eq first second
      dsimp only
      rw [ok_bind compatible, Option.bind_some]
      unfold accepted
      cases sameMajor entry.schemaVersion c.schemaVersion with
      | true =>
        refine ⟨_, ?_, restoreNested_told real selects there⟩
        simp only [if_true, Option.bind_some]
        rw [← (c.restoreNested_spec real _ db).1]
      | false =>
        simp only [Bool.false_eq_true, if_false]
        cases c.migrated entry.schemaVersion (archive.payload entry) with
        | some payload =>
          refine ⟨_, ?_, restoreNested_told real selects there⟩
          simp only [Option.bind_some]
          rw [← (c.restoreNested_spec real _ db).1]
        | none =>
          refine ⟨_, ok_bind mismatch, rfl, by simp [selects], by simp, ?_⟩
          simp [RestoreResult.failed, selects, there]
  · have unselected : isSelected selection c.contributorId = false := by
      by_contra some_
      exact selects ((isSelected_iff listed).mp (by simpa using some_))
    rw [if_neg selects, if_pos unselected]
    exact ⟨_, rfl, rfl, by simp [selects], by simp, by simp [RestoreResult.failed, selects]⟩

end Contributor

/-! ### All contributors -/

variable {order cs : List (Contributor δ)} {registry : Registry (Contributor δ)}

theorem restoreSections_cons (c : Contributor δ) (cs : List (Contributor δ)) (db : δ) :
    restoreSections archive request selection (c :: cs) db =
      ((if (c.restored archive request selection db).isSome then [c.contributorId] else []) ++
        (restoreSections archive request selection cs ((c.restored archive request selection db).getD db)).1,
      (restoreSections archive request selection cs
        ((c.restored archive request selection db).getD db)).2) := by
  rw [restoreSections]
  cases c.restored archive request selection db <;> rfl

theorem restoreSections_sub : ∀ cid ∈ (restoreSections archive request selection cs db).1,
    cid ∈ cs.map Contributor.contributorId := by
  induction cs generalizing db with
  | nil => simp [restoreSections]
  | cons c cs ih =>
    intro cid mem
    rw [restoreSections_cons] at mem
    rcases List.mem_append.mp mem with own | later
    · split at own
      · rw [List.mem_singleton.mp own]
        exact List.mem_cons_self
      · cases own
    · exact List.mem_cons_of_mem _ (ih cid later)

/-- The first loop tells of every contributor, and leaves the database behind the restored ones. -/
theorem visitAll_spec (real : request.dryRun = false) (listed : selection ≠ some [])
    (distinct : (cs.map Contributor.contributorId).Nodup)
    (versions : ∀ c ∈ cs, Selects selection c.contributorId → ∀ entry,
      archive.entry c.contributorId = some entry →
        (parseVersion entry.schemaVersion).isSome ∧ (parseVersion c.schemaVersion).isSome) (db : δ) :
    ∃ results, visitAll archive request selection cs db =
        ((restoreSections archive request selection cs db).2, .ok results) ∧
      results.map (·.contributorId) = cs.map Contributor.contributorId ∧
      ∀ r ∈ results, Told archive selection r.contributorId
        (r.contributorId ∈ (restoreSections archive request selection cs db).1) r := by
  induction cs generalizing db with
  | nil => exact ⟨[], rfl, rfl, by simp⟩
  | cons c cs ih =>
    obtain ⟨fresh, distinct⟩ := List.nodup_cons.mp distinct
    obtain ⟨result, visited, told⟩ :=
      c.visit_spec real listed (versions c List.mem_cons_self) db
    obtain ⟨results, rest, ids, tolds⟩ := ih distinct (fun c mem => versions c (List.mem_cons_of_mem _ mem))
      ((c.restored archive request selection db).getD db)
    refine ⟨result :: results, ?_, ?_, ?_⟩
    · rw [visitAll, visited, restoreSections_cons]
      dsimp only
      rw [rest]
      rfl
    · rw [List.map_cons, List.map_cons, told.own, ids]
    · intro r mem
      rw [restoreSections_cons, List.mem_append]
      rcases List.mem_cons.mp mem with rfl | later
      · rw [told.own]
        apply told.congr
        constructor
        · intro some_
          rw [if_pos some_]
          exact .inl List.mem_cons_self
        · rintro (own | later)
          · by_contra none_
            rw [if_neg none_] at own
            cases own
          · exact absurd (restoreSections_sub _ later) fresh
      · apply (tolds r later).congr
        refine (or_iff_right fun own => ?_).symm
        split at own
        · rw [← List.mem_singleton.mp own, ← ids] at fresh
          exact fresh (List.mem_map_of_mem later)
        · cases own

theorem unregistered_id (selection : Option (List String)) (entry : ContributorEntry) :
    (unregistered selection entry).contributorId = entry.id := by
  unfold unregistered
  split <;> rfl

theorem unregistered_told (listed : selection ≠ some []) (mem : entry ∈ archive.manifest) :
    Told archive selection entry.id False (unregistered selection entry) := by
  have there : entry.id ∈ archive.manifest.map (·.id) := List.mem_map_of_mem mem
  unfold unregistered
  by_cases selects : Selects selection entry.id
  · rw [if_neg (by simp [(isSelected_iff listed).mpr selects])]
    exact ⟨rfl, by simp [selects], by simp, by simp [RestoreResult.failed, selects, there]⟩
  · have unselected : isSelected selection entry.id = false := by
      by_contra some_
      exact selects ((isSelected_iff listed).mp (by simpa using some_))
    rw [if_pos unselected]
    exact ⟨rfl, by simp [selects], by simp, by simp [RestoreResult.failed, selects]⟩

/-- The report of a registry in order accounts for everything. -/
theorem report_accounted (listed : selection ≠ some []) (perm : order.Perm registry.contributors)
    (distinct : (archive.manifest.map (·.id)).Nodup) {results : List RestoreResult}
    (ids : results.map (·.contributorId) = order.map Contributor.contributorId)
    (tolds : ∀ r ∈ results, Told archive selection r.contributorId
      (r.contributorId ∈ (restoreSections archive request selection order db).1) r) :
    Accounted archive request selection registry order db (restoreSections archive request selection order db).2
      (restoreReport (results ++ (archive.manifest.filter fun entry =>
        entry.id ∉ order.map contributorId).map (unregistered selection))) := by
  have live : order.map contributorId = results.map (·.contributorId) := ids.symm
  have registered (cid : String) : cid ∈ results.map (·.contributorId) ↔ cid ∈ registry.ids := by
    rw [← live]
    exact (perm.map contributorId).mem_iff
  rw [live]
  generalize sectionsEq : archive.manifest.filter
    (fun entry => decide (entry.id ∉ results.map (·.contributorId))) = sections
  have mem_sections (entry : ContributorEntry) : entry ∈ sections ↔
      entry ∈ archive.manifest ∧ entry.id ∉ results.map (·.contributorId) := by
    rw [← sectionsEq, List.mem_filter, decide_eq_true_iff]
  have all : (results ++ sections.map (unregistered selection)).map (·.contributorId) =
      results.map (·.contributorId) ++ sections.map (·.id) := by
    rw [List.map_append, List.map_map]
    exact congrArg (_ ++ ·) (List.map_congr_left fun entry _ => unregistered_id selection entry)
  have each : ∀ r ∈ results ++ sections.map (unregistered selection),
      Told archive selection r.contributorId
        (r.contributorId ∈ (restoreSections archive request selection order db).1) r := by
    intro r mem
    rcases List.mem_append.mp mem with here | there
    · exact tolds r here
    · obtain ⟨entry, section_, rfl⟩ := List.mem_map.mp there
      obtain ⟨mem', unknown⟩ := (mem_sections entry).mp section_
      rw [unregistered_id]
      refine (unregistered_told listed mem').congr (iff_of_false id fun applied => unknown ?_)
      rw [ids]
      exact restoreSections_sub _ applied
  refine ⟨?_, ?_, rfl, fun r mem => (each r mem).skipped, fun r mem => (each r mem).errors, ?_⟩
  · change ((results ++ sections.map (unregistered selection)).map (·.contributorId)).Nodup
    rw [all, List.nodup_append]
    refine ⟨?_, ?_, ?_⟩
    · rw [← live]
      exact (perm.map contributorId).nodup_iff.mpr registry.distinct
    · rw [← sectionsEq]
      exact (List.filter_sublist.map _).nodup distinct
    · rintro a known b there rfl
      obtain ⟨entry, section_, rfl⟩ := List.mem_map.mp there
      exact ((mem_sections entry).mp section_).2 known
  · intro cid
    change cid ∈ (results ++ sections.map (unregistered selection)).map (·.contributorId) ↔ _
    rw [all, List.mem_append, ← registered]
    constructor
    · rintro (known | there)
      · exact .inl known
      · obtain ⟨entry, section_, rfl⟩ := List.mem_map.mp there
        exact .inr (List.mem_map_of_mem ((mem_sections entry).mp section_).1)
    · rintro (known | there)
      · exact .inl known
      · obtain ⟨entry, mem, rfl⟩ := List.mem_map.mp there
        by_cases known : entry.id ∈ results.map (·.contributorId)
        · exact .inl known
        · exact .inr (List.mem_map_of_mem ((mem_sections entry).mpr ⟨mem, known⟩))
  · change 0 < (results ++ sections.map (unregistered selection)).countP RestoreResult.failed ↔ _
    rw [List.countP_pos_iff]
    constructor
    · rintro ⟨r, mem, failed⟩
      obtain ⟨selects, there, missed⟩ := (each r mem).failed.mp failed
      obtain ⟨entry, mem', same⟩ := List.mem_map.mp there
      rw [← same] at selects missed
      exact ⟨entry, mem', selects, missed⟩
    · rintro ⟨entry, mem, selects, missed⟩
      have there : entry.id ∈ (results ++ sections.map (unregistered selection)).map (·.contributorId) := by
        rw [all, List.mem_append]
        by_cases known : entry.id ∈ results.map (·.contributorId)
        · exact .inl known
        · exact .inr (List.mem_map_of_mem ((mem_sections entry).mpr ⟨mem, known⟩))
      obtain ⟨r, here, same⟩ := List.mem_map.mp there
      refine ⟨r, here, (each r here).failed.mpr ?_⟩
      rw [same]
      exact ⟨selects, List.mem_map_of_mem mem, missed⟩

/-! ### What a restore that returns says of its archive -/

namespace Contributor

/-- A turn that does not raise has read the versions, and skips nobody who is selected. -/
theorem visit_ok (real : request.dryRun = false) (selected : isSelected selection c.contributorId = true)
    (visited : c.visit archive request selection db = .ok (result, after)) :
    (∀ entry, archive.entry c.contributorId = some entry →
      (parseVersion entry.schemaVersion).isSome ∧ (parseVersion c.schemaVersion).isSome) ∧
    result.status ≠ .skipped := by
  have nested (payload : ContributorPayload) :
      (c.restoreNested request payload db).1.status ≠ .skipped := by
    obtain ⟨-, -, ends⟩ := c.restoreNested_spec real payload db
    rcases ends with ⟨ok, -⟩ | ⟨error, -⟩
    · simp [ok]
    · simp [error]
  unfold visit at visited
  rw [if_neg (by simp [selected])] at visited
  cases found : archive.entry c.contributorId with
  | none =>
    rw [found] at visited
    obtain ⟨rfl, -⟩ := Prod.mk.inj (Except.ok.inj visited)
    exact ⟨fun entry here => (by cases here), by simp⟩
  | some entry =>
    rw [found] at visited
    obtain ⟨compatible, read, visited⟩ := bind_ok visited
    refine ⟨fun entry' here => ?_, ?_⟩
    · obtain rfl := Option.some.inj here
      exact isCompatible_ok read
    · cases compatible with
      | true =>
        have same : (c.restoreNested request (archive.payload entry) db).1 = result :=
          congrArg Prod.fst (Except.ok.inj visited)
        exact same ▸ nested _
      | false =>
        rw [if_neg (by simp)] at visited
        split at visited
        · rename_i payload migrated
          have same : (c.restoreNested request payload db).1 = result :=
            congrArg Prod.fst (Except.ok.inj visited)
          exact same ▸ nested _
        · obtain ⟨mismatch, -, visited⟩ := bind_ok visited
          obtain ⟨rfl, -⟩ := Prod.mk.inj (Except.ok.inj visited)
          simp

end Contributor

theorem visitAll_ok (real : request.dryRun = false) {results : List RestoreResult}
    (visited : (visitAll archive request selection cs db).2 = .ok results) :
    (∀ c ∈ cs, isSelected selection c.contributorId = true → ∀ entry,
      archive.entry c.contributorId = some entry →
        (parseVersion entry.schemaVersion).isSome ∧ (parseVersion c.schemaVersion).isSome) ∧
    ((∀ c ∈ cs, isSelected selection c.contributorId = true) → ∀ r ∈ results, r.status ≠ .skipped) := by
  induction cs generalizing db results with
  | nil =>
    obtain rfl := Except.ok.inj visited
    simp
  | cons c cs ih =>
    rw [visitAll] at visited
    cases turn : c.visit archive request selection db with
    | error e =>
      rw [turn] at visited
      cases visited
    | ok reached =>
      obtain ⟨result, next⟩ := reached
      rw [turn] at visited
      obtain ⟨rest, later, rfl⟩ := map_ok visited
      obtain ⟨versions, unskipped⟩ := ih later
      constructor
      · intro d mem selected
        rcases List.mem_cons.mp mem with rfl | behind
        · exact (d.visit_ok real selected turn).1
        · exact versions d behind selected
      · intro all r mem
        rcases List.mem_cons.mp mem with rfl | behind
        · exact (c.visit_ok real (all c List.mem_cons_self) turn).2
        · exact unskipped (fun d here => all d (List.mem_cons_of_mem _ here)) r behind

theorem dispatch_order (sorted_ : registry.topologicalOrder = .ok order) :
    dispatchRestore archive request selection registry db =
      ((visitAll archive request selection order db).1,
        (visitAll archive request selection order db).2.map fun results =>
          restoreReport (results ++ (archive.manifest.filter fun entry =>
            entry.id ∉ order.map contributorId).map (unregistered selection))) := by
  rw [dispatchRestore, sorted_]

theorem Regular.accounts (h : Regular archive selection registry) (real : request.dryRun = false)
    (distinct : (archive.manifest.map (·.id)).Nodup) (db : δ) :
    Accounts archive request selection registry db := by
  have sorted_ := registry.order_acyclic h.closed h.acyclic
  have perm := registry.ordered_perm (registry.long_of_acyclic h.closed h.acyclic)
  refine ⟨registry.ordered, ?_⟩
  rw [dispatch_order sorted_]
  by_cases listed : selection = some []
  · -- Nothing is registered and nothing is in the archive.
    obtain ⟨none_, nothing⟩ := h.someSelected listed
    rw [none_] at perm
    have ordered := List.Perm.eq_nil perm
    rw [ordered] at sorted_ ⊢
    rw [nothing]
    refine ⟨restoreReport [], sorted_, rfl, List.nodup_nil, ?_, rfl, by simp [restoreReport],
      by simp [restoreReport], by simp [restoreReport, nothing]⟩
    simp [restoreReport, nothing, Registry.ids, none_]
  · obtain ⟨results, visited, ids, tolds⟩ := visitAll_spec real listed
      ((perm.map contributorId).nodup_iff.mpr registry.distinct) (fun c mem selects entry found =>
        have here := entry_some found
        h.versions c (perm.mem_iff.mp mem) selects entry here.1 here.2) db
    rw [visited]
    exact ⟨_, sorted_, rfl, report_accounted listed perm distinct ids tolds⟩

theorem Accounts.regular (h : Accounts archive request selection registry db)
    (real : request.dryRun = false) (distinct : (archive.manifest.map (·.id)).Nodup) :
    Regular archive selection registry := by
  obtain ⟨order, report, sorted_, returned, accounted⟩ := h
  have closed : registry.Closed := by
    by_contra missing
    obtain ⟨cid, dep, -, raised⟩ := registry.order_unknown missing
    rw [raised] at sorted_
    cases sorted_
  have acyclic : ¬ Cyclic registry.depsOf := by
    intro cyclic
    rw [registry.order_cyclic closed cyclic] at sorted_
    cases sorted_
  have perm : order.Perm registry.contributors := by
    rw [registry.order_acyclic closed acyclic] at sorted_
    rw [← Except.ok.inj sorted_]
    exact registry.ordered_perm (registry.long_of_acyclic closed acyclic)
  rw [dispatch_order sorted_] at returned
  obtain ⟨results, visited, rfl⟩ := map_ok returned
  obtain ⟨versions, unskipped⟩ := visitAll_ok real visited
  have empty (none_ : selection = some []) : registry.contributors = [] ∧ archive.manifest = [] := by
    have all (cid : String) : isSelected selection cid = true := by rw [none_]; rfl
    have nothing : ∀ r ∈ results ++ (archive.manifest.filter fun entry =>
        entry.id ∉ order.map contributorId).map (unregistered selection), False := by
      intro r mem
      have skipped : r.status = .skipped := by
        apply (accounted.selected r mem).mpr
        rw [none_]
        exact List.not_mem_nil
      rcases List.mem_append.mp mem with here | there
      · exact unskipped (fun c _ => all _) r here skipped
      · obtain ⟨entry, -, rfl⟩ := List.mem_map.mp there
        rw [unregistered, if_neg (by simp [all])] at skipped
        cases skipped
    have noIds (cid : String) (known : cid ∈ registry.ids ∨ cid ∈ archive.manifest.map (·.id)) : False := by
      obtain ⟨r, mem, -⟩ := List.mem_map.mp ((accounted.all cid).mpr known)
      exact nothing r mem
    constructor
    · apply List.eq_nil_iff_forall_not_mem.mpr
      exact fun c mem => noIds c.contributorId (.inl (List.mem_map_of_mem mem))
    · apply List.eq_nil_iff_forall_not_mem.mpr
      exact fun entry mem => noIds entry.id (.inr (List.mem_map_of_mem mem))
  refine ⟨closed, acyclic, ?_, empty⟩
  intro c mem selects entry mem' same
  by_cases none_ : selection = some []
  · rw [(empty none_).1] at mem
    cases mem
  · have found := entry_eq distinct mem'
    rw [same] at found
    exact versions c (perm.mem_iff.mpr mem) ((isSelected_iff none_).mpr selects) entry found

/-- A restore accounts for everything exactly where the registry is in order, the versions are read, and
an empty selection has nothing to select from. -/
theorem dispatchRestore_accounts (archive : BackupArchive) (organizationId : Nat)
    (options : List (String × Json)) (selection : Option (List String))
    (registry : Registry (Contributor δ)) (db : δ) (distinct : (archive.manifest.map (·.id)).Nodup) :
    Accounts archive ⟨organizationId, false, options⟩ selection registry db ↔
      Regular archive selection registry :=
  ⟨fun h => h.regular rfl distinct, fun h => h.accounts rfl distinct db⟩

/-! ### Two contributors -/

/-- A contributor that counts the restores. -/
def counting (contributorId : String) (dependsOn : List String) : Contributor Nat where
  contributorId := contributorId
  schemaVersion := "1.0.0"
  dependsOn := dependsOn
  restore := fun _ _ db => .returned { contributorId := contributorId, status := .ok } (db + 1)
  migrateFrom := none
  reports := fun _ _ _ _ _ same => by
    cases same
    exact ⟨rfl, fun _ => .inl rfl⟩

/-- The gateway depends on the core, and is registered before it. -/
def twoContributors : Registry (Contributor Nat) :=
  ⟨[counting "gateway" ["core"], counting "core" []], by decide⟩

/-- An archive with the sections of both. -/
def twoSections (version : String) : BackupArchive :=
  ⟨[⟨"core", version, [], []⟩, ⟨"gateway", "1.0.0", [], []⟩], [("core", []), ("gateway", [])]⟩

theorem twoContributors_acyclic : ¬ Cyclic twoContributors.depsOf := by
  have ordered : Ordered twoContributors.depsOf ["core", "gateway"] := by
    refine (Ordered.nil.concat (x := "core") ?_).concat (x := "gateway") ?_
    · decide
    · decide
  refine ordered.acyclic (by decide) fun cid some_ => ?_
  exact (List.Perm.swap "core" "gateway" []).mem_iff.mp (twoContributors.mem_ids_of_deps cid some_)

/-- The selected sections are restored and reported. -/
theorem site_accounts :
    Accounts (twoSections "1.2.0") ⟨1, false, []⟩ (some ["gateway", "core"]) twoContributors 0 := by
  refine (dispatchRestore_accounts (twoSections "1.2.0") 1 [] (some ["gateway", "core"]) twoContributors 0
    (by decide)).mpr ?_
  have sections : ∀ entry ∈ (twoSections "1.2.0").manifest, (parseVersion entry.schemaVersion).isSome := by
    decide
  have supported : ∀ c ∈ twoContributors.contributors, (parseVersion c.schemaVersion).isSome := by decide
  have closed : ∀ c ∈ twoContributors.contributors, ∀ dep ∈ c.dependsOn, dep ∈ twoContributors.ids := by decide
  exact ⟨closed, twoContributors_acyclic, fun c mem _ entry here _ => ⟨sections entry here, supported c mem⟩,
    fun none_ => by cases none_⟩

/-- An empty selection restores what it does not list, and a malformed version leaves no report. -/
theorem empty_and_malformed :
    ¬ Accounts (twoSections "1.2.0") ⟨1, false, []⟩ (some []) twoContributors 0 ∧
      ¬ Accounts (twoSections "1.2") ⟨1, false, []⟩ none twoContributors 0 := by
  constructor
  · intro accounts
    have regular := accounts.regular rfl (by decide)
    exact absurd (regular.someSelected rfl).1 (List.cons_ne_nil _ _)
  · intro accounts
    have regular := accounts.regular rfl (by decide)
    have read := regular.versions (counting "core" []) (List.mem_cons_of_mem _ List.mem_cons_self) trivial _
      List.mem_cons_self rfl
    exact absurd read.1 (by decide)

end FreeSdn.Backup
