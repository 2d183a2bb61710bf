import FreeSdn.Backup.Tenancy
import FreeSdn.Backup.Core

/-! One record of a core restore: which columns a write can change, what a taken record has passed,
and which tables and accepted rows stay as they are. -/

namespace FreeSdn.Backup.Core

open FreeSdn.Lib

variable {c : Call} {kind k : Kind} {g : String} {record : Record} {row : Row} {pk id v : Value}
  {existing : Option Row} {t init : Tables} {s : Progress}

/-! ### Columns -/

/-- The columns that tie the resources together. -/
def links : List String := ["site_id", "credential_id", "controller_id"]

theorem links_free (link : g ∈ links) : g ∉ c.blocked := by
  simp only [links, List.mem_cons, List.not_mem_nil, or_false] at link
  rcases link with rfl | rfl | rfl <;> cases secrets : c.includeSecrets <;>
    simp [Call.blocked, secrets, credentialSecretFields, audit]

theorem id_blocked : "id" ∈ c.blocked := by
  cases secrets : c.includeSecrets <;> simp [Call.blocked, secrets]

theorem organization_blocked : "organization_id" ∈ c.blocked := by
  cases secrets : c.includeSecrets <;> simp [Call.blocked, secrets]

theorem deleted_blocked : "deleted_at" ∈ c.blocked := by
  cases secrets : c.includeSecrets <;> simp [Call.blocked, secrets]

theorem links_default (link : g ∈ links) : kind.model.default g = .none := by
  simp only [links, List.mem_cons, List.not_mem_nil, or_false] at link
  rcases link with rfl | rfl | rfl <;> cases kind <;> rfl

theorem find_writable : (writable c kind record).find g =
    if g ∈ kind.model.columns ∧ g ∉ c.blocked then record.find g else none := by
  have filtered := Record.find_filter record
    (fun g => g ∈ kind.model.columns && g ∉ c.blocked) g
  simpa [writable] using filtered

theorem find_profileOnly {fields : List String} : (profileOnly c kind fields record).find g =
    if kind = .user ∧ c.includeSecrets = false ∧ g ∉ fields then none else record.find g := by
  unfold profileOnly
  by_cases only : kind = .user ∧ c.includeSecrets = false
  · have filtered := Record.find_filter record (fun g => g ∈ fields) g
    by_cases kept : g ∈ fields
    · simpa [only, kept] using filtered
    · simpa [only, kept] using filtered
  · rw [if_neg (by simpa using only), if_neg fun h => only ⟨h.1, h.2.1⟩]

theorem find_setAll {fs : List (String × Value)} (other : ∀ m ∈ fs, m.1 ≠ g) :
    (record.setAll fs).find g = record.find g := by
  induction fs generalizing record with
  | nil => rfl
  | cons m fs ih =>
    show ((record.set m.1 m.2).setAll fs).find g = record.find g
    rw [ih fun n mem => other n (List.mem_cons_of_mem m mem), Record.find_set,
      if_neg (other m List.mem_cons_self).symm]

theorem updatedRow_blocked (fixed : g ∈ c.blocked) :
    (updatedRow c kind row record).column g = row.column g := by
  simp [updatedRow, overwriteRow, find_profileOnly, find_writable, fixed]

/-- Apart from accounts a write sets every column that the record has and may set. -/
theorem updatedRow_column (user : kind ≠ .user) (column : g ∈ kind.model.columns)
    (free : g ∉ c.blocked) :
    (updatedRow c kind row record).column g = (record.find g).getD (row.column g) := by
  simp [updatedRow, overwriteRow, find_profileOnly, find_writable, user, column, free]

/-- The links of a user are no columns, so that they survive the choice of a profile. -/
theorem updatedRow_links (link : g ∈ links) : (updatedRow c kind row record).column g =
    (overwriteRow row (writable c kind record)).column g := by
  simp only [updatedRow, overwriteRow, find_profileOnly]
  by_cases only : kind = .user ∧ c.includeSecrets = false ∧ g ∉ userProfileFields
  · have foreign : g ∉ Kind.user.model.columns := by
      simp only [links, List.mem_cons, List.not_mem_nil, or_false] at link
      rcases link with rfl | rfl | rfl <;> decide
    rw [if_pos only, only.1, find_writable, if_neg fun h => foreign h.1]
  · rw [if_neg only]

theorem acceptedRow_links (dryRun : Bool) (link : g ∈ links) :
    (acceptedRow c dryRun kind pk existing record).column g =
      (virtualRow c kind pk existing record).column g := by
  cases existing with
  | none => rfl
  | some row =>
    cases dryRun with
    | true => rfl
    | false =>
      by_cases replaces : c.overwriteExisting = true
      · simp only [acceptedRow, virtualRow, replaces, if_true]
        exact updatedRow_links link
      · simp [acceptedRow, virtualRow, replaces]

/-- A link of the row that is kept aside is the effective value of the record. -/
theorem virtualRow_value (link : g ∈ links) (column : g ∈ kind.model.columns) :
    (virtualRow c kind pk existing record).column g = value c existing record g := by
  have written : (writable c kind record).find g = record.find g := by
    rw [find_writable, if_pos ⟨column, links_free link⟩]
  cases existing with
  | none =>
    have named : g ≠ "id" ∧ g ≠ "organization_id" := by
      simp only [links, List.mem_cons, List.not_mem_nil, or_false] at link
      rcases link with rfl | rfl | rfl <;> decide
    simp [virtualRow, rowOf, value, written, named, Record.get]
  | some row =>
    by_cases replaces : c.overwriteExisting = true
    · simp [virtualRow, value, replaces, overwriteRow, written]
    · simp [virtualRow, value, replaces]

theorem find_insertedFields (other : ∀ m ∈ disabledAccount, m.1 ≠ g) :
    (insertedFields c kind record).find g =
      (profileOnly c kind userCreateFields (writable c kind record)).find g := by
  unfold insertedFields
  dsimp only
  split
  · exact find_setAll other
  · rfl

theorem insertedRow_column (user : kind ≠ .user) (column : g ∈ kind.model.columns)
    (free : g ∉ c.blocked) : (insertedRow c kind pk record).column g =
      (record.find g).getD (kind.model.default g) := by
  have id : g ≠ "id" := fun same => free (same ▸ id_blocked)
  have org : g ≠ "organization_id" := fun same => free (same ▸ organization_blocked)
  simp [insertedRow, rowOf, insertedFields, find_profileOnly, find_writable, user, column, free, id, org]

theorem insertedRow_links (link : g ∈ links) : (insertedRow c kind pk record).column g =
    (virtualRow c kind pk none record).column g := by
  have other : ∀ m ∈ disabledAccount, m.1 ≠ g := by
    simp only [links, List.mem_cons, List.not_mem_nil, or_false] at link
    rcases link with rfl | rfl | rfl <;> decide
  have foreign : g ∉ Kind.user.model.columns := by
    simp only [links, List.mem_cons, List.not_mem_nil, or_false] at link
    rcases link with rfl | rfl | rfl <;> decide
  have same : (insertedFields c kind record).find g = (writable c kind record).find g := by
    rw [find_insertedFields other, find_profileOnly]
    by_cases only : kind = .user ∧ c.includeSecrets = false ∧ g ∉ userCreateFields
    · rw [if_pos only, only.1, find_writable, if_neg fun h => foreign h.1]
    · rw [if_neg only]
  simp [insertedRow, virtualRow, rowOf, same, links_default link]

@[simp] theorem rowOf_id {fields : Record} {default : String → Value} :
    (rowOf c kind pk fields default).column "id" = pk := rfl

theorem insertedRow_organization (column : "organization_id" ∈ kind.model.columns) :
    (insertedRow c kind pk record).column "organization_id" = .uuid c.org := by
  simp [insertedRow, rowOf, column]

theorem insertedRow_deleted : (insertedRow c kind pk record).column "deleted_at" = .none := by
  have absent : (insertedFields c kind record).find "deleted_at" = none := by
    have dropped : (writable c kind record).find "deleted_at" = none := by
      rw [find_writable, if_neg fun h => h.2 deleted_blocked]
    rw [find_insertedFields (by decide), find_profileOnly, dropped, ite_self]
  have default : kind.model.default "deleted_at" = .none := by cases kind <;> rfl
  simp [insertedRow, rowOf, absent, default]

/-! ### What a taken record has passed -/

theorem find_given (given : record.get g ≠ .none) : record.find g = some (record.get g) := by
  unfold Record.get at given ⊢
  cases found : record.find g with
  | none => simp [found] at given
  | some v => rfl

theorem truthy_some (h : truthy v = true) : v ≠ .none := by
  rintro rfl
  cases h

/-- A field of a record that was read: its member of the archive, with an identifier read. -/
theorem find_readFields {py : Python} {m : Model} {members : Dict} {fields : List (String × Value)}
    (h : readFields py m members = some fields) :
    match members.lookup g with
    | none => (Record.mk fields).find g = none
    | some v => ∃ w, readField py m g v = some w ∧ (Record.mk fields).find g = some w := by
  induction members generalizing fields with
  | nil =>
    obtain rfl := Option.some.inj h
    rfl
  | cons m' members ih =>
    obtain ⟨name, v⟩ := m'
    unfold readFields at h
    obtain ⟨w, one, h⟩ := Option.bind_eq_some_iff.mp h
    obtain ⟨rest, others, h⟩ := Option.bind_eq_some_iff.mp h
    obtain rfl := Option.some.inj h
    rw [List.lookup_cons]
    by_cases here : g = name
    · subst here
      rw [beq_self_eq_true]
      exact ⟨w, one, by simp [Record.find]⟩
    · rw [beq_eq_false_iff_ne.mpr here]
      have skip : (Record.mk ((name, w) :: rest)).find g = (Record.mk rest).find g := by
        simp [Record.find, Ne.symm here]
      rw [skip]
      exact ih others

theorem examineRecord_record {portable portable' : Dict} {archived : Record}
    (h : examineRecord c portable' archived = .record portable pk record) :
    portable' = portable ∧ archived = record ∧ record.get "id" = pk ∧ pk ≠ .none := by
  unfold examineRecord at h
  dsimp only at h
  split at h
  · cases h
  split at h
  · cases h
  rename_i named
  obtain ⟨rfl, rfl, rfl⟩ := Reading.record.inj h
  exact ⟨rfl, rfl, rfl, truthy_some (by simpa using named)⟩

/-- A record that is read: its members, with identifiers read and secrets encrypted. -/
theorem examine_record {archived : Json} {portable : Dict}
    (h : examine c kind archived = .ok (.record portable pk record)) :
    ∃ fields, c.dict archived = some portable ∧
      readFields c.py kind.model portable = some fields ∧ sealRecord c kind ⟨fields⟩ = record ∧
      record.get "id" = pk ∧ pk ≠ .none := by
  unfold examine at h
  split at h
  · simp at h
  split at h
  · simp at h
  rename_i members dict
  split at h
  · simp at h
  rename_i fields read
  obtain ⟨rfl, rfl, named, given⟩ := examineRecord_record (Except.ok.inj h)
  exact ⟨fields, dict, read, rfl, named, given⟩

/-- The checks behind a record that is taken. -/
structure Taken (c : Call) (s : Progress) (grants : List Dict) (kind : Kind) (portable : Dict)
    (pk : Value) (archived : Record) (existing : Option Row) (secured record : Record) : Prop where
  stored : ∀ row, load s.tables kind pk = some row → owned c s.tables kind row = true
  refs : refsValid c s kind (load s.tables kind pk) archived = true
  counterpart : existing = counterpart s.tables kind (load s.tables kind pk) archived
  free : ∀ row, existing = some row → owned c s.tables kind row = true
  passed : secureRecord c s.tables grants kind pk existing portable archived = .ok secured
  renewed : freshSession c kind existing secured = .ok record

variable {grants : List Dict} {portable : Dict} {archived secured : Record}

theorem any_not_owned (h : ¬ (existing.any fun row => !owned c t kind row) = true) :
    ∀ row, existing = some row → owned c t kind row = true := by
  rintro row rfl
  simpa using h

theorem judge_taken
    (h : judge c s grants kind portable pk archived = .ok (.taken existing secured record)) :
    Taken c s grants kind portable pk archived existing secured record := by
  unfold judge at h
  dsimp only at h
  split at h
  · split at h <;> simp at h
  rename_i stored
  split at h
  · split at h <;> simp at h
  rename_i refs
  unfold resolve at h
  split at h
  · simp at h
  dsimp only at h
  split at h
  · simp at h
  rename_i free
  obtain ⟨secured', passed, h⟩ := bind_ok h
  obtain ⟨record', renewed, h⟩ := bind_ok h
  obtain ⟨rfl, rfl, rfl⟩ := Fate.taken.inj (Except.ok.inj h)
  exact ⟨any_not_owned stored, by simpa using refs, rfl, any_not_owned free, passed, renewed⟩

/-- Apart from accounts a record is written as it was archived. -/
theorem Taken.plain (h : Taken c s grants kind portable pk archived existing secured record)
    (user : kind ≠ .user) (provider : kind ≠ .ssoProvider) : secured = archived ∧ record = archived := by
  have same : secured = archived := by
    have passed := h.passed
    unfold secureRecord at passed
    split at passed
    · exact absurd rfl provider
    · exact absurd rfl user
    · exact (Except.ok.inj passed).symm
  have kept := h.renewed
  subst same
  unfold freshSession at kept
  split at kept
  · rw [if_neg (by simp [user])] at kept
    exact ⟨rfl, (Except.ok.inj kept).symm⟩
  · exact ⟨rfl, (Except.ok.inj kept).symm⟩

/-- Apart from grants the counterpart of a record is the row with its identifier. -/
theorem Taken.existing_eq (h : Taken c s grants kind portable pk archived existing secured record)
    (grant : kind ≠ .userSiteAccess) : existing = load s.tables kind pk := by
  rw [h.counterpart, Core.counterpart, if_neg grant]

/-- What happens to the progress in one record. -/
theorem restoreOne_progress {dryRun : Bool} {p p' : Pass} {json : Json}
    (h : restoreOne c dryRun grants kind p json = .ok p') :
    p'.progress = p.progress ∨
      ∃ portable pk archived existing secured record,
        examine c kind json = .ok (.record portable pk archived) ∧ pk ∉ p.seen ∧
        Taken c p.progress grants kind portable pk archived existing secured record ∧
        p'.progress = p.progress.take c dryRun kind pk existing secured record := by
  unfold restoreOne at h
  obtain ⟨reading, read, h⟩ := bind_ok h
  cases reading with
  | skipped rejected =>
    obtain rfl := Except.ok.inj h
    exact .inl rfl
  | record portable pk archived =>
    obtain ⟨new, h⟩ := require_bind h
    obtain ⟨fate, judged, h⟩ := bind_ok h
    cases fate with
    | skipped rejected =>
      obtain rfl := Except.ok.inj h
      exact .inl rfl
    | taken existing secured record =>
      obtain ⟨-, h⟩ := require_bind h
      obtain rfl := Except.ok.inj h
      exact .inr ⟨portable, pk, archived, existing, secured, record, read, by simpa using new,
        judge_taken judged, rfl⟩

/-! ### The tables behind a write -/

@[simp] theorem put_same {rows : List Row} : t.put kind rows kind = rows := by simp [Tables.put]

theorem put_other {rows : List Row} (other : k ≠ kind) : t.put kind rows k = t k := by
  simp [Tables.put, other]

/-- The tables of access that an account restore takes back. -/
def Kind.access : Kind → Bool
  | .userSession => true
  | .apiKey => true
  | _ => false

theorem revoke_other (other : k.access = false) : revoke t v k = t k := by
  unfold revoke
  rw [put_other (by rintro rfl; cases other), put_other (by rintro rfl; cases other)]

theorem written_other (other : k ≠ kind) (access : k.access = false) :
    written c t kind pk existing record k = t k := by
  unfold written
  split
  · split
    · dsimp only
      split
      · rw [revoke_other access, put_other other]
      · exact put_other other
    · rfl
  · exact put_other other

theorem written_update (access : kind.access = false) :
    written c t kind pk (some row) record kind =
      if c.overwriteExisting then
        Table.update (t kind) (row.column "id") fun _ => updatedRow c kind row record
      else t kind := by
  unfold written
  dsimp only
  split
  · split
    · rw [revoke_other access, put_same]
    · exact put_same
  · rfl

theorem written_insert :
    written c t kind pk none record kind = t kind ++ [insertedRow c kind pk record] := by
  unfold written
  exact put_same

theorem updatedRow_id : (updatedRow c kind row record).column "id" = row.column "id" :=
  updatedRow_blocked id_blocked

/-- The rows of the restored resource after a write. -/
theorem mem_written (access : kind.access = false) (unique : Table.Unique (t kind))
    (stored : ∀ row, existing = some row → row ∈ t kind) {r : Row} :
    r ∈ written c t kind pk existing record kind ↔
      r = writtenRow c kind pk existing record ∨
        (r ∈ t kind ∧ ∀ row, existing = some row → r.column "id" ≠ row.column "id") := by
  cases existing with
  | none =>
    rw [written_insert]
    simp [writtenRow, or_comm]
  | some row =>
    rw [written_update access]
    have here : Table.lookup (t kind) (row.column "id") = some row := unique.lookup (stored row rfl)
    by_cases replaces : c.overwriteExisting = true
    · rw [if_pos replaces, unique.mem_update here]
      simp [writtenRow, replaces]
    · rw [if_neg replaces]
      simp only [writtenRow, replaces, Bool.false_eq_true, if_false, Option.some.injEq, forall_eq']
      constructor
      · intro mem
        by_cases same : r.column "id" = row.column "id"
        · exact .inl (unique.eq mem (stored row rfl) same)
        · exact .inr ⟨mem, same⟩
      · rintro (rfl | ⟨mem, -⟩)
        · exact stored r rfl
        · exact mem

theorem revoke_unique (unique : ∀ k, Table.Unique (t k)) : ∀ k, Table.Unique (revoke t v k) := by
  intro k
  unfold revoke Tables.put
  split
  · refine (unique .userSession).map fun r _ => ?_
    show Row.column _ "id" = r.column "id"
    split <;> simp
  split
  · refine (unique .apiKey).map fun r _ => ?_
    show Row.column _ "id" = r.column "id"
    split <;> simp
  · exact unique k

theorem put_unique {rows : List Row} (unique : ∀ k, Table.Unique (t k)) (new : Table.Unique rows) :
    ∀ k, Table.Unique (t.put kind rows k) := by
  intro k
  unfold Tables.put
  split
  · exact new
  · exact unique k

theorem written_unique (unique : ∀ k, Table.Unique (t k))
    (fresh : existing = none → ∀ r ∈ t kind, r.column "id" ≠ pk) :
    ∀ k, Table.Unique (written c t kind pk existing record k) := by
  cases existing with
  | none =>
    refine put_unique unique ((unique kind).append fun r mem => ?_)
    exact fresh rfl r mem
  | some row =>
    unfold written
    dsimp only
    split
    · have changed : ∀ k, Table.Unique (t.put kind (Table.update (t kind) (row.column "id")
          fun _ => updatedRow c kind row record) k) := by
        refine put_unique unique ((unique kind).map ?_)
        refine Table.update_keeps fun r _ here => ?_
        exact updatedRow_id
      split
      · exact revoke_unique changed
      · exact changed
    · exact unique

theorem writtenRow_id (stored : ∀ row, existing = some row → row.column "id" = pk) :
    (writtenRow c kind pk existing record).column "id" = pk := by
  cases existing with
  | none => rfl
  | some row =>
    simp only [writtenRow]
    split
    · rw [updatedRow_id, stored row rfl]
    · exact stored row rfl

/-- A lookup after a write finds the written row, or what was there. -/
theorem lookup_written (access : kind.access = false) (unique : ∀ k, Table.Unique (t k))
    (stored : existing = Table.lookup (t kind) pk) :
    Table.lookup (written c t kind pk existing record kind) id =
      if id = pk then some (writtenRow c kind pk existing record)
      else Table.lookup (t kind) id := by
  have named : ∀ row, existing = some row → row ∈ t kind ∧ row.column "id" = pk := by
    intro row here
    rw [stored] at here
    exact ⟨Table.lookup_mem here, Table.lookup_key here⟩
  have fresh : existing = none → ∀ r ∈ t kind, r.column "id" ≠ pk := by
    intro none
    rw [stored] at none
    exact Table.lookup_none.mp none
  have after : Table.Unique (written c t kind pk existing record kind) :=
    written_unique unique fresh kind
  have rows {r : Row} : r ∈ written c t kind pk existing record kind ↔ _ :=
    mem_written access (unique kind) fun row here => (named row here).1
  by_cases here : id = pk
  · subst here
    rw [if_pos rfl]
    have key : (writtenRow c kind id existing record).column "id" = id :=
      writtenRow_id fun row h => (named row h).2
    have found := after.lookup (rows.mpr (.inl rfl))
    rwa [key_row, key] at found
  · rw [if_neg here]
    cases old : Table.lookup (t kind) id with
    | some r =>
      have mem : r ∈ written c t kind pk existing record kind := by
        refine rows.mpr (.inr ⟨Table.lookup_mem old, fun row known => ?_⟩)
        rw [(named row known).2]
        exact fun same => here ((Table.lookup_key old).symm.trans same)
      have found := after.lookup mem
      rwa [Table.lookup_key old] at found
    | none =>
      refine Table.lookup_none.mpr fun r mem => ?_
      rcases rows.mp mem with rfl | ⟨mem, -⟩
      · show Row.column _ "id" ≠ id
        rw [writtenRow_id fun row h => (named row h).2]
        exact Ne.symm here
      · exact Table.lookup_none.mp old r mem

/-! ### The loops -/

theorem take_accepted {dryRun : Bool} :
    (s.take c dryRun kind pk existing secured record).accepted k id =
      if k = kind ∧ id = pk then some (acceptedRow c dryRun kind pk existing record)
      else s.accepted k id := rfl

/-- Only the accepted resource has a new row aside. -/
theorem take_accepted_other {dryRun : Bool} (other : k ≠ kind) :
    (s.take c dryRun kind pk existing secured record).accepted k id = s.accepted k id := by
  rw [take_accepted, if_neg fun h => other h.1]

/-- Only seen identifiers are accepted. -/
def SeenFirst (kind : Kind) (p : Pass) : Prop :=
  ∀ id row, p.progress.accepted kind id = some row → id ∈ p.seen

theorem restoreOne_seen {dryRun : Bool} {p p' : Pass} {json : Json}
    (h : restoreOne c dryRun grants kind p json = .ok p') (seen : SeenFirst kind p) :
    SeenFirst kind p' := by
  unfold restoreOne at h
  obtain ⟨reading, read, h⟩ := bind_ok h
  cases reading with
  | skipped rejected =>
    obtain rfl := Except.ok.inj h
    exact seen
  | record portable pk archived =>
    obtain ⟨new, h⟩ := require_bind h
    obtain ⟨fate, judged, h⟩ := bind_ok h
    cases fate with
    | skipped rejected =>
      obtain rfl := Except.ok.inj h
      exact fun id row noted => List.mem_append_left _ (seen id row noted)
    | taken existing secured record =>
      obtain ⟨-, h⟩ := require_bind h
      obtain rfl := Except.ok.inj h
      intro id row noted
      show id ∈ p.seen ++ [pk]
      by_cases same : id = pk
      · exact List.mem_append_right _ (by simp [same])
      · refine List.mem_append_left _ (seen id row ?_)
        rw [← noted]
        exact (if_neg fun h => same h.2).symm

/-- What each taken record of a resource keeps, the loop over the resource keeps. -/
theorem restoreKind_inv {dryRun : Bool} {a : Archive} {s s' : Progress} {n : Counts}
    {P : Progress → Prop}
    (step : ∀ s json portable pk archived existing secured record, P s → s.accepted kind pk = none →
      examine c kind json = .ok (.record portable pk archived) →
      Taken c s a.grants kind portable pk archived existing secured record →
      P (s.take c dryRun kind pk existing secured record))
    (fresh : ∀ id, s.accepted kind id = none) (first : P s)
    (h : restoreKind c dryRun a s kind = .ok (s', n)) : P s' := by
  unfold restoreKind at h
  obtain ⟨records, -, h⟩ := bind_ok h
  obtain ⟨pass, run, h⟩ := bind_ok h
  obtain ⟨rfl, rfl⟩ := Prod.mk.inj (Except.ok.inj h)
  refine (foldlM_ok (P := fun p : Pass => P p.progress ∧ SeenFirst kind p) ?_
    ⟨first, fun id row noted => ?_⟩ run).1
  · rintro p json p' ⟨kept, seen⟩ one
    refine ⟨?_, restoreOne_seen one seen⟩
    rcases restoreOne_progress one with same | ⟨portable, pk, archived, existing, secured, record,
      read, new, taken, next⟩
    · rw [same]
      exact kept
    · rw [next]
      refine step _ _ _ _ _ _ _ _ kept ?_ read taken
      cases noted : p.progress.accepted kind pk with
      | none => rfl
      | some row => exact absurd (seen pk row noted) new
  · rw [fresh id] at noted
    cases noted

/-- The tables that a restore has records for. -/
def Kind.restored (k : Kind) : Bool := !k.access && k ≠ .siteGroup

/-- The resources that refer to one. -/
def consumers : Kind → List Kind
  | .site => [.credential, .controller, .device, .userSiteAccess]
  | .credential => [.controller, .device]
  | .controller => [.device]
  | .ssoProvider => [.user]
  | .user => [.userSiteAccess]
  | _ => []

/-- Dependencies come before their consumers. -/
def Ordered : List Kind → List Kind → Prop
  | _, [] => True
  | done, kind :: kinds => kind.restored = true ∧ kind ∉ done ∧
      (∀ child ∈ consumers kind, child ∉ kind :: done) ∧ Ordered (kind :: done) kinds

theorem restoreMap_ordered : Ordered [] (restoreMap c) := by
  unfold restoreMap
  cases c.restoreDevices <;> cases c.restoreUsers <;> cases c.securityRestore <;>
    simp [Ordered, consumers, Kind.restored, Kind.access]

/-- What each taken record keeps, the whole restore keeps. -/
theorem restoreKinds_inv {dryRun : Bool} {a : Archive} {P : List Kind → Progress → Prop}
    (enter : ∀ kind done s, P done s → P (kind :: done) s)
    (fresh : ∀ done s, P done s → ∀ k, k ∉ done → ∀ id, s.accepted k id = none)
    (step : ∀ kind done s json portable pk archived existing secured record,
      kind.restored = true → (∀ child ∈ consumers kind, child ∉ kind :: done) →
      P (kind :: done) s → s.accepted kind pk = none →
      examine c kind json = .ok (.record portable pk archived) →
      Taken c s a.grants kind portable pk archived existing secured record →
      P (kind :: done) (s.take c dryRun kind pk existing secured record))
    {kinds done : List Kind} {s s' : Progress} {counts : List (Kind × Counts)}
    (ordered : Ordered done kinds) (first : P done s)
    (h : restoreKinds c dryRun a s kinds = .ok (s', counts)) : P (kinds.reverse ++ done) s' := by
  induction kinds generalizing done s s' counts with
  | nil =>
    obtain ⟨rfl, -⟩ := Prod.mk.inj (Except.ok.inj h)
    exact first
  | cons kind kinds ih =>
    obtain ⟨restored, away, apart, rest⟩ := ordered
    unfold restoreKinds at h
    obtain ⟨⟨next, n⟩, one, h⟩ := bind_ok h
    obtain ⟨⟨last, ns⟩, others, h⟩ := bind_ok h
    obtain ⟨rfl, -⟩ := Prod.mk.inj (Except.ok.inj h)
    have entered := restoreKind_inv (P := P (kind :: done))
      (fun s json portable pk archived existing secured record kept new read taken =>
        step kind done s json portable pk archived existing secured record restored apart kept new
          read taken) (fresh done s first kind away) (enter kind done s first) one
    rw [List.reverse_cons, List.append_assoc]
    exact ih rest entered others

end FreeSdn.Backup.Core
