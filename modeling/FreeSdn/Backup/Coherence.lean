import FreeSdn.Backup.CoreSteps

/-! A core restore that returns: it changes only live rows of its organization, what it inserts
belongs there, and no controller or device is left with a credential or a controller of another
site. -/

namespace FreeSdn.Backup.Core

open FreeSdn.Lib

/-! ### Database states -/

/-- A state that the database can hold: primary keys are unique, identifier columns hold identifiers or
nothing, and the references of resources to sites and of grants, sessions and keys to accounts lead to
rows. -/
structure Database where
  tables : Tables
  unique : ∀ k, Table.Unique (tables k)
  typed : ∀ k, ∀ row ∈ tables k, ∀ g ∈ k.model.uuidFields,
    row.column g = .none ∨ ∃ id, row.column g = .uuid id
  sites : ∀ k, k = .controller ∨ k = .device ∨ k = .userSiteAccess →
    ∀ row ∈ tables k, (load tables .site (row.column "site_id")).isSome = true
  users : ∀ k, k = .userSiteAccess ∨ k = .userSession ∨ k = .apiKey →
    ∀ row ∈ tables k, (load tables .user (row.column "user_id")).isSome = true

def inOrganization (c : Call) (row : Row) : Bool := row.column "organization_id" = .uuid c.org

/-- The row is of the organization, live or not. -/
def belongs (c : Call) (t : Tables) : Kind → Row → Bool
  | .controller, row => (load t .site (row.column "site_id")).any (inOrganization c)
  | .device, row => (load t .site (row.column "site_id")).any (inOrganization c)
  | .userSiteAccess, row => (load t .site (row.column "site_id")).any (inOrganization c) &&
      (load t .user (row.column "user_id")).any (inOrganization c)
  | .userSession, row => (load t .user (row.column "user_id")).any (inOrganization c)
  | .apiKey, row => (load t .user (row.column "user_id")).any (inOrganization c)
  | _, row => inOrganization c row

/-- The row is in a live site of the organization. -/
def inLiveSite (c : Call) (t : Tables) (row : Row) : Bool :=
  (load t .site (row.column "site_id")).any (tenant c .site)

/-- The credential is organization-wide, or one of the site. -/
def suits (c : Call) (site : Value) (credential : Row) : Bool :=
  (credential.column "site_id" = .none && inOrganization c credential) ||
    credential.column "site_id" = site

/-- Controllers and devices of live sites use credentials that suit them, and devices are in the site
of their controller. -/
structure Coherent (c : Call) (t : Tables) : Prop where
  credentials : ∀ k, k = .controller ∨ k = .device → ∀ row ∈ t k, inLiveSite c t row = true →
    row.column "credential_id" = .none ∨
      (load t .credential (row.column "credential_id")).any (suits c (row.column "site_id")) = true
  controllers : ∀ row ∈ t .device, inLiveSite c t row = true → row.column "controller_id" = .none ∨
    (load t .controller (row.column "controller_id")).any
      (fun controller => controller.column "site_id" = row.column "site_id") = true

/-! ### Ownership while rows are written -/

/-- Tables whose rows are only ever found by their identifier. -/
def Kind.steady (k : Kind) : Bool := !k.access && k ≠ .userSiteAccess

/-- No row is lost, and none changes its owner. -/
def Keeps (t t' : Tables) : Prop :=
  ∀ k, k.steady = true → ∀ id row, Table.lookup (t k) id = some row →
    ∃ row', Table.lookup (t' k) id = some row' ∧
      row'.column "organization_id" = row.column "organization_id" ∧
      row'.column "deleted_at" = row.column "deleted_at"

variable {c : Call} {kind k : Kind} {record : Record} {row row' : Row} {pk id v : Value}
  {existing : Option Row} {t t' init : Tables} {s : Progress} {done : List Kind}
  {grants : List Dict} {portable : Dict} {archived secured : Record}

theorem Keeps.refl (t : Tables) : Keeps t t := fun _ _ _ row found => ⟨row, found, rfl, rfl⟩

theorem Keeps.trans {t'' : Tables} (first : Keeps t t') (second : Keeps t' t'') : Keeps t t'' := by
  intro k steady id row found
  obtain ⟨row', found', org, deleted⟩ := first k steady id row found
  obtain ⟨row'', found'', org', deleted'⟩ := second k steady id row' found'
  exact ⟨row'', found'', org'.trans org, deleted'.trans deleted⟩

/-- A check on the owner of a referenced row goes on to hold. -/
theorem Keeps.load_any (keeps : Keeps t t') (steady : k.steady = true) {p : Row → Bool}
    (same : ∀ row row' : Row, row'.column "organization_id" = row.column "organization_id" →
      row'.column "deleted_at" = row.column "deleted_at" → p row' = p row)
    (found : (load t k v).isSome = true) : (load t' k v).any p = (load t k v).any p := by
  unfold load at found ⊢
  split
  · rfl
  · rename_i given
    rw [if_neg given] at found
    obtain ⟨row, found⟩ := Option.isSome_iff_exists.mp found
    obtain ⟨row', found', org, deleted⟩ := keeps k steady v row found
    rw [found, found']
    exact same row row' org deleted

theorem tenant_same (org : row'.column "organization_id" = row.column "organization_id")
    (deleted : row'.column "deleted_at" = row.column "deleted_at") :
    tenant c k row' = tenant c k row := by
  unfold tenant Model.attr
  rw [org, deleted]

theorem inOrganization_same (org : row'.column "organization_id" = row.column "organization_id") :
    inOrganization c row' = inOrganization c row := by
  unfold inOrganization
  rw [org]

theorem any_isSome {p : Row → Bool} {o : Option Row} (h : o.any p = true) : o.isSome = true := by
  cases o with
  | none => cases h
  | some row => rfl

/-- A row that is owned stays so. -/
theorem Keeps.owned (keeps : Keeps t t') (h : owned c t k row = true) : owned c t' k row = true := by
  have site {v : Value} (h : (load t .site v).any (tenant c .site) = true) :
      (load t' .site v).any (tenant c .site) = true := by
    rw [keeps.load_any rfl (fun _ _ => tenant_same) (any_isSome h)]
    exact h
  have user {v : Value} (h : (load t .user v).any (tenant c .user) = true) :
      (load t' .user v).any (tenant c .user) = true := by
    rw [keeps.load_any rfl (fun _ _ => tenant_same) (any_isSome h)]
    exact h
  cases k with
  | controller | device =>
    simp only [Core.owned, Bool.and_eq_true] at h ⊢
    exact ⟨h.1, site h.2⟩
  | userSiteAccess =>
    simp only [Core.owned, Bool.and_eq_true] at h ⊢
    exact ⟨site h.1, user h.2⟩
  | _ => exact h

theorem Keeps.belongs (keeps : Keeps t t') (h : belongs c t k row = true) :
    belongs c t' k row = true := by
  have ref {k : Kind} {v : Value} (steady : k.steady = true)
      (h : (load t k v).any (inOrganization c) = true) :
      (load t' k v).any (inOrganization c) = true := by
    rw [keeps.load_any steady (fun _ _ org _ => inOrganization_same org) (any_isSome h)]
    exact h
  cases k with
  | controller | device => exact ref (k := .site) rfl h
  | userSession | apiKey => exact ref (k := .user) rfl h
  | userSiteAccess =>
    simp only [Core.belongs, Bool.and_eq_true] at h ⊢
    exact ⟨ref (k := .site) rfl h.1, ref (k := .user) rfl h.2⟩
  | _ => exact h

theorem tenant_inOrganization (column : "organization_id" ∈ k.model.columns)
    (h : tenant c k row = true) : inOrganization c row = true := by
  simp only [tenant, Bool.and_eq_true, Model.attr, if_pos column] at h
  exact h.2

theorem any_inOrganization (column : "organization_id" ∈ k.model.columns) {o : Option Row}
    (h : o.any (tenant c k) = true) : o.any (inOrganization c) = true := by
  cases o with
  | none => cases h
  | some row => exact tenant_inOrganization column h

theorem owned_belongs (steady : k.access = false) (h : owned c t k row = true) :
    belongs c t k row = true := by
  cases k with
  | controller | device =>
    simp only [owned, Bool.and_eq_true] at h
    exact any_inOrganization (by decide) h.2
  | userSiteAccess =>
    simp only [owned, belongs, Bool.and_eq_true] at h ⊢
    exact ⟨any_inOrganization (by decide) h.1, any_inOrganization (by decide) h.2⟩
  | userSession | apiKey => cases steady
  | _ => exact tenant_inOrganization (by decide) h

theorem owned_alive (h : owned c t k row = true) : k.model.attr row "deleted_at" = .none := by
  cases k with
  | controller | device =>
    simp only [owned, Bool.and_eq_true, decide_eq_true_eq] at h
    rw [Model.attr, if_pos (by decide)]
    exact h.1
  | userSiteAccess => rfl
  | _ =>
    simp only [owned, tenant, Bool.and_eq_true, decide_eq_true_eq] at h
    exact h.1

/-! ### The loop of a real restore -/

/-- The loop has gone through records of the resources in `done`, from the tables `init`. -/
structure Ran (c : Call) (init : Tables) (done : List Kind) (s : Progress) : Prop where
  unique : ∀ k, Table.Unique (s.tables k)
  untouched : ∀ k, k ∉ done → k.access = false → s.tables k = init k
  fresh : ∀ k, k ∉ done → ∀ id, s.accepted k id = none
  /-- What was not accepted is as before. -/
  kept : ∀ k, k.steady = true → ∀ id, s.accepted k id = none →
    Table.lookup (s.tables k) id = Table.lookup (init k) id
  keeps : Keeps init s.tables
  /-- What was accepted is owned, and has the links that were noted. -/
  aside : ∀ k, k.steady = true → ∀ id row, s.accepted k id = some row →
    ∃ row', Table.lookup (s.tables k) id = some row' ∧ owned c s.tables k row' = true ∧
      ∀ g ∈ links, row'.column g = row.column g
  foreign : ∀ k, k.access = false → ∀ row ∈ init k, owned c init k row = false → row ∈ s.tables k
  sessions : ∀ k, k.access = true → ∀ row ∈ init k, belongs c init k row = false → row ∈ s.tables k
  inserted : ∀ k, ∀ row ∈ s.tables k, (∀ r ∈ init k, r.column "id" ≠ row.column "id") →
    belongs c s.tables k row = true

theorem Ran.start (db : Database) : Ran c db.tables [] (start db.tables) where
  unique := db.unique
  untouched _ _ _ := rfl
  fresh _ _ _ := rfl
  kept _ _ _ _ := rfl
  keeps := .refl _
  aside _ _ _ _ h := by cases h
  foreign _ _ _ mem _ := mem
  sessions _ _ _ mem _ := mem
  inserted _ row mem new := absurd rfl (new row mem)

theorem load_lookup (given : v ≠ .none) : load t k v = Table.lookup (t k) v := if_neg given

theorem load_mem (found : load t k v = some row) : row ∈ t k ∧ row.column "id" = v := by
  unfold load at found
  split at found
  · cases found
  · exact ⟨Table.lookup_mem found, Table.lookup_key found⟩

/-- A valid reference leads to an owned row with the links that the check saw. -/
theorem Ran.reference (ran : Ran c init done s) (steady : k.steady = true)
    (found : reference c s k v = some row) :
    ∃ row', load s.tables k v = some row' ∧ owned c s.tables k row' = true ∧
      ∀ g ∈ links, row'.column g = row.column g := by
  unfold Core.reference at found
  split at found
  · cases found
  rename_i given
  split at found
  · rename_i ref aside
    obtain rfl := Option.some.inj found
    rw [load_lookup given]
    exact ran.aside k steady v ref aside
  · obtain ⟨here, ours⟩ := Option.filter_eq_some_iff.mp found
    exact ⟨row, here, ours, fun _ _ => rfl⟩

theorem Ran.reference_any (ran : Ran c init done s) (steady : k.steady = true)
    (found : (Core.reference c s k v).isSome = true) :
    (load s.tables k v).any (owned c s.tables k) = true := by
  obtain ⟨row, found⟩ := Option.isSome_iff_exists.mp found
  obtain ⟨row', here, ours, -⟩ := ran.reference steady found
  rw [here]
  exact ours

theorem placed_site (h : placed c s existing record = true) :
    (reference c s .site (value c existing record "site_id")).isSome = true := by
  simp only [placed, Bool.and_eq_true] at h
  exact h.1

/-- The counterpart of a taken record is a stored row. -/
theorem Taken.stored_mem (h : Taken c s grants kind portable pk archived existing secured record) :
    ∀ row, existing = some row → row ∈ s.tables kind := by
  intro row known
  have found := h.counterpart
  rw [known, Core.counterpart] at found
  split at found
  · rename_i grant
    rcases Option.or_eq_some_iff.mp found.symm with here | ⟨-, pair⟩
    · exact (load_mem here).1
    · rw [grant]
      exact List.mem_of_find?_eq_some pair
  · exact (load_mem found.symm).1

/-- A new row has a new identifier. -/
theorem Taken.fresh (h : Taken c s grants kind portable pk archived existing secured record)
    (given : pk ≠ .none) (none : existing = none) : ∀ r ∈ s.tables kind, r.column "id" ≠ pk := by
  have found := h.counterpart
  rw [none, Core.counterpart] at found
  have absent : load s.tables kind pk = Option.none := by
    split at found
    · exact (Option.or_eq_none_iff.mp found.symm).1
    · exact found.symm
  rw [load_lookup given] at absent
  exact Table.lookup_none.mp absent

/-- The references of a grant that is written are those that were checked. -/
theorem grant_column {g : String} {found : Option Row} (column : g ∈ Kind.userSiteAccess.model.columns)
    (free : g ∉ c.blocked) (absent : Kind.userSiteAccess.model.default g = .none)
    (match_ : found = none ∨ found = existing)
    (checked : value c found record g ≠ .none)
    (replaces : existing.isSome = true → c.overwriteExisting = true) :
    (writtenRow c .userSiteAccess pk existing record).column g = value c found record g := by
  cases existing with
  | none =>
    have none : found = none := match_.elim (fun h => h) fun h => h
    subst none
    simp [writtenRow, insertedRow_column (by decide) column free, absent, value, Record.get]
  | some row =>
    have overwrite := replaces rfl
    simp only [writtenRow, overwrite, if_true, updatedRow_column (by decide) column free]
    rcases match_ with rfl | rfl
    · rw [find_given checked]
      rfl
    · simp [value, overwrite]

/-- A written row is owned. -/
theorem Ran.owned_written (ran : Ran c init done s) (restored : kind.restored = true)
    (h : Taken c s grants kind portable pk archived existing secured record) :
    owned c s.tables kind (writtenRow c kind pk existing record) = true := by
  by_cases stays : ∃ row, existing = some row ∧ c.overwriteExisting = false
  · obtain ⟨row, rfl, keep⟩ := stays
    simp only [writtenRow, keep, Bool.false_eq_true, if_false]
    exact h.free row rfl
  have replaces : existing.isSome = true → c.overwriteExisting = true := by
    intro some
    obtain ⟨row, known⟩ := Option.isSome_iff_exists.mp some
    by_contra keep
    exact stays ⟨row, known, by simpa using keep⟩
  have site (place : kind = .controller ∨ kind = .device)
      (valid : placed c s (load s.tables kind pk) archived = true) :
      (load s.tables .site ((writtenRow c kind pk existing record).column "site_id")).any
        (tenant c .site) = true := by
    have user : kind ≠ .user := by rcases place with rfl | rfl <;> decide
    have column : "site_id" ∈ kind.model.columns := by rcases place with rfl | rfl <;> decide
    obtain ⟨-, rfl⟩ := h.plain user (by rcases place with rfl | rfl <;> decide)
    have same := h.existing_eq (by rcases place with rfl | rfl <;> decide)
    have written : (writtenRow c kind pk existing record).column "site_id" =
        value c existing record "site_id" := by
      cases existing with
      | none =>
        simp [writtenRow, insertedRow_column user column (links_free (by decide)),
          links_default (g := "site_id") (by decide), value, Record.get]
      | some row =>
        simp [writtenRow, replaces rfl, value,
          updatedRow_column user column (links_free (g := "site_id") (by decide))]
    rw [written, same]
    exact ran.reference_any (k := .site) rfl (placed_site valid)
  have alive : (∀ row, existing = some row → row.column "deleted_at" = .none) →
      (writtenRow c kind pk existing record).column "deleted_at" = .none := by
    intro before
    cases existing with
    | none => exact insertedRow_deleted
    | some row =>
      simp only [writtenRow, replaces rfl, if_true, updatedRow_blocked deleted_blocked]
      exact before row rfl
  have tenants (column : "organization_id" ∈ kind.model.columns)
      (known : ∀ row, existing = some row → tenant c kind row = true) :
      tenant c kind (writtenRow c kind pk existing record) = true := by
    cases existing with
    | none =>
      unfold tenant Model.attr
      simp [writtenRow, insertedRow_deleted, insertedRow_organization column, column]
    | some row =>
      simp only [writtenRow, replaces rfl, if_true]
      rw [tenant_same (updatedRow_blocked organization_blocked) (updatedRow_blocked deleted_blocked)]
      exact known row rfl
  have refs := h.refs
  cases kind with
  | controller =>
    simp only [owned, Bool.and_eq_true, decide_eq_true_eq]
    refine ⟨alive fun row known => ?_, site (.inl rfl) refs⟩
    have ours := h.free row known
    simp only [owned, Bool.and_eq_true, decide_eq_true_eq] at ours
    exact ours.1
  | device =>
    simp only [refsValid, Bool.and_eq_true] at refs
    simp only [owned, Bool.and_eq_true, decide_eq_true_eq]
    refine ⟨alive fun row known => ?_, site (.inr rfl) refs.1⟩
    have ours := h.free row known
    simp only [owned, Bool.and_eq_true, decide_eq_true_eq] at ours
    exact ours.1
  | userSiteAccess =>
    obtain ⟨-, rfl⟩ := h.plain (by decide) (by decide)
    have either : load s.tables .userSiteAccess pk = none ∨
        load s.tables .userSiteAccess pk = existing := by
      rw [h.counterpart, Core.counterpart, if_pos rfl]
      cases load s.tables .userSiteAccess pk with
      | none => exact .inl rfl
      | some row => exact .inr rfl
    simp only [refsValid, Bool.and_eq_true] at refs
    have given {k : Kind} {v : Value} (some : (Core.reference c s k v).isSome = true) : v ≠ .none := by
      rintro rfl
      simp [Core.reference] at some
    have account : "user_id" ∉ c.blocked := by
      cases secrets : c.includeSecrets <;>
        simp [Call.blocked, secrets, credentialSecretFields, audit]
    simp only [owned, Bool.and_eq_true]
    rw [grant_column (by decide) (links_free (by decide)) rfl either (given refs.1) replaces,
      grant_column (by decide) account rfl either (given refs.2) replaces]
    exact ⟨ran.reference_any (k := .site) rfl refs.1, ran.reference_any (k := .user) rfl refs.2⟩
  | siteGroup | userSession | apiKey => cases restored
  | _ => exact tenants (by decide) h.free

theorem restored_access (restored : kind.restored = true) : kind.access = false := by
  cases kind <;> first | rfl | cases restored

theorem steady_access (steady : k.steady = true) : k.access = false := by
  cases k <;> first | rfl | cases steady

theorem take_tables : (s.take c false kind pk existing secured record).tables =
    written c s.tables kind pk existing record := rfl

theorem Taken.lookup_eq (h : Taken c s grants kind portable pk archived existing secured record)
    (given : pk ≠ .none) (steady : kind.steady = true) :
    existing = Table.lookup (s.tables kind) pk := by
  rw [h.existing_eq (by rintro rfl; cases steady), load_lookup given]

/-- A write keeps the rows of the tables in their places. -/
theorem Ran.keeps_written (ran : Ran c init done s) (given : pk ≠ .none)
    (h : Taken c s grants kind portable pk archived existing secured record) :
    Keeps s.tables (written c s.tables kind pk existing record) := by
  intro k steady id row found
  by_cases here : k = kind
  · subst here
    rw [lookup_written (steady_access steady) ran.unique (h.lookup_eq given steady)]
    split
    · rename_i same
      subst same
      have known : existing = some row := (h.lookup_eq given steady).trans found
      refine ⟨_, rfl, ?_⟩
      rw [known]
      simp only [writtenRow]
      split
      · exact ⟨updatedRow_blocked organization_blocked, updatedRow_blocked deleted_blocked⟩
      · exact ⟨rfl, rfl⟩
    · exact ⟨row, found, rfl, rfl⟩
  · rw [written_other here (steady_access steady)]
    exact ⟨row, found, rfl, rfl⟩

theorem acceptedRow_written {g : String} (link : g ∈ links) :
    (writtenRow c kind pk existing record).column g =
      (acceptedRow c false kind pk existing record).column g := by
  cases existing with
  | none => exact insertedRow_links link
  | some row => rfl

/-- Before the restore a row was owned just when it is now, since its site and account stay. -/
theorem Ran.owned_init {db : Database} (ran : Ran c db.tables done s) (mem : row ∈ db.tables k) :
    owned c s.tables k row = owned c db.tables k row := by
  have site {v : Value} (found : (load db.tables .site v).isSome = true) :=
    ran.keeps.load_any (k := .site) (p := tenant c .site) rfl (fun _ _ => tenant_same) found
  have user {v : Value} (found : (load db.tables .user v).isSome = true) :=
    ran.keeps.load_any (k := .user) (p := tenant c .user) rfl (fun _ _ => tenant_same) found
  cases k with
  | controller =>
    dsimp only [owned]
    rw [site (db.sites _ (.inl rfl) row mem)]
  | device =>
    dsimp only [owned]
    rw [site (db.sites _ (.inr (.inl rfl)) row mem)]
  | userSiteAccess =>
    dsimp only [owned]
    rw [site (db.sites _ (.inr (.inr rfl)) row mem), user (db.users _ (.inl rfl) row mem)]
  | _ => rfl

/-- A session or key after a write: one of before, for the same account, and changed only with the
live account of a vault. -/
theorem mem_written_access (access : k.access = true) (restored : kind.restored = true) :
    (∀ row ∈ written c t kind pk existing record k, ∃ old ∈ t k,
      row.column "id" = old.column "id" ∧ row.column "user_id" = old.column "user_id") ∧
    ∀ old ∈ t k, (∀ user, kind = .user → existing = some user →
      old.column "user_id" ≠ user.column "id") → old ∈ written c t kind pk existing record k := by
  have other : k ≠ kind := by
    rintro rfl
    rw [restored_access restored] at access
    cases access
  by_cases account : kind = .user ∧ c.includeSecrets = true ∧ c.overwriteExisting = true ∧
      existing.isSome = true
  · obtain ⟨rfl, secrets, replaces, present⟩ := account
    obtain ⟨user, rfl⟩ := Option.isSome_iff_exists.mp present
    have rows : ∃ f : Row → Row, written c t .user pk (some user) record k = (t k).map f ∧
        (∀ r, (f r).column "id" = r.column "id" ∧ (f r).column "user_id" = r.column "user_id") ∧
        ∀ r, r.column "user_id" ≠ user.column "id" → f r = r := by
      unfold written
      dsimp only
      rw [if_pos replaces, if_pos (by simp [secrets])]
      unfold revoke
      cases k with
      | userSession =>
        refine ⟨_, put_same, fun r => ?_, fun r apart => if_neg apart⟩
        split <;> simp
      | apiKey =>
        rw [put_other (by decide)]
        refine ⟨_, put_same, fun r => ?_, fun r apart => if_neg apart⟩
        split <;> simp
      | _ => cases access
    obtain ⟨f, same, columns, apart⟩ := rows
    rw [same]
    constructor
    · intro row mem
      obtain ⟨old, before, rfl⟩ := List.mem_map.mp mem
      exact ⟨old, before, columns old⟩
    · intro old mem free
      exact List.mem_map.mpr ⟨old, mem, apart old (free user rfl rfl)⟩
  · have same : written c t kind pk existing record k = t k := by
      unfold written
      split
      · split
        · rename_i user replaces
          dsimp only
          rw [if_neg, put_other other]
          intro h
          simp only [Bool.and_eq_true, decide_eq_true_eq] at h
          exact account ⟨h.1, h.2, replaces, rfl⟩
        · rfl
      · exact put_other other
    rw [same]
    exact ⟨fun row mem => ⟨row, mem, rfl, rfl⟩, fun old mem _ => mem⟩

/-- A real restore goes on through a taken record. -/
theorem Ran.take {db : Database} (ran : Ran c db.tables done s) (current : kind ∈ done)
    (restored : kind.restored = true) (given : pk ≠ .none)
    (h : Taken c s grants kind portable pk archived existing secured record) :
    Ran c db.tables done (s.take c false kind pk existing secured record) := by
  have access := restored_access restored
  have keeps := ran.keeps_written given h
  have ours := keeps.owned (ran.owned_written restored h)
  have rows {r : Row} : r ∈ written c s.tables kind pk existing record kind ↔ _ :=
    mem_written access (ran.unique kind) h.stored_mem
  have other (k : Kind) (apart : k ≠ kind) (plain : k.access = false) :
      written c s.tables kind pk existing record k = s.tables k :=
    written_other apart plain
  constructor
  case unique => exact written_unique ran.unique (h.fresh given)
  case untouched =>
    intro k away plain
    rw [take_tables, other k (by rintro rfl; exact away current) plain]
    exact ran.untouched k away plain
  case fresh =>
    intro k away id
    rw [take_accepted_other (by rintro rfl; exact away current)]
    exact ran.fresh k away id
  case kept =>
    intro k steady id none
    rw [take_accepted] at none
    split at none
    · cases none
    rename_i apart
    rw [take_tables, ← ran.kept k steady id none]
    by_cases here : k = kind
    · subst here
      rw [lookup_written access ran.unique (h.lookup_eq given steady),
        if_neg fun same => apart ⟨rfl, same⟩]
    · rw [other k here (steady_access steady)]
  case keeps => exact ran.keeps.trans keeps
  case aside =>
    intro k steady id row noted
    rw [take_tables]
    by_cases here : k = kind
    · subst here
      rw [lookup_written access ran.unique (h.lookup_eq given steady)]
      rw [take_accepted] at noted
      by_cases same : id = pk
      · rw [if_pos ⟨rfl, same⟩] at noted
        obtain rfl := Option.some.inj noted
        exact ⟨_, if_pos same, ours, fun g link => acceptedRow_written link⟩
      · rw [if_neg fun h => same h.2] at noted
        obtain ⟨row', found, owned, same'⟩ := ran.aside k steady id row noted
        rw [if_neg same]
        exact ⟨row', found, keeps.owned owned, same'⟩
    · rw [take_accepted_other here] at noted
      obtain ⟨row', found, owned, same⟩ := ran.aside k steady id row noted
      rw [other k here (steady_access steady)]
      exact ⟨row', found, keeps.owned owned, same⟩
  case foreign =>
    intro k plain row mem unowned
    have before := ran.foreign k plain row mem unowned
    rw [take_tables]
    by_cases here : k = kind
    · subst here
      refine rows.mpr (.inr ⟨before, fun stored known same => ?_⟩)
      -- the counterpart is owned, so it is another row
      have equal : row = stored := (ran.unique k).eq before (h.stored_mem stored known) same
      rw [← ran.owned_init mem, equal, h.free stored known] at unowned
      cases unowned
    · rw [other k here plain]
      exact before
  case sessions =>
    intro k sessions row mem outside
    have before := ran.sessions k sessions row mem outside
    refine (mem_written_access sessions restored).2 row before ?_
    rintro user rfl known named
    have stored : load s.tables .user (row.column "user_id") = some user := by
      have id : user.column "id" ≠ .none := by
        rw [h.existing_eq (by decide)] at known
        rw [(load_mem known).2]
        exact given
      rw [named, load_lookup id]
      exact (ran.unique .user).lookup (h.stored_mem user known)
    have tenants := ran.keeps.load_any (k := .user) (v := row.column "user_id")
      (p := inOrganization c) rfl (fun _ _ org _ => inOrganization_same org)
      (db.users k (by cases k <;> simp_all [Kind.access]) row mem)
    rw [stored] at tenants
    have member : inOrganization c user = true := tenant_inOrganization (by decide) (h.free user known)
    have inside : belongs c db.tables k row = true := by
      cases k with
      | userSession | apiKey => exact tenants.symm.trans member
      | _ => cases sessions
    rw [inside] at outside
    cases outside
  case inserted =>
    intro k row mem new
    rw [take_tables] at mem ⊢
    by_cases sessions : k.access = true
    · obtain ⟨old, before, id, user⟩ := (mem_written_access sessions restored).1 row mem
      have inside := keeps.belongs (ran.inserted k old before fun r stored => id ▸ new r stored)
      cases k with
      | userSession | apiKey =>
        simp only [belongs] at inside ⊢
        rw [user]
        exact inside
      | _ => cases sessions
    have plain : k.access = false := by simpa using sessions
    by_cases here : k = kind
    · subst here
      rcases rows.mp mem with rfl | ⟨before, -⟩
      · exact owned_belongs access ours
      · exact keeps.belongs (ran.inserted k row before new)
    · rw [other k here plain] at mem
      exact keeps.belongs (ran.inserted k row mem new)

theorem Ran.mono (ran : Ran c init done s) (kind : Kind) : Ran c init (kind :: done) s where
  unique := ran.unique
  untouched k away := ran.untouched k fun mem => away (List.mem_cons_of_mem kind mem)
  fresh k away := ran.fresh k fun mem => away (List.mem_cons_of_mem kind mem)
  kept := ran.kept
  keeps := ran.keeps
  aside := ran.aside
  foreign := ran.foreign
  sessions := ran.sessions
  inserted := ran.inserted

/-! ### Links of accepted rows -/

/-- The accepted controllers and devices refer to credentials and controllers that fit them, and a
parent whose site changed is noted. -/
structure Linked (c : Call) (init : Tables) (s : Progress) : Prop where
  named : ∀ k id row, s.accepted k id = some row → id ≠ .none
  credentials : ∀ k, k = .controller ∨ k = .device → ∀ id row, s.accepted k id = some row →
    row.column "credential_id" = .none ∨
      (reference c s .credential (row.column "credential_id")).any
        (serves (row.column "site_id")) = true
  controllers : ∀ id row, s.accepted .device id = some row → row.column "controller_id" = .none ∨
    (reference c s .controller (row.column "controller_id")).any
      (fun controller => controller.column "site_id" = row.column "site_id") = true
  moved : ∀ k, k = .controller ∨ k = .credential → ∀ id row stored, s.accepted k id = some row →
    Table.lookup (init k) id = some stored → row.column "site_id" ≠ stored.column "site_id" →
    (k, id) ∈ s.moved

/-- References to a resource do not notice a write to another, when its site is not the resource. -/
theorem reference_take (other : k ≠ kind) (plain : k.access = false)
    (site : k = .credential ∨ k = .controller ∧ kind ≠ .site) :
    reference c (s.take c false kind pk existing secured record) k v = reference c s k v := by
  have table : (s.take c false kind pk existing secured record).tables k = s.tables k := by
    rw [take_tables, written_other other plain]
  have loads : load (s.take c false kind pk existing secured record).tables k v =
      load s.tables k v := by
    unfold load
    rw [table]
  have same : owned c (s.take c false kind pk existing secured record).tables k =
      owned c s.tables k := by
    rcases site with rfl | ⟨rfl, apart⟩
    · rfl
    · have sites : (s.take c false kind pk existing secured record).tables .site = s.tables .site := by
        rw [take_tables, written_other (Ne.symm apart) rfl]
      funext row
      dsimp only [owned, load]
      rw [sites]
  unfold reference
  rw [take_accepted_other other, loads, same]

theorem acceptedRow_value {g : String} (dryRun : Bool) (link : g ∈ links)
    (column : g ∈ kind.model.columns) :
    (acceptedRow c dryRun kind pk existing record).column g = value c existing record g := by
  rw [acceptedRow_links dryRun link, virtualRow_value link column]

theorem placed_credential (h : placed c s existing record = true) :
    value c existing record "credential_id" = .none ∨
      (reference c s .credential (value c existing record "credential_id")).any
        (serves (value c existing record "site_id")) = true := by
  simp only [placed, Bool.and_eq_true, Bool.or_eq_true, decide_eq_true_eq] at h
  exact h.2

theorem Linked.take {db : Database} (linked : Linked c db.tables s) (ran : Ran c db.tables done s)
    (apart : ∀ child ∈ consumers kind, child ∉ done) (new : s.accepted kind pk = none)
    (given : pk ≠ .none)
    (h : Taken c s grants kind portable pk archived existing secured record) :
    Linked c db.tables (s.take c false kind pk existing secured record) := by
  have away {child : Kind} (mem : child ∈ consumers kind) {id : Value} :
      s.accepted child id = none := ran.fresh child (apart child mem) id
  constructor
  case named =>
    intro k id row noted
    rw [take_accepted] at noted
    split at noted
    · rename_i here
      exact here.2 ▸ given
    · exact linked.named k id row noted
  case credentials =>
    intro k place id row noted
    by_cases credential : kind = .credential
    · subst credential
      have other : k ≠ .credential := by rcases place with rfl | rfl <;> decide
      rw [take_accepted_other other,
        away (by rcases place with rfl | rfl <;> decide)] at noted
      cases noted
    rw [reference_take (Ne.symm credential) rfl (.inl rfl)]
    rw [take_accepted] at noted
    split at noted
    · rename_i here
      obtain ⟨rfl, rfl⟩ := here
      obtain rfl := Option.some.inj noted
      obtain ⟨-, rfl⟩ := h.plain (by rcases place with rfl | rfl <;> decide)
        (by rcases place with rfl | rfl <;> decide)
      have same := h.existing_eq (by rcases place with rfl | rfl <;> decide)
      have valid : placed c s existing record = true := by
        have refs := h.refs
        rw [← same] at refs
        rcases place with rfl | rfl
        · exact refs
        · simp only [refsValid, Bool.and_eq_true] at refs
          exact refs.1
      rw [acceptedRow_value false (by decide) (by rcases place with rfl | rfl <;> decide),
        acceptedRow_value false (by decide) (by rcases place with rfl | rfl <;> decide)]
      exact placed_credential valid
    · exact linked.credentials k place id row noted
  case controllers =>
    intro id row noted
    by_cases parent : kind = .controller ∨ kind = .site
    · have other : Kind.device ≠ kind := by rcases parent with rfl | rfl <;> decide
      rw [take_accepted_other other,
        away (by rcases parent with rfl | rfl <;> decide)] at noted
      cases noted
    rw [reference_take (fun same => parent (.inl same.symm)) rfl
      (.inr ⟨rfl, fun same => parent (.inr same)⟩)]
    rw [take_accepted] at noted
    split at noted
    · rename_i here
      obtain ⟨rfl, rfl⟩ := here
      obtain rfl := Option.some.inj noted
      obtain ⟨-, rfl⟩ := h.plain (by decide) (by decide)
      have refs := h.refs
      rw [← h.existing_eq (by decide)] at refs
      simp only [refsValid, Bool.and_eq_true, Bool.or_eq_true, decide_eq_true_eq] at refs
      rw [acceptedRow_value false (by decide) (by decide),
        acceptedRow_value false (by decide) (by decide)]
      exact refs.2
    · exact linked.controllers id row noted
  case moved =>
    intro k place id row stored noted before differs
    rw [take_accepted] at noted
    split at noted
    · rename_i here
      obtain ⟨rfl, rfl⟩ := here
      obtain rfl := Option.some.inj noted
      have steady : k.steady = true := by rcases place with rfl | rfl <;> rfl
      obtain ⟨-, rfl⟩ := h.plain (by rcases place with rfl | rfl <;> decide)
        (by rcases place with rfl | rfl <;> decide)
      have known : existing = some stored := by
        rw [h.lookup_eq given steady, ran.kept k steady id new, before]
      rw [acceptedRow_value false (by decide) (by rcases place with rfl | rfl <;> decide)] at differs
      have replaces : c.overwriteExisting = true := by
        by_contra keep
        simp [known, value, keep] at differs
      have moves : moves c k existing record = true := by
        rw [known] at differs ⊢
        simp only [Core.moves, Bool.and_eq_true, Bool.or_eq_true, decide_eq_true_eq]
        exact ⟨⟨place, replaces⟩, by simpa using differs⟩
      show (k, id) ∈ (Core.noted c s k id existing secured record).moved
      simp [Core.noted, moves]
    · have before' := linked.moved k place id row stored noted before differs
      show (k, id) ∈ (Core.noted c s kind pk existing secured record).moved
      simp only [Core.noted]
      split
      · exact List.mem_append_left _ before'
      · exact before'

theorem Linked.start (init : Tables) : Linked c init (Core.start init) where
  named _ _ _ h := by cases h
  credentials _ _ _ _ h := by cases h
  controllers _ _ h := by cases h
  moved _ _ _ _ _ h := by cases h

/-- The loops of a real restore that returns. -/
theorem restoreKinds_ran {db : Database} {a : Archive} {counts : List (Kind × Counts)}
    (h : restoreKinds c false a (start db.tables) (restoreMap c) = .ok (s, counts)) :
    ∃ done, Ran c db.tables done s ∧ Linked c db.tables s := by
  refine ⟨_, restoreKinds_inv (P := fun done s => Ran c db.tables done s ∧ Linked c db.tables s)
    ?_ ?_ ?_ restoreMap_ordered ⟨Ran.start db, .start _⟩ h⟩
  · rintro kind done s ⟨ran, linked⟩
    exact ⟨ran.mono kind, linked⟩
  · rintro done s ⟨ran, -⟩
    exact ran.fresh
  · rintro kind done s json portable pk archived existing secured record restored apart ⟨ran, linked⟩
      new read taken
    obtain ⟨-, -, -, -, -, given⟩ := examine_record read
    exact ⟨ran.take List.mem_cons_self restored given taken,
      linked.take ran apart new given taken⟩

/-! ### The state behind the restore -/

/-- A row that was not accepted is one of before. -/
theorem Ran.unaccepted {db : Database} (ran : Ran c db.tables done s) (steady : k.steady = true)
    (mem : row ∈ s.tables k) (new : s.accepted k (row.column "id") = none) : row ∈ db.tables k := by
  have found := (ran.unique k).lookup mem
  rw [key_row, ran.kept k steady _ new] at found
  exact Table.lookup_mem found

/-- The noted row of an accepted one has its links. -/
theorem Ran.accepted_links (ran : Ran c init done s) (steady : k.steady = true)
    (mem : row ∈ s.tables k) {noted : Row} (new : s.accepted k (row.column "id") = some noted) :
    ∀ g ∈ links, row.column g = noted.column g := by
  obtain ⟨row', found, -, same⟩ := ran.aside k steady _ noted new
  have here := (ran.unique k).lookup mem
  rw [key_row, found] at here
  rw [← Option.some.inj here]
  exact same

/-- A parent of a retained row: as it was, or left in the site of the row. -/
theorem Ran.parent {db : Database} {parent child : Kind} {field : String} {stored : Row}
    (ran : Ran c db.tables done s) (linked : Linked c db.tables s)
    (place : parent = .controller ∨ parent = .credential)
    (dependent : (child, field) ∈ dependents parent) (settled : s.moved.any (strands s) = false)
    (mem : row ∈ s.tables child) (retained : s.accepted child (row.column "id") = none)
    (given : row.column field ≠ .none)
    (before : load db.tables parent (row.column field) = some stored) :
    ∃ now, load s.tables parent (row.column field) = some now ∧
      now.column "organization_id" = stored.column "organization_id" ∧
      (now.column "site_id" = stored.column "site_id" ∨
        owned c s.tables parent now = true ∧
          (parent = .credential ∧ now.column "site_id" = .none ∨
            row.column "site_id" = now.column "site_id")) := by
  have steady : parent.steady = true := by rcases place with rfl | rfl <;> rfl
  rw [load_lookup given] at before ⊢
  obtain ⟨now, found, org, -⟩ := ran.keeps parent steady _ stored before
  refine ⟨now, found, org, ?_⟩
  cases noted : s.accepted parent (row.column field) with
  | none =>
    rw [ran.kept parent steady _ noted, before] at found
    exact .inl (by rw [Option.some.inj found])
  | some virtual =>
    obtain ⟨now', found', ours, same⟩ := ran.aside parent steady _ virtual noted
    obtain rfl := Option.some.inj (found.symm.trans found')
    by_cases moved : virtual.column "site_id" = stored.column "site_id"
    · exact .inl ((same _ (by decide)).trans moved)
    · refine .inr ⟨ours, ?_⟩
      have noticed := linked.moved parent place _ virtual stored noted before moved
      have safe : strands s (parent, row.column field) = false := by
        rw [List.any_eq_false] at settled
        simpa using settled _ noticed
      rw [same _ (by decide)]
      by_contra apart
      simp only [not_or, not_and] at apart
      have stranded : strands s (parent, row.column field) = true := by
        simp only [strands, noted, Bool.and_eq_true, List.any_eq_true, decide_eq_true_eq]
        refine ⟨by simpa using imp_iff_not_or.mp apart.1, (child, field), dependent, row, mem, ?_⟩
        rw [retained]
        exact ⟨⟨rfl, rfl⟩, by simpa using apart.2⟩
      rw [safe] at stranded
      cases stranded

/-- Sites were live before when they are now. -/
theorem Ran.inLiveSite {db : Database} (ran : Ran c db.tables done s)
    (place : k = .controller ∨ k = .device) (mem : row ∈ db.tables k) :
    inLiveSite c s.tables row = inLiveSite c db.tables row :=
  ran.keeps.load_any (k := .site) rfl (fun _ _ => tenant_same)
    (db.sites k (place.elim .inl fun h => .inr (.inl h)) row mem)

theorem serves_suits {site : Value} {credential now : Row}
    (ours : tenant c .credential now = true)
    (same : now.column "site_id" = credential.column "site_id") (h : serves site credential = true) :
    suits c site now = true := by
  have member := tenant_inOrganization (by decide) ours
  simp only [serves, suits, Bool.or_eq_true, Bool.and_eq_true, decide_eq_true_eq] at h ⊢
  rw [same]
  exact h.imp_left fun none => ⟨none, member⟩

/-- The restored state is coherent. -/
theorem Ran.coherent {db : Database} (ran : Ran c db.tables done s) (linked : Linked c db.tables s)
    (settled : s.moved.any (strands s) = false) (before : Coherent c db.tables) :
    Coherent c s.tables := by
  constructor
  · intro k place row mem live
    have steady : k.steady = true := by rcases place with rfl | rfl <;> rfl
    cases noted : s.accepted k (row.column "id") with
    | some virtual =>
      have same := ran.accepted_links steady mem noted
      rw [same _ (by decide), same "site_id" (by decide)]
      refine (linked.credentials k place _ virtual noted).imp_right fun fits => ?_
      obtain ⟨credential, found, suits⟩ := (Option.any_eq_true _ _).mp fits
      obtain ⟨now, here, ours, links⟩ := ran.reference (k := .credential) rfl found
      rw [here]
      exact serves_suits ours (links _ (by decide)) suits
    | none =>
      have old := ran.unaccepted steady mem noted
      rw [ran.inLiveSite place old] at live
      by_cases given : row.column "credential_id" = .none
      · exact .inl given
      refine .inr ?_
      have fits := (before.credentials k place row old live).resolve_left given
      obtain ⟨stored, found, suits⟩ := (Option.any_eq_true _ _).mp fits
      obtain ⟨now, here, org, site⟩ := ran.parent linked (.inr rfl)
        (by rcases place with rfl | rfl <;> decide) settled mem noted given found
      rw [here]
      simp only [Option.any_some, Core.suits, Bool.or_eq_true, Bool.and_eq_true,
        decide_eq_true_eq] at suits ⊢
      rcases site with same | ⟨ours, wide | local_⟩
      · rw [same, inOrganization_same org]
        exact suits
      · exact .inl ⟨wide.2, tenant_inOrganization (by decide) ours⟩
      · exact .inr local_.symm
  · intro row mem live
    cases noted : s.accepted .device (row.column "id") with
    | some virtual =>
      have same := ran.accepted_links (k := .device) rfl mem noted
      rw [same "controller_id" (by decide), same "site_id" (by decide)]
      refine (linked.controllers _ virtual noted).imp_right fun fits => ?_
      obtain ⟨controller, found, site⟩ := (Option.any_eq_true _ _).mp fits
      obtain ⟨now, here, -, links⟩ := ran.reference (k := .controller) rfl found
      rw [here]
      simp only [Option.any_some, decide_eq_true_eq] at site ⊢
      exact (links _ (by decide)).trans site
    | none =>
      have old := ran.unaccepted (k := .device) rfl mem noted
      rw [ran.inLiveSite (.inr rfl) old] at live
      by_cases given : row.column "controller_id" = .none
      · exact .inl given
      refine .inr ?_
      have fits := (before.controllers row old live).resolve_left given
      obtain ⟨stored, found, site⟩ := (Option.any_eq_true _ _).mp fits
      obtain ⟨now, here, -, near⟩ := ran.parent linked (.inl rfl) (by decide) settled mem noted
        given found
      rw [here]
      simp only [Option.any_some, decide_eq_true_eq] at site ⊢
      rcases near with same | ⟨-, wide | local_⟩
      · exact same.trans site
      · cases wide.1
      · exact local_.symm

end FreeSdn.Backup.Core
