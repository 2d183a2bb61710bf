import FreeSdn.Backup.VaultErrors

/-! What a vault restore that overwrites leaves of authority, and when the accounts that were there keep
their grants. -/

namespace FreeSdn.Backup.Core

open FreeSdn.Lib

/-- No account that was there has gained authority, and the organization and the platform still have an
active administrator if they had one. -/
structure Unelevated (vault : Vault) (db : IndexedDatabase) (accounts : Snapshot) (t : Tables) : Prop where
  kept : ∀ d ∈ accounts.users, ∀ row ∈ db.tables .user,
    row.column "id" = identifier vault.call.py (member d "id") →
    Kept vault.codec d row t ∧
      sameGrants (currentGrants vault.call db.tables row) (currentGrants vault.call t row) = true
  organization : (∃ u ∈ db.tables .user, counts Prod.fst (inOrganization vault.call) u = true) →
    ∃ u ∈ t .user, counts Prod.fst (inOrganization vault.call) u = true
  platform : (∃ u ∈ db.tables .user, counts Prod.snd (fun _ => true) u = true) →
    ∃ u ∈ t .user, counts Prod.snd (fun _ => true) u = true

/-- A vault restore that returns. -/
theorem restoreData_finished {vault : Vault} {db : Database} {data : Dict} {accounts : Snapshot}
    {lifecycleFree : Bool} {t : Tables} {n : List (Kind × Counts)}
    (snapshot : validateSnapshot vault.call.py vault.call.formats vault.call.org data = .ok accounts)
    (h : restoreData vault.call false lifecycleFree db.tables data = .ok (t, n)) :
    ∃ s, Finished vault db accounts s ∧ t = s.tables ∧
      requireAdministratorSurvivors vault.call false s = .ok () := by
  unfold restoreData openArchive at h
  rw [if_pos vault.security, snapshot] at h
  obtain ⟨a, opened, h⟩ := bind_ok h
  obtain rfl := Except.ok.inj opened
  obtain ⟨-, h⟩ := require_bind h
  unfold restoreArchive at h
  obtain ⟨⟨s, counts⟩, run, h⟩ := bind_ok h
  obtain ⟨-, h⟩ := require_bind h
  dsimp only at h
  rw [if_pos vault.security] at h
  obtain ⟨_, checked, h⟩ := bind_ok h
  exact ⟨s, restoreKinds_finished (validateSnapshot_valid snapshot) run,
    (Prod.mk.inj (Except.ok.inj h)).1.symm, checked⟩

/-- An archived account keeps its grants just when none of them is displaced. -/
theorem Finished.grants_iff {vault : Vault} {db : IndexedDatabase} {accounts : Snapshot} {s : Progress}
    {d : Dict} {row : Row} (finished : Finished vault db.toDatabase accounts s)
    (valid : ValidSnapshot vault.call accounts) (mem : d ∈ accounts.users) (stored : row ∈ db.tables .user)
    (named : row.column "id" = identifier vault.call.py (member d "id")) :
    sameGrants (currentGrants vault.call db.tables row) (currentGrants vault.call s.tables row) = true ↔
      ∀ pre x post, accounts.grants = pre ++ x :: post →
        (archivedEntry vault.call.py x).second.1 = row.column "id" → ∀ y ∈ post,
          ¬ Entry.Displaces (grantEntries db.tables) (archivedEntry vault.call.py x)
            (archivedEntry vault.call.py y) := by
  have before := (finished.kept d mem row stored named).2
  obtain ⟨id, name⟩ := (valid.users d mem).id
  rw [name, identifier_str] at named
  exact grants_kept_iff valid named before finished.entries

/-- The checks behind the restore leave administrators where there were some. -/
theorem Finished.survivors {vault : Vault} {db : Database} {accounts : Snapshot} {s : Progress}
    (finished : Finished vault db accounts s)
    (checked : requireAdministratorSurvivors vault.call false s = .ok ()) :
    ((∃ u ∈ db.tables .user, counts Prod.fst (inOrganization vault.call) u = true) →
      ∃ u ∈ s.tables .user, counts Prod.fst (inOrganization vault.call) u = true) ∧
    ((∃ u ∈ db.tables .user, counts Prod.snd (fun _ => true) u = true) →
      ∃ u ∈ s.tables .user, counts Prod.snd (fun _ => true) u = true) := by
  unfold requireAdministratorSurvivors at checked
  obtain ⟨platform, organization⟩ := require_bind checked
  have organization := require_ok organization
  simp only [remaining, Bool.false_eq_true, if_false, Int.add_zero] at platform organization
  exact ⟨administrator_survives finished.organization organization,
    administrator_survives finished.platform platform⟩

/-- A vault restore that returns leaves no account with more authority than it had, and the organization
and the platform with their administrators, just when no archived grant of an account that is there is
followed by one that takes its stored row.  Its preview raises an error about administrators just when it
does, unless the database refuses a record of the restore. -/
theorem vault_restore_authority (vault : Vault) (db : IndexedDatabase) (data : Dict) :
    (∀ accounts lifecycleFree t n,
      validateSnapshot vault.call.py vault.call.formats vault.call.org data = .ok accounts →
      restoreData vault.call false lifecycleFree db.tables data = .ok (t, n) →
      (Unelevated vault db accounts t ↔ Undisturbed vault.call db.tables accounts.grants)) ∧
    ∀ e ∈ administratorErrors,
      (restoreData vault.call true true db.tables data = .error e ↔
        restoreData vault.call false true db.tables data = .error e) ↔
      (restoreData vault.call true true db.tables data = .error e →
        restoreRefused vault.call db.tables data = false) := by
  refine ⟨fun accounts lifecycleFree t n snapshot run => ?_, fun e mem =>
    administrator_errors vault.formats db.toDatabase data mem⟩
  obtain ⟨s, finished, rfl, checked⟩ := restoreData_finished snapshot run
  have valid := validateSnapshot_valid snapshot
  obtain ⟨organization, platform⟩ := finished.survivors checked
  constructor
  · rintro ⟨kept, -, -⟩ pre d post whole ⟨row, stored, account⟩
    obtain ⟨u, mem, same⟩ := valid.holders d (whole ▸ by simp)
    have named : row.column "id" = identifier vault.call.py (member u "id") := by
      rw [same, ← account]
      rfl
    exact (finished.grants_iff valid mem stored named).mp (kept u mem row stored named).2 pre d post whole
      account
  · intro free
    refine ⟨fun d mem row stored named => ⟨(finished.kept d mem row stored named).1, ?_⟩, organization,
      platform⟩
    refine (finished.grants_iff valid mem stored named).mpr fun pre x post whole account => ?_
    exact free pre x post whole ⟨row, stored, account⟩

/-! ### A small vault -/

/-- Times as lists of two numbers, and secrets as they are. -/
def plainCodec : Codec where
  fromIsoformat text :=
    match Json.loads text.toList with
    | some (.arr [.int instant, .int offset]) => some ⟨instant, offset⟩
    | _ => none
  isoformat t := String.ofList (Json.dumps (.arr [.int t.instant, .int t.offset]))
  fromIsoformat_isoformat t := by
    rw [String.toList_ofList, Json.loads_dumps]
  loads text := Json.loads text.toList
  loads_dumps codes := by rw [String.toList_ofList, Json.loads_dumps]
  encrypt text := text
  decrypt text := some text
  decrypt_encrypt _ := rfl
  provider _ := .error incomplete

def plainVault : Vault where
  call := { overwriting with
    formats := plainCodec.formats, restoreUsers := true, includeSecrets := true }
  codec := plainCodec
  formats := rfl
  security := rfl
  overwrites := rfl

def portableHash : String :=
  "$argon2id$v=19$m=65536,t=3,p=4$AAAAAAAAAAAAAAAAAAAAAA$AAAAAAAAAAAAAAAAAAAAAAAAAAAAAAAAAAAAAAAAAAA"

/-- An account with a password, as an archive has it. -/
def archivedAccount (id : Uuid) (name role : String) (active : Bool) : Json :=
  .obj [("id", .str (plainText id)), ("organization_id", .str (plainText 1)), ("username", .str name),
    ("email", .str name), ("full_name", .null), ("language", .str "en"), ("preferences", .obj []),
    ("hashed_password", .str portableHash), ("role", .str role), ("is_active", .bool active),
    ("is_verified", .bool true), ("mfa_enabled", .bool false), ("mfa_secret", .null),
    ("mfa_backup_codes", .null), ("mfa_pending_secret", .null), ("mfa_pending_backup_codes", .null),
    ("mfa_last_totp_step", .null), ("token_version", .int 1), ("failed_login_attempts", .int 0),
    ("locked_until", .null), ("last_login", .null), ("auth_provider", .str "local"),
    ("external_id", .null), ("sso_provider_id", .null)]

/-- An active account, as the destination has it. -/
def storedAccount (id : Uuid) (role : String) : Row :=
  rowWith [("id", .uuid id), ("organization_id", .uuid 1), ("hashed_password", .json (.str portableHash)),
    ("role", .json (.str role)), ("is_active", .json (.bool true)), ("is_verified", .json (.bool true)),
    ("mfa_enabled", .json (.bool false)), ("token_version", .json (.int 3)),
    ("failed_login_attempts", .json (.int 2)), ("auth_provider", .json (.str "local"))]

/-- Two sites, an administrator, and an operator of the first site with a session. -/
def twoSites : Tables
  | .site => [headOffice, rowWith [("id", .uuid 3), ("organization_id", .uuid 1)]]
  | .user => [storedAccount 4 "operator", storedAccount 9 "org_admin"]
  | .userSiteAccess => [rowWith [("id", .uuid 5), ("user_id", .uuid 4), ("site_id", .uuid 2)]]
  | .userSession => [rowWith [("id", .uuid 8), ("user_id", .uuid 4), ("is_revoked", .json (.bool false))]]
  | _ => []

def isIdentifier : Value → Bool
  | .uuid _ => true
  | v => v = .none

theorem isIdentifier_ok {v : Value} (h : isIdentifier v = true) : v = .none ∨ ∃ id, v = .uuid id := by
  cases v with
  | uuid id => exact .inr ⟨id, rfl⟩
  | json j => exact .inl (of_decide_eq_true h)

def twoSitesDatabase : IndexedDatabase where
  tables := twoSites
  unique k := by cases k <;> decide
  typed k row mem g field := by
    have all : ((twoSites k).all fun row => k.model.uuidFields.all fun g => isIdentifier (row.column g)) =
        true := by cases k <;> decide
    exact isIdentifier_ok (List.all_eq_true.mp (List.all_eq_true.mp all row mem) g field)
  sites k kinds row mem := by
    have all : ((twoSites k).all fun row => (load twoSites .site (row.column "site_id")).isSome) = true := by
      rcases kinds with rfl | rfl | rfl <;> decide
    exact List.all_eq_true.mp all row mem
  users k kinds row mem := by
    have all : ((twoSites k).all fun row => (load twoSites .user (row.column "user_id")).isSome) = true := by
      rcases kinds with rfl | rfl | rfl <;> decide
    exact List.all_eq_true.mp all row mem
  pairs := by decide

def archivedGrant (id user site : Uuid) : Json :=
  .obj [("id", .str (plainText id)), ("user_id", .str (plainText user)),
    ("site_id", .str (plainText site)), ("access_level", .null)]

def vaultOf (users grants : List Json) : Dict :=
  [("account_security_format", .str "2.0.0"), ("users", .arr users), ("sso_providers", .arr []),
   ("user_site_access", .arr grants)]

/-- The operator with its grant, as the destination has them. -/
def sameGrant : Dict := vaultOf [archivedAccount 4 "ann" "operator" true] [archivedGrant 5 4 2]

/-- The administrator, disabled. -/
def disabledAdministrator : Dict := vaultOf [archivedAccount 9 "root" "org_admin" false] []

/-- The grant of the operator under another identifier, and behind it the identifier of the stored grant
for a new operator of the other site. -/
def movedGrant : Dict :=
  vaultOf [archivedAccount 4 "ann" "operator" true, archivedAccount 6 "ben" "operator" true]
    [archivedGrant 7 4 2, archivedGrant 5 6 3]

/-- The snapshot and the tables of a small vault that is restored. -/
def restored (data : Dict) : Option (Snapshot × Tables × List (Kind × Counts)) := do
  let accounts ← (validateSnapshot plainVault.call.py plainVault.call.formats plainVault.call.org
    data).toOption
  let result ← (restoreData plainVault.call false true twoSites data).toOption
  some (accounts, result)

theorem toOption_ok {α : Type} {x : Except Error α} {a : α} (h : x.toOption = some a) : x = .ok a := by
  cases x with
  | error e => cases h
  | ok b => exact congrArg _ (Option.some.inj h)

/-- The error of a computation, if it raises one. -/
def raised {α : Type} : Except Error α → Option Error
  | .error e => some e
  | .ok _ => none

theorem raised_error {α : Type} {x : Except Error α} {e : Error} (h : raised x = some e) :
    x = .error e := by
  cases x with
  | error e' => exact congrArg _ (Option.some.inj h)
  | ok a => cases h

theorem restored_ok {data : Dict} {accounts : Snapshot} {t : Tables} {n : List (Kind × Counts)}
    (h : restored data = some (accounts, t, n)) :
    validateSnapshot plainVault.call.py plainVault.call.formats plainVault.call.org data = .ok accounts ∧
      restoreData plainVault.call false true twoSites data = .ok (t, n) := by
  unfold restored at h
  obtain ⟨accounts', snapshot, h⟩ := Option.bind_eq_some_iff.mp h
  obtain ⟨result, run, h⟩ := Option.bind_eq_some_iff.mp h
  obtain ⟨rfl, rfl⟩ := Prod.mk.inj (Option.some.inj h)
  exact ⟨toOption_ok snapshot, toOption_ok run⟩

/-- An archive with at most one grant disturbs nothing. -/
theorem undisturbed_one {c : Call} {t : Tables} {grants : List Dict} (one : grants.length ≤ 1) :
    Undisturbed c t grants := by
  rintro pre d post rfl - x mem
  have few : post.length = 0 := by
    simp only [List.length_append, List.length_cons] at one
    omega
  rw [List.eq_nil_of_length_eq_zero few] at mem
  cases mem

theorem sameGrant_unelevated :
    (∃ accounts t n, restored sameGrant = some (accounts, t, n) ∧
      Unelevated plainVault twoSitesDatabase accounts t) ∧
    restoreData plainVault.call false true twoSites disabledAdministrator = .error organizationLost := by
  constructor
  · have one : (restored sameGrant).any (fun x => x.1.grants.length ≤ 1) = true := by decide +kernel
    obtain ⟨⟨accounts, t, n⟩, found, few⟩ := (Option.any_eq_true _ _).mp one
    obtain ⟨snapshot, run⟩ := restored_ok found
    refine ⟨accounts, t, n, found, ?_⟩
    exact ((vault_restore_authority plainVault twoSitesDatabase sameGrant).1 accounts true t n snapshot
      run).mpr (undisturbed_one (of_decide_eq_true few))
  · have preview : raised (restoreData plainVault.call true true twoSites disabledAdministrator) =
        some organizationLost := by decide +kernel
    have accepted : restoreRefused plainVault.call twoSites disabledAdministrator = false := by
      decide +kernel
    exact (((vault_restore_authority plainVault twoSitesDatabase disabledAdministrator).2 organizationLost
      (by decide)).mpr fun _ => accepted).mp (raised_error preview)

/-- The operator loses its only grant to the new account. -/
theorem movedGrant_loses : ∃ accounts t n, restored movedGrant = some (accounts, t, n) ∧
    (∃ d ∈ accounts.users, (storedAccount 4 "operator").column "id" =
      identifier plainVault.call.py (member d "id")) ∧
    currentGrants plainVault.call twoSites (storedAccount 4 "operator") =
      [(.json (.str (plainText 2)), .none)] ∧
    currentGrants plainVault.call t (storedAccount 4 "operator") = [] ∧
    ¬ Unelevated plainVault twoSitesDatabase accounts t := by
  have run : (restored movedGrant).any (fun x =>
      (x.1.users.any fun d => (storedAccount 4 "operator").column "id" =
        identifier plainVault.call.py (member d "id")) &&
      decide (currentGrants plainVault.call x.2.1 (storedAccount 4 "operator") = [])) = true := by
    decide +kernel
  obtain ⟨⟨accounts, t, n⟩, found, facts⟩ := (Option.any_eq_true _ _).mp run
  rw [Bool.and_eq_true] at facts
  obtain ⟨d, mem, same⟩ := List.any_eq_true.mp facts.1
  have named := of_decide_eq_true same
  have lost := of_decide_eq_true facts.2
  have held : currentGrants plainVault.call twoSites (storedAccount 4 "operator") =
      [(.json (.str (plainText 2)), .none)] := by decide +kernel
  refine ⟨accounts, t, n, found, ⟨d, mem, named⟩, held, lost, fun all => ?_⟩
  have kept := (all.kept d mem _ List.mem_cons_self named).2
  rw [lost, show twoSitesDatabase.tables = twoSites from rfl, held] at kept
  cases kept

/-- A second operator with a grant of its own, beside the accounts of `twoSites`. -/
def twoOperators : Tables
  | .user => [storedAccount 4 "operator", storedAccount 6 "operator", storedAccount 9 "org_admin"]
  | .userSiteAccess => [rowWith [("id", .uuid 5), ("user_id", .uuid 4), ("site_id", .uuid 2)],
      rowWith [("id", .uuid 11), ("user_id", .uuid 6), ("site_id", .uuid 3)]]
  | kind => twoSites kind

/-- The grant of the second operator under the identifier of the first one's, and no administrator. -/
def takenGrant : Dict :=
  vaultOf [archivedAccount 6 "ben" "operator" true, archivedAccount 9 "root" "org_admin" false]
    [archivedGrant 5 6 3]

/-- The unique index of grants stops the restore in front of the check that its preview fails. -/
example : raised (restoreData plainVault.call true true twoOperators takenGrant) = some organizationLost ∧
    raised (restoreData plainVault.call false true twoOperators takenGrant) = some databaseError ∧
    restoreRefused plainVault.call twoOperators takenGrant = true := by decide +kernel

end FreeSdn.Backup.Core
