import FreeSdn.Backup.Accounts

/-! The restore of core resources (`BackupService._restore_data` of `services/backup.py`): sites,
credentials, controllers, automation rules, devices and accounts, in dependency order.  A preview
runs the same loop without its writes, and keeps the rows that it would have written aside. -/

namespace FreeSdn.Backup.Core

open FreeSdn.Lib

/-- The mapped classes that the restore reads or writes. -/
inductive Kind
  | site
  | credential
  | controller
  | automationRule
  | device
  | ssoProvider
  | user
  | userSiteAccess
  | siteGroup
  | userSession
  | apiKey
  deriving DecidableEq

/-! ### Columns -/

/-- The columns of `AuditMixin`. -/
def audit : List String := ["created_at", "updated_at", "created_by", "updated_by"]

def siteModel : Model where
  columns := ["id", "organization_id", "name", "slug", "description", "address", "city", "country",
    "timezone", "time_format", "date_format", "site_group_id", "subnets", "gateway_ip", "settings",
    "is_active", "deleted_at"] ++ audit
  uuidFields := ["id", "organization_id", "site_group_id", "created_by", "updated_by"]
  default
    | "timezone" => .json (.str "UTC")
    | "time_format" => .json (.str "24h")
    | "date_format" => .json (.str "YYYY-MM-DD")
    | "subnets" => .json (.arr [])
    | "settings" => .json (.obj [])
    | "is_active" => .json (.bool true)
    | _ => .none

def credentialModel : Model where
  columns := ["id", "organization_id", "site_id", "name", "description", "credential_type", "scope",
    "vendor", "username", "encrypted_password", "api_key", "token", "ssh_private_key", "certificate",
    "snmp_community", "options", "is_default", "is_active", "last_used", "last_test_result",
    "deleted_at"] ++ audit
  uuidFields := ["id", "organization_id", "site_id", "created_by", "updated_by"]
  default
    | "scope" => .json (.str "global")
    | "options" => .json (.obj [])
    | "is_default" => .json (.bool false)
    | "is_active" => .json (.bool true)
    | _ => .none

def controllerModel : Model where
  columns := ["id", "site_id", "name", "description", "controller_type", "host", "port", "use_ssl",
    "verify_ssl", "credential_id", "status", "last_sync", "last_error", "config", "sync_enabled",
    "sync_interval_seconds", "is_active", "deleted_at"] ++ audit
  uuidFields := ["id", "site_id", "credential_id", "created_by", "updated_by"]
  default
    | "use_ssl" => .json (.bool true)
    | "verify_ssl" => .json (.bool true)
    | "status" => .json (.str "unknown")
    | "config" => .json (.obj [])
    | "sync_enabled" => .json (.bool true)
    | "sync_interval_seconds" => .json (.int 300)
    | "is_active" => .json (.bool true)
    | _ => .none

def automationRuleModel : Model where
  columns := ["id", "organization_id", "name", "description", "trigger_type", "trigger_config",
    "conditions", "actions", "status", "priority", "cooldown_seconds", "max_triggers_per_hour",
    "trigger_count", "last_triggered", "created_at", "updated_at", "created_by"]
  uuidFields := ["id", "organization_id", "created_by"]
  default
    | "trigger_config" => .json (.obj [])
    | "actions" => .json (.arr [])
    | "status" => .json (.str "active")
    | "priority" => .json (.int 0)
    | "cooldown_seconds" => .json (.int 60)
    | "max_triggers_per_hour" => .json (.int 100)
    | "trigger_count" => .json (.int 0)
    | _ => .none

def deviceModel : Model where
  columns := ["id", "controller_id", "site_id", "name", "mac_address", "serial_number", "external_id",
    "device_type", "model", "manufacturer", "firmware_version", "ip_address", "connection_type",
    "vlan_id", "location", "floor", "room", "status", "last_seen", "uptime_seconds",
    "cpu_usage_percent", "memory_usage_percent", "temperature_celsius", "device_metadata",
    "capabilities", "lifecycle_state", "lifecycle_changed_at", "lifecycle_error", "is_active",
    "is_managed", "notes", "is_adopted", "adopted_at", "adopted_by", "driver_id", "credential_id",
    "discovery_method", "discovery_data", "deleted_at"] ++ audit
  uuidFields := ["id", "controller_id", "site_id", "adopted_by", "credential_id", "created_by",
    "updated_by"]
  default
    | "status" => .json (.str "unknown")
    | "device_metadata" => .json (.obj [])
    | "capabilities" => .json (.obj [])
    | "lifecycle_state" => .json (.str "discovered")
    | "is_active" => .json (.bool true)
    | "is_managed" => .json (.bool true)
    | "is_adopted" => .json (.bool false)
    | "discovery_data" => .json (.obj [])
    | _ => .none

def ssoProviderModel : Model where
  columns := providerFields ++ "deleted_at" :: audit
  uuidFields := ["id", "organization_id", "created_by", "updated_by"]
  default
    | "status" => .json (.str "inactive")
    | "display_order" => .json (.int 0)
    | "oidc_scopes" => .json (.str "openid profile email")
    | "saml_name_id_format" =>
      .json (.str "urn:oasis:names:tc:SAML:1.1:nameid-format:emailAddress")
    | "ldap_user_search_filter" =>
      .json (.str "(&(objectClass=user)(sAMAccountName=\x7busername\x7d))")
    | "ldap_use_tls" => .json (.bool true)
    | "attribute_mapping" => .json (.obj [("email", .str "email"),
        ("username", .str "preferred_username"), ("full_name", .str "name")])
    | "role_mapping" => .json (.obj [])
    | "jit_provisioning" => .json (.bool true)
    | "default_role" => .json (.str "viewer")
    | "extra_settings" => .json (.obj [])
    | _ => .none

def userModel : Model where
  columns := userFields ++ "deleted_at" :: audit
  uuidFields := ["id", "organization_id", "sso_provider_id", "created_by", "updated_by"]
  default
    | "role" => .json (.str "viewer")
    | "mfa_enabled" => .json (.bool false)
    | "is_active" => .json (.bool true)
    | "is_verified" => .json (.bool false)
    | "failed_login_attempts" => .json (.int 0)
    | "token_version" => .json (.int 0)
    | "language" => .json (.str "en")
    | "preferences" => .json (.obj [])
    | _ => .none

def userSiteAccessModel : Model where
  columns := grantFields ++ audit
  uuidFields := ["id", "user_id", "site_id", "created_by", "updated_by"]
  default _ := .none

/-- Tables that the restore never inserts into. -/
def otherModel (columns : List String) : Model := ⟨columns, ["id"], fun _ => .none⟩

def Kind.model : Kind → Model
  | .site => siteModel
  | .credential => credentialModel
  | .controller => controllerModel
  | .automationRule => automationRuleModel
  | .device => deviceModel
  | .ssoProvider => ssoProviderModel
  | .user => userModel
  | .userSiteAccess => userSiteAccessModel
  | .siteGroup => otherModel (["id", "organization_id", "parent_id", "name", "description"] ++ audit)
  | .userSession => otherModel ["id", "user_id", "is_revoked", "revoked_at"]
  | .apiKey => otherModel (["id", "user_id", "is_active"] ++ audit)

/-! ### Unique indexes -/

/-- A unique index: its columns, and the rows that it covers. -/
structure Index where
  columns : List String
  covers : Row → Bool

/-- Two rows that the index does not allow; an empty column differs from every other. -/
def Index.rejects (i : Index) (row other : Row) : Bool :=
  row.column "id" ≠ other.column "id" && i.covers row && i.covers other &&
    i.columns.all fun g => row.column g ≠ .none && row.column g = other.column g

def live (row : Row) : Bool := row.column "deleted_at" = .none

/-- The unique indexes of the restored tables. -/
def Kind.indexes : Kind → List Index
  | .site => [⟨["organization_id", "slug"], live⟩]
  | .device => [
      ⟨["mac_address"], fun row => live row && row.column "mac_address" ≠ .json (.str "")⟩,
      ⟨["external_id"], fun _ => true⟩]
  | .ssoProvider => [⟨["slug"], fun _ => true⟩]
  | .user => [⟨["email"], live⟩, ⟨["username"], live⟩, ⟨["sso_provider_id", "external_id"], live⟩]
  | .userSiteAccess => [⟨["user_id", "site_id"], fun _ => true⟩]
  | _ => []

/-! ### Secrets -/

/-- Fernet under one key; `decrypt` raises on anything but its own tokens. -/
structure Cipher where
  encrypt : String → String
  decrypt : String → Option String

/-- `encrypt_credential`. -/
def encryptCredential (c : Cipher) (plaintext : String) : String :=
  if plaintext = "" then "" else c.encrypt plaintext

/-- `decrypt_credential`. -/
def decryptCredential (c : Cipher) (ciphertext : String) : Option String :=
  if ciphertext = "" then some "" else c.decrypt ciphertext

/-- `is_encrypted`. -/
def isEncrypted (v : String) : Bool :=
  decide (100 ≤ v.length) && "gAAAAA".toList.isPrefixOf v.toList

def controllerSecretConfigKeys : List String := ["password", "client_secret"]

def credentialSecretFields : List String :=
  ["encrypted_password", "api_key", "token", "ssh_private_key", "certificate", "snmp_community"]

/-- An archived secret under the key of this instance. -/
def sealText (c : Cipher) (v : String) : String :=
  if v ≠ "" && !isEncrypted v then encryptCredential c v else v

def sealMember (c : Cipher) (m : String × Json) : String × Json :=
  match m.2 with
  | .str v => if m.1 ∈ controllerSecretConfigKeys then (m.1, .str (sealText c v)) else m
  | _ => m

/-- The secrets of a record, encrypted again. -/
def sealField (c : Cipher) : Kind → String × Value → String × Value
  | .controller, ("config", .json (.obj members)) =>
    ("config", .json (.obj (members.map (sealMember c))))
  | .credential, (field, .json (.str v)) =>
    if field ∈ credentialSecretFields then (field, .json (.str (sealText c v)))
    else (field, .json (.str v))
  | _, m => m

/-! ### A restore -/

/-- The options of one call, and what it takes from its surroundings. -/
structure Call where
  py : Python
  /-- `UUID(str(id))` is `id`. -/
  readText : ∀ id, py.readUuid (py.str (.uuid id)) = some id
  /-- `dict(record)` of a value that is no dictionary, nothing when it raises. -/
  pairs : Json → Option Dict
  cipher : Cipher
  formats : Formats
  /-- The database takes a written row, as far as its types and its other constraints go. -/
  takes : Kind → Row → Bool
  org : Uuid
  overwriteExisting : Bool
  restoreDevices : Bool
  restoreUsers : Bool
  includeSecrets : Bool

/-- `dict(record)`. -/
def Call.dict (c : Call) : Json → Option Dict
  | .obj members => some members
  | other => c.pairs other

def Call.securityRestore (c : Call) : Bool := c.includeSecrets && c.restoreUsers

/-- `_BLOCKED_FIELDS`. -/
def Call.blocked (c : Call) : List String :=
  (if c.includeSecrets then ["id", "organization_id"]
   else ["id", "hashed_password", "password_hash", "role", "is_superuser", "mfa_secret",
     "organization_id"] ++ credentialSecretFields) ++ audit ++ ["deleted_at"]

/-- The database, table by table. -/
abbrev Tables := Kind → List Row

def Tables.put (t : Tables) (kind : Kind) (rows : List Row) : Tables :=
  fun k => if k = kind then rows else t k

/-- The loop between two records.  A loaded row is the row of the session, so a later look at it sees
what was written. -/
structure Progress where
  tables : Tables
  accepted : Kind → Value → Option Row
  moved : List (Kind × Value)
  preserved : List Value
  transitions : List Transition

def Progress.accept (s : Progress) (kind : Kind) (pk : Value) (row : Row) : Progress :=
  { s with accepted := fun k v => if k = kind ∧ v = pk then some row else s.accepted k v }

def load (t : Tables) (kind : Kind) (v : Value) : Option Row :=
  if v = .none then none else Table.lookup (t kind) v

/-- The row is live and has the organization. -/
def tenant (c : Call) (kind : Kind) (row : Row) : Bool :=
  kind.model.attr row "deleted_at" = .none && kind.model.attr row "organization_id" = .uuid c.org

def owned (c : Call) (t : Tables) : Kind → Row → Bool
  | .controller, row =>
    row.column "deleted_at" = .none && (load t .site (row.column "site_id")).any (tenant c .site)
  | .device, row =>
    row.column "deleted_at" = .none && (load t .site (row.column "site_id")).any (tenant c .site)
  | .userSiteAccess, row =>
    (load t .site (row.column "site_id")).any (tenant c .site) &&
      (load t .user (row.column "user_id")).any (tenant c .user)
  | kind, row => tenant c kind row

def reference (c : Call) (s : Progress) (kind : Kind) (v : Value) : Option Row :=
  if v = .none then none
  else
    match s.accepted kind v with
    | some row => some row
    | none => (load s.tables kind v).filter (owned c s.tables kind)

section

variable (c : Call)

/-! ### Reading a record -/

/-- What a record says by itself. -/
inductive Reading
  | skipped (rejected : Bool)
  | record (portable : Dict) (pk : Value) (record : Record)

/-- The secrets of a record, encrypted under the key of this instance. -/
def sealRecord (kind : Kind) (record : Record) : Record :=
  if c.includeSecrets then ⟨record.fields.map (sealField c.cipher kind)⟩ else record

/-- The organization and the identifier of a record. -/
def examineRecord (portable : Dict) (record : Record) : Reading :=
  let named := record.get "organization_id"
  if truthy named && c.py.str named ≠ c.py.str (.uuid c.org) then .skipped true
  else if !truthy (record.get "id") then .skipped false
  else .record portable (record.get "id") record

def examine (kind : Kind) (archived : Json) : Except Error Reading :=
  if kind = .userSiteAccess && !c.includeSecrets then .ok (.skipped false)
  else
    match c.dict archived with
    | none => .error "not a record"
    | some members =>
      match readFields c.py kind.model members with
      | none => .ok (.skipped false)
      | some fields => .ok (examineRecord c members (sealRecord c kind ⟨fields⟩))

/-- The value that a column will have: a kept row keeps its own. -/
def value (existing : Option Row) (record : Record) (field : String) : Value :=
  match existing with
  | none => record.get field
  | some row =>
    if c.overwriteExisting then (record.find field).getD (row.column field) else row.column field

/-- A credential serves the site. -/
def serves (site : Value) (credential : Row) : Bool :=
  credential.column "site_id" = .none || credential.column "site_id" = site

/-- The site and the credential of a controller or device. -/
def placed (s : Progress) (existing : Option Row) (record : Record) : Bool :=
  let site := value c existing record "site_id"
  let credential := value c existing record "credential_id"
  (reference c s .site site).isSome &&
    (credential = .none || (reference c s .credential credential).any (serves site))

def refsValid (s : Progress) (kind : Kind) (existing : Option Row) (record : Record) : Bool :=
  let value := value c existing record
  match kind with
  | .credential => value "site_id" = .none || (reference c s .site (value "site_id")).isSome
  | .controller => placed c s existing record
  | .device => placed c s existing record &&
      (value "controller_id" = .none || (reference c s .controller (value "controller_id")).any
        fun controller => controller.column "site_id" = value "site_id")
  | .userSiteAccess => (reference c s .site (value "site_id")).isSome &&
      (reference c s .user (value "user_id")).isSome
  | .site => value "site_group_id" = .none ||
      (reference c s .siteGroup (value "site_group_id")).isSome
  | .user => !c.includeSecrets || value "sso_provider_id" = .none ||
      (reference c s .ssoProvider (value "sso_provider_id")).isSome
  | _ => true

/-! ### Accounts -/

/-- The accounts whose archived state the vault restore answers for. -/
def Call.secured (kind : Kind) : Bool :=
  c.securityRestore && (kind = .user || kind = .userSiteAccess || kind = .ssoProvider)

/-- The archived record as it was sent. -/
def portableRecord (members : Dict) : Record := ⟨members.map fun m => (m.1, .json m.2)⟩

/-- A destination account other than `pk` has the archived external identity. -/
def collides (t : Tables) (pk : Value) (portable : Record) : Bool :=
  match portable.get "sso_provider_id" with
  | .json (.str text) => (t .user).any fun u =>
      (c.py.readUuid text).any (fun id => u.column "sso_provider_id" = .uuid id) &&
        u.column "external_id" = portable.get "external_id" &&
        u.column "deleted_at" = .none && u.column "id" ≠ pk
  | _ => false

/-- The grants of a live account. -/
def currentGrants (t : Tables) (user : Row) : List (Value × Value) :=
  ((t .userSiteAccess).filter fun g => g.column "user_id" = user.column "id").map fun g =>
    (textOf c.py (g.column "site_id"), g.column "access_level")

def archivedGrants (grants : List Dict) (user : Row) : List (Value × Value) :=
  (grants.filter fun g => Value.json (member g "user_id") = textOf c.py (user.column "id")).map
    fun g => (.json (member g "site_id"), .json (member g "access_level"))

/-- The next token version of a new account. -/
def nextVersion : Value → Value
  | .json (.int n) => .json (.int (n + 1))
  | v => v

/-- The archived account, merged with the live one. -/
def portableUser (t : Tables) (grants : List Dict) (pk : Value) (existing : Option Row)
    (portable : Record) : Except Error Record := do
  require (!((existing.isNone || c.overwriteExisting) && collides c t pk portable))
    ("External identity already belongs to another destination account; " ++
      "an explicit authenticated account migration is required.")
  match existing with
  | none => .ok (portable.set "token_version" (nextVersion (portable.get "token_version")))
  | some row =>
    if c.overwriteExisting then
      mergeExistingUser c.py c.formats portable row (currentGrants c t row)
        (archivedGrants c grants row)
    else .ok portable

/-- An identifier of an account record, read again. -/
def readMember (kind : Kind) (m : String × Value) : Except Error (String × Value) :=
  match m with
  | (field, .json (.str text)) =>
    if field ∈ kind.model.uuidFields then
      (orRaise (c.py.readUuid text) incomplete).map fun id => (field, .uuid id)
    else .ok (field, .json (.str text))
  | m => .ok m

def readRecord (kind : Kind) (record : Record) : Except Error Record :=
  (record.fields.mapM (readMember c kind)).map Record.mk

/-- The record that a vault restores for an account or a provider; others stay as they are. -/
def secureRecord (t : Tables) (grants : List Dict) (kind : Kind) (pk : Value) (existing : Option Row)
    (portable : Dict) (record : Record) : Except Error Record :=
  match c.securityRestore, kind with
  | true, .ssoProvider => do
    match existing with
    | some row => requireSameProviderSecurity c.formats (portableRecord portable) row
    | none => .ok ()
    let sealed ← destinationFields c.formats true (portableRecord portable)
    readRecord c kind sealed
  | true, .user => do
    let merged ← portableUser c t grants pk existing (portableRecord portable)
    let sealed ← destinationFields c.formats false merged
    readRecord c kind sealed
  | _, _ => .ok record

/-- A version that can still be counted up. -/
def validVersion : Value → Bool
  | .json (.int n) => 0 ≤ n && n < 2 ^ 31 - 1
  | _ => false

/-- An overwritten account gets a new token version, and stays disabled when it is. -/
def freshSession (kind : Kind) (existing : Option Row) (record : Record) : Except Error Record :=
  match existing with
  | some row =>
    if kind = .user && c.includeSecrets && c.overwriteExisting then do
      let current := row.column "token_version"
      let archived := (record.find "token_version").getD current
      require (validVersion current && validVersion archived)
        "Account restore requires valid non-exhausted token versions."
      let record := record.set "token_version" (nextVersion (larger current archived))
      if row.column "is_active" = .json (.bool false) && record.get "is_active" = .json (.bool true) then
        .ok (record.set "is_active" (.json (.bool false)))
      else .ok record
    else .ok record
  | none => .ok record

/-! ### The decision about a record -/

inductive Fate
  | skipped (rejected : Bool)
  | taken (existing : Option Row) (secured record : Record)

/-- The grant that the pair of account and site already has. -/
def samePair (t : Tables) (record : Record) : Option Row :=
  (t .userSiteAccess).find? fun g => g.column "user_id" = record.get "user_id" &&
    g.column "site_id" = record.get "site_id"

/-- The stored row of a record that the restore may write: the one with its identifier, for a grant
also the one with its pair. -/
def counterpart (t : Tables) (kind : Kind) (existing : Option Row) (record : Record) : Option Row :=
  if kind = .userSiteAccess then existing.or (samePair t record) else existing

/-- A record with valid references. -/
def resolve (s : Progress) (grants : List Dict) (kind : Kind) (portable : Dict) (pk : Value)
    (existing : Option Row) (record : Record) : Except Error Fate :=
  if c.securityRestore && kind = .userSiteAccess && s.preserved.contains (record.get "user_id") then
    .ok (.skipped false)
  else
    let existing := counterpart s.tables kind existing record
    if existing.any fun row => !owned c s.tables kind row then .ok (.skipped true)
    else do
      let secured ← secureRecord c s.tables grants kind pk existing portable record
      let record ← freshSession c kind existing secured
      .ok (.taken existing secured record)

def judge (s : Progress) (grants : List Dict) (kind : Kind) (portable : Dict) (pk : Value)
    (record : Record) : Except Error Fate :=
  let existing := load s.tables kind pk
  if existing.any fun row => !owned c s.tables kind row then
    if c.secured kind then
      .error "Account-security destination ownership conflicts with the archive."
    else .ok (.skipped true)
  else if !refsValid c s kind existing record then
    if c.secured kind then .error "Account-security restore requires every referenced parent."
    else .ok (.skipped true)
  else resolve c s grants kind portable pk existing record

/-! ### Writing -/

/-- The fields of a record that a restore may write. -/
def writable (kind : Kind) (record : Record) : Record :=
  ⟨record.fields.filter fun f => f.1 ∈ kind.model.columns && f.1 ∉ c.blocked⟩

def userProfileFields : List String := ["full_name", "language", "preferences"]

def userCreateFields : List String := userProfileFields ++ ["email", "username"]

/-- A configuration snapshot restores the profile of an account and nothing else. -/
def profileOnly (kind : Kind) (fields : List String) (record : Record) : Record :=
  if kind = .user && !c.includeSecrets then ⟨record.fields.filter fun f => f.1 ∈ fields⟩ else record

/-- The row after `setattr`. -/
def updatedRow (kind : Kind) (existing : Row) (record : Record) : Row :=
  overwriteRow existing (profileOnly c kind userProfileFields (writable c kind record))

/-- What an insert without secrets gives an account: no login. -/
def disabledAccount : List (String × Value) :=
  [("hashed_password", .json (.str "!")), ("role", .json (.str "viewer")),
   ("is_active", .json (.bool false)), ("is_verified", .json (.bool false))]

def insertedFields (kind : Kind) (record : Record) : Record :=
  let clean := profileOnly c kind userCreateFields (writable c kind record)
  if kind = .user && !c.includeSecrets then clean.setAll disabledAccount else clean

/-- A row with the given columns, the identifier of the record and the organization. -/
def rowOf (kind : Kind) (pk : Value) (fields : Record) (default : String → Value) : Row :=
  ⟨fun field => if field = "id" then pk
    else if field = "organization_id" && field ∈ kind.model.columns then .uuid c.org
    else (fields.find field).getD (default field)⟩

def insertedRow (kind : Kind) (pk : Value) (record : Record) : Row :=
  rowOf c kind pk (insertedFields c kind record) kind.model.default

/-- The row that a preview or an insert keeps aside for later references. -/
def virtualRow (kind : Kind) (pk : Value) (existing : Option Row) (record : Record) : Row :=
  match existing with
  | some row => if c.overwriteExisting then overwriteRow row (writable c kind record) else row
  | none => rowOf c kind pk (writable c kind record) fun _ => .none

/-- API keys and sessions of an account lose their access. -/
def revoke (t : Tables) (user : Value) : Tables :=
  (t.put .apiKey ((t .apiKey).map fun k =>
      if k.column "user_id" = user then
        ⟨fun field => if field = "is_active" then .json (.bool false) else k.column field⟩
      else k)).put .userSession ((t .userSession).map fun u =>
      if u.column "user_id" = user then
        ⟨fun field => if field = "is_revoked" then .json (.bool true) else u.column field⟩
      else u)

/-- The tables after the write. -/
def written (t : Tables) (kind : Kind) (pk : Value) (existing : Option Row) (record : Record) : Tables :=
  match existing with
  | some row =>
    if c.overwriteExisting then
      let t := t.put kind (Table.update (t kind) (row.column "id") fun _ => updatedRow c kind row record)
      if kind = .user && c.includeSecrets then revoke t (row.column "id") else t
    else t
  | none => t.put kind (t kind ++ [insertedRow c kind pk record])

/-- The row that a write leaves behind. -/
def writtenRow (kind : Kind) (pk : Value) (existing : Option Row) (record : Record) : Row :=
  match existing with
  | some row => if c.overwriteExisting then updatedRow c kind row record else row
  | none => insertedRow c kind pk record

/-- Another row has the columns of a unique index. -/
def clashes (t : Tables) (kind : Kind) (row : Row) : Bool :=
  kind.indexes.any fun i => (t kind).any (i.rejects row)

/-- The database takes the row that is flushed; a kept row is not. -/
def flushes (t : Tables) (kind : Kind) (pk : Value) (existing : Option Row) (record : Record) : Bool :=
  existing.isSome && !c.overwriteExisting ||
    let row := writtenRow c kind pk existing record
    !clashes t kind row && c.takes kind row

/-- What a refused flush raises. -/
def databaseError : Error := "DBAPIError"

/-- What later references see of the record. -/
def acceptedRow (dryRun : Bool) (kind : Kind) (pk : Value) (existing : Option Row) (record : Record) :
    Row :=
  match existing with
  | some row =>
    if dryRun then virtualRow c kind pk existing record
    else if c.overwriteExisting then updatedRow c kind row record else row
  | none => virtualRow c kind pk existing record

/-- A parent that changes its site. -/
def moves (kind : Kind) (existing : Option Row) (record : Record) : Bool :=
  (kind = .controller || kind = .credential) && c.overwriteExisting &&
    existing.any fun row => value c existing record "site_id" ≠ row.column "site_id"

/-- What the account contributes before and after. -/
def transition (existing : Option Row) (secured : Record) : Transition where
  before := (existing.map fun row =>
    administratorBits (row.column "is_active") (row.column "role")).getD (false, false)
  after := administratorBits (secured.get "is_active") (secured.get "role")

/-- The bookkeeping of a taken record. -/
def noted (s : Progress) (kind : Kind) (pk : Value) (existing : Option Row) (secured record : Record) :
    Progress :=
  let account := c.securityRestore && kind = .user
  { s with
    moved := if moves c kind existing record then s.moved ++ [(kind, pk)] else s.moved
    preserved := if account && existing.isSome && !c.overwriteExisting then
      s.preserved ++ [(existing.map (·.column "id")).getD .none] else s.preserved
    transitions := if account && (existing.isNone || c.overwriteExisting) then
      s.transitions ++ [transition existing secured] else s.transitions }

/-- The loop after a taken record. -/
def Progress.take (s : Progress) (dryRun : Bool) (kind : Kind) (pk : Value) (existing : Option Row)
    (secured record : Record) : Progress :=
  { noted c s kind pk existing secured record with
    tables := if dryRun then s.tables else written c s.tables kind pk existing record }.accept kind pk
      (acceptedRow c dryRun kind pk existing record)

structure Counts where
  created : Nat
  updated : Nat
  skipped : Nat
  rejectedCrossOrg : Nat
  deriving DecidableEq

/-- The counts of one resource. -/
structure Pass where
  progress : Progress
  seen : List Value
  counts : Counts

def Pass.skip (p : Pass) (rejected : Bool) : Pass :=
  { p with counts := { p.counts with
      skipped := p.counts.skipped + 1
      rejectedCrossOrg := p.counts.rejectedCrossOrg + rejected.toNat } }

/-- The counts after a taken record. -/
def Counts.take (n : Counts) (dryRun : Bool) (existing : Option Row) : Counts :=
  match existing with
  | some _ =>
    if c.overwriteExisting && !dryRun then { n with updated := n.updated + 1 }
    else { n with skipped := n.skipped + 1 }
  | none => { n with created := n.created + 1 }

def Pass.take (p : Pass) (dryRun : Bool) (kind : Kind) (pk : Value) (existing : Option Row)
    (secured record : Record) : Pass :=
  { p with
    progress := p.progress.take c dryRun kind pk existing secured record
    counts := Counts.take c p.counts dryRun existing }

/-- What follows a decision.  A preview flushes nothing. -/
def Pass.settle (p : Pass) (dryRun : Bool) (kind : Kind) (pk : Value) : Fate → Except Error Pass
  | .skipped rejected => .ok (p.skip rejected)
  | .taken existing secured record => do
    require (dryRun || flushes c p.progress.tables kind pk existing record) databaseError
    .ok (p.take c dryRun kind pk existing secured record)

/-- One record. -/
def restoreOne (dryRun : Bool) (grants : List Dict) (kind : Kind) (p : Pass) (archived : Json) :
    Except Error Pass := do
  match ← examine c kind archived with
  | .skipped rejected => .ok (p.skip rejected)
  | .record portable pk record =>
    require (pk ∉ p.seen) "Core restore contains duplicate resource identifiers."
    let p := { p with seen := p.seen ++ [pk] }
    let fate ← judge c p.progress grants kind portable pk record
    p.settle c dryRun kind pk fate

/-! ### The whole restore -/

/-- What a loop over a value of the archive goes over, nothing when it raises. -/
def items : Json → Option (List Json)
  | .arr items => some items
  | .obj members => some (members.map fun m => .str m.1)
  | .str text => some (text.toList.map fun ch => .str (String.ofList [ch]))
  | _ => none

def Kind.section : Kind → String
  | .site => "sites"
  | .credential => "credentials"
  | .controller => "controllers"
  | .automationRule => "automation_rules"
  | .device => "devices"
  | .ssoProvider => "sso_providers"
  | .user => "users"
  | .userSiteAccess => "user_site_access"
  | _ => ""

/-- `restore_map`. -/
def restoreMap : List Kind :=
  [.site, .credential, .controller, .automationRule] ++ (if c.restoreDevices then [.device] else []) ++
    if c.restoreUsers then (if c.securityRestore then [.ssoProvider] else []) ++ [.user, .userSiteAccess]
    else []

/-- The archive of one call: its data, with the validated accounts in the place of the archived. -/
structure Archive where
  data : Dict
  accounts : Option Snapshot

def Archive.grants (a : Archive) : List Dict := (a.accounts.map (·.grants)).getD []

/-- The records of a resource. -/
def Archive.records (a : Archive) (kind : Kind) : Except Error (List Json) :=
  match a.accounts, kind with
  | some accounts, .ssoProvider => .ok (accounts.providers.map .obj)
  | some accounts, .user => .ok (accounts.users.map .obj)
  | some accounts, .userSiteAccess => .ok (accounts.grants.map .obj)
  | _, kind =>
    match a.data.lookup kind.section with
    | none => .ok []
    | some value => orRaise (items value) "not iterable"

def restoreKind (dryRun : Bool) (a : Archive) (s : Progress) (kind : Kind) :
    Except Error (Progress × Counts) := do
  let records ← a.records kind
  let pass ← records.foldlM (restoreOne c dryRun a.grants kind) ⟨s, [], ⟨0, 0, 0, 0⟩⟩
  .ok (pass.progress, pass.counts)

def restoreKinds (dryRun : Bool) (a : Archive) : Progress → List Kind →
    Except Error (Progress × List (Kind × Counts))
  | s, [] => .ok (s, [])
  | s, kind :: kinds => do
    let (s, counts) ← restoreKind c dryRun a s kind
    let (s, rest) ← restoreKinds dryRun a s kinds
    .ok (s, (kind, counts) :: rest)

/-- The resources that reference a parent, and their column for it. -/
def dependents : Kind → List (Kind × String)
  | .controller => [(.device, "controller_id")]
  | _ => [(.controller, "credential_id"), (.device, "credential_id")]

/-- A retained dependent of a moved parent is left in another site. -/
def strands (s : Progress) (parent : Kind × Value) : Bool :=
  match s.accepted parent.1 parent.2 with
  | none => false
  | some row =>
    !(parent.1 = .credential && row.column "site_id" = .none) &&
      (dependents parent.1).any fun d => (s.tables d.1).any fun stored =>
        let child := (s.accepted d.1 (stored.column "id")).getD stored
        stored.column d.2 = parent.2 && child.column d.2 = parent.2 &&
          child.column "site_id" ≠ row.column "site_id"

/-- Live administrators of the organization, and of the platform. -/
def administrators (t : Tables) (bit : Bool × Bool → Bool) (inScope : Row → Bool) : Int :=
  ((t .user).countP fun u => u.column "deleted_at" = .none && inScope u &&
    bit (administratorBits (u.column "is_active") (u.column "role")) : Nat)

/-- An administrator loses its place. -/
def removes (s : Progress) (bit : Bool × Bool → Bool) : Bool :=
  s.transitions.any fun t => bit t.before && !bit t.after

/-- The administrators behind the restore; a preview projects them. -/
def remaining (dryRun : Bool) (s : Progress) (bit : Bool × Bool → Bool) (inScope : Row → Bool) : Int :=
  administrators s.tables bit inScope + if dryRun then gained bit s.transitions else 0

/-- `require_administrator_survivors`. -/
def requireAdministratorSurvivors (dryRun : Bool) (s : Progress) : Except Error Unit := do
  require (!(removes s Prod.snd && remaining dryRun s Prod.snd (fun _ => true) ≤ 0))
    "Vault restore would disable the last active platform super administrator."
  require (!(removes s Prod.fst &&
      remaining dryRun s Prod.fst (fun u => u.column "organization_id" = .uuid c.org) ≤ 0))
    "Vault restore would disable the last active administrator of this organization."

/-- The archive as the loops read it. -/
def openArchive (data : Dict) : Except Error Archive :=
  if c.securityRestore then
    (validateSnapshot c.py c.formats c.org data).map fun accounts => ⟨data, some accounts⟩
  else .ok ⟨data, none⟩

def start (t : Tables) : Progress := ⟨t, fun _ _ => none, [], [], []⟩

/-- The loops and the checks behind them. -/
def restoreArchive (dryRun : Bool) (t : Tables) (a : Archive) :
    Except Error (Tables × List (Kind × Counts)) := do
  let (s, counts) ← restoreKinds c dryRun a (start t) (restoreMap c)
  require (!(s.moved.any (strands s)))
    "Core restore would leave dependent resources in another site."
  if c.securityRestore then requireAdministratorSurvivors c dryRun s else .ok ()
  .ok (s.tables, counts)

/-- `_restore_data`; `lifecycleFree` tells whether the lock of account changes was free. -/
def restoreData (dryRun lifecycleFree : Bool) (t : Tables) (data : Dict) :
    Except Error (Tables × List (Kind × Counts)) := do
  let archive ← openArchive c data
  require (!(c.restoreUsers && !dryRun && !lifecycleFree))
    ("Account lifecycle changes are in progress. No core restore changes were applied; " ++
      "retry the vault restore.")
  restoreArchive c dryRun t archive

end

end FreeSdn.Backup.Core
