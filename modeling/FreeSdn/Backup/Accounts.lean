import FreeSdn.Lib.Except
import FreeSdn.Backup.Restore
import Mathlib.Algebra.Ring.Int.Defs

/-! The account part of a vault (`services/backup_contributors/account_security.py`): archived
providers, users and grants are validated as one snapshot, and an archived account is merged with
the live one only when neither gains anything by it. -/

namespace FreeSdn.Backup

open FreeSdn.Lib

abbrev Error := String

def incomplete : Error := "Incomplete or invalid portable account-security data."

/-- The texts of account data, which the restore only passes on: their formats, and the cipher of
single fields. -/
structure Formats where
  /-- The checks of `validate_provider` on everything but identifiers and protocol. -/
  provider : Dict → Except Error Unit
  /-- The checks of `validate_user` on names, preferences, seeds, backup codes and password hash. -/
  user : Dict → Except Error Unit
  /-- `_time` and `isoformat`. -/
  isoTime : Json → Except Error Json
  /-- The later of two times, as `merge_existing_user` writes it. -/
  latest : Value → Value → Except Error Value
  /-- A stored seed, decrypted, when it is a portable one. -/
  plainSeed : Value → Except Error Value
  /-- The backup codes that both sides still have. -/
  mergeCodes : Value → Value → Except Error Value
  encryptField : Value → Value
  decryptField : Value → Value
  /-- `_time`, for a column. -/
  readTime : Value → Except Error Value
  /-- An encrypted provider secret fits its column. -/
  fits : Value → Bool

def userFields : List String :=
  ["id", "organization_id", "username", "email", "full_name", "language", "preferences",
   "hashed_password", "role", "is_active", "is_verified", "mfa_enabled", "mfa_secret",
   "mfa_backup_codes", "mfa_pending_secret", "mfa_pending_backup_codes", "mfa_last_totp_step",
   "token_version", "failed_login_attempts", "locked_until", "last_login", "auth_provider",
   "external_id", "sso_provider_id"]

def providerFields : List String :=
  ["id", "organization_id", "name", "slug", "description", "protocol", "status", "icon_url",
   "display_order", "oidc_issuer", "oidc_client_id", "oidc_client_secret", "oidc_scopes",
   "oidc_discovery_url", "saml_entity_id", "saml_sso_url", "saml_slo_url", "saml_certificate",
   "saml_signing_key", "saml_name_id_format", "ldap_url", "ldap_bind_dn", "ldap_bind_password",
   "ldap_base_dn", "ldap_user_search_filter", "ldap_group_search_filter", "ldap_use_tls",
   "ldap_tls_ca_cert", "attribute_mapping", "role_mapping", "jit_provisioning", "default_role",
   "extra_settings"]

def providerSecrets : List String := ["oidc_client_secret", "saml_signing_key", "ldap_bind_password"]

def userSeeds : List String := ["mfa_secret", "mfa_pending_secret"]

def userTimes : List String := ["last_login", "locked_until"]

def grantFields : List String := ["id", "user_id", "site_id", "access_level"]

/-- `UserRole`. -/
def roles : List String := ["super_admin", "org_admin", "site_admin", "operator", "viewer"]

/-! ### Administrators -/

/-- The account is active and has one of the roles. -/
def activeRole (wanted : List String) (active role : Value) : Bool :=
  active = .json (.bool true) && wanted.any fun r => role = .json (.str r)

/-- `administrator_bits`. -/
def administratorBits (active role : Value) : Bool × Bool :=
  (activeRole ["org_admin", "super_admin"] active role, activeRole ["super_admin"] active role)

/-- What an account contributes before and after a restore. -/
structure Transition where
  before : Bool × Bool
  after : Bool × Bool
  deriving DecidableEq

/-- Administrators of one kind that a batch adds, less those that it takes away. -/
def gained (bit : Bool × Bool → Bool) (ts : List Transition) : Int :=
  (ts.map fun t => ((bit t.after).toNat : Int) - (bit t.before).toNat).sum

/-! ### The snapshot -/

section

variable (py : Python) (f : Formats) (org : Uuid)

/-- `value[key]`, nothing when there is none. -/
def member (d : Dict) (field : String) : Json := (d.lookup field).getD .null

/-- `_record`. -/
def pick (fields : List String) : Json → Except Error Dict
  | .obj members =>
    fields.mapM fun field => (orRaise (members.lookup field) incomplete).map fun v => (field, v)
  | _ => .error incomplete

/-- `_uuid`: the identifier of a text in canonical form. -/
def canonicalUuid : Json → Except Error Uuid
  | .str text =>
    match py.readUuid text with
    | some id => if py.str (.uuid id) = text then .ok id else .error incomplete
    | none => .error incomplete
  | _ => .error incomplete

/-- The record names this organization. -/
def requireOrganization (row : Dict) : Except Error Unit := do
  let named ← canonicalUuid py (member row "organization_id")
  require (py.str (.uuid named) = py.str (.uuid org)) incomplete

def protocols : List Json := [.str "oidc", .str "saml", .str "ldap"]

def validateProvider (record : Json) : Except Error Dict := do
  let row ← pick providerFields record
  let _ ← canonicalUuid py (member row "id")
  requireOrganization py org row
  require (protocols.any fun p => member row "protocol" = p) incomplete
  f.provider row
  .ok row

def isBool : Json → Bool
  | .bool _ => true
  | _ => false

/-- `_integer`. -/
def isInteger (least most : Int) : Json → Bool
  | .int n => least ≤ n && n ≤ most
  | _ => false

/-- The binding to a provider: an external account needs a provider of its own protocol. -/
def requireBinding (providers : List Dict) (row : Dict) : Except Error Unit :=
  if protocols.any fun p => member row "auth_provider" = p then do
    let id ← canonicalUuid py (member row "sso_provider_id")
    require (providers.any fun p => member p "id" = .str (py.str (.uuid id)) &&
      member p "protocol" = member row "auth_provider") incomplete
  else
    require ((member row "auth_provider" = .null || member row "auth_provider" = .str "local") &&
      member row "external_id" = .null && member row "sso_provider_id" = .null) incomplete

/-- The times of an account in the form of `isoformat`. -/
def isoTimes (row : Dict) : Except Error Dict :=
  row.mapM fun m => if m.1 ∈ userTimes then (f.isoTime m.2).map fun t => (m.1, t) else .ok m

def validateUser (providers : List Dict) (record : Json) : Except Error Dict := do
  let row ← pick userFields record
  let _ ← canonicalUuid py (member row "id")
  requireOrganization py org row
  require (roles.any fun r => member row "role" = .str r) incomplete
  require (["is_active", "is_verified", "mfa_enabled"].all fun field => isBool (member row field))
    incomplete
  require (isInteger 0 (2 ^ 31 - 2) (member row "token_version") &&
    isInteger 0 (2 ^ 31 - 1) (member row "failed_login_attempts")) incomplete
  require (member row "mfa_last_totp_step" = .null ||
    isInteger 0 (2 ^ 63 - 1) (member row "mfa_last_totp_step")) incomplete
  let row ← isoTimes f row
  requireBinding py providers row
  f.user row
  .ok row

/-- The external identity of an account. -/
def binding (row : Dict) : Json × Json := (member row "sso_provider_id", member row "external_id")

def grantPair (row : Dict) : Json × Json := (member row "user_id", member row "site_id")

def addProvider (providers : List Dict) (record : Json) : Except Error (List Dict) := do
  let row ← validateProvider py f org record
  require (providers.all fun p => member p "id" ≠ member row "id") incomplete
  .ok (providers ++ [row])

def addUser (providers users : List Dict) (record : Json) : Except Error (List Dict) := do
  let row ← validateUser py f org providers record
  require (users.all fun u => member u "id" ≠ member row "id") incomplete
  require (users.all fun u => member row "sso_provider_id" = .null || binding u ≠ binding row)
    incomplete
  .ok (users ++ [row])

def accessLevels : List Json := [.null, .str "read", .str "write", .str "admin"]

def addGrant (users grants : List Dict) (record : Json) : Except Error (List Dict) := do
  let row ← pick grantFields record
  let _ ← canonicalUuid py (member row "id")
  let _ ← canonicalUuid py (member row "user_id")
  let _ ← canonicalUuid py (member row "site_id")
  require (accessLevels.any fun level => member row "access_level" = level) incomplete
  require (grants.all fun g => member g "id" ≠ member row "id" && grantPair g ≠ grantPair row)
    incomplete
  require (users.any fun u => member u "id" = member row "user_id") incomplete
  .ok (grants ++ [row])

/-- The accounts of a vault. -/
structure Snapshot where
  providers : List Dict
  users : List Dict
  grants : List Dict

/-- A list of the archive. -/
def listOf (data : Dict) (key : String) : Except Error (List Json) :=
  match member data key with
  | .arr items => .ok items
  | _ => .error incomplete

/-- `validate_snapshot`. -/
def validateSnapshot (data : Dict) : Except Error Snapshot := do
  require (member data "account_security_format" = .str "2.0.0")
    "This archive lacks complete account security; re-export a supported full vault."
  let archivedUsers ← listOf data "users"
  let archivedProviders ← listOf data "sso_providers"
  let archivedGrants ← listOf data "user_site_access"
  let providers ← archivedProviders.foldlM (addProvider py f org) []
  let users ← archivedUsers.foldlM (addUser py f org providers) []
  let grants ← archivedGrants.foldlM (addGrant py users) []
  .ok ⟨providers, users, grants⟩

end

/-! ### Merging with the live rows -/

section

variable (py : Python) (f : Formats)

/-- An identifier column as JSON carries it. -/
def textOf : Value → Value
  | .uuid id => .json (.str (py.str (.uuid id)))
  | v => v

def identityFields : List String :=
  ["role", "hashed_password", "mfa_enabled", "auth_provider", "external_id"]

def integerValue (least most : Int) : Value → Bool
  | .json v => isInteger least most v
  | .uuid _ => false

def boolValue : Value → Bool
  | .json v => isBool v
  | .uuid _ => false

/-- Two sets of grants are equal. -/
def sameGrants (xs ys : List (Value × Value)) : Bool :=
  xs.all (fun g => g ∈ ys) && ys.all fun g => g ∈ xs

/-- `a and b`, of two flags. -/
def bothTrue (a b : Value) : Value := if a = .json (.bool true) then b else a

def larger : Value → Value → Value
  | .json (.int a), .json (.int b) => .json (.int (max a b))
  | .json .null, b => b
  | a, _ => a

/-- Nothing about the live account speaks against the archived one. -/
def requireSameAccount (archived : Record) (current : Row)
    (currentGrants archivedGrants : List (Value × Value)) : Except Error Unit := do
  require (identityFields.all fun field => archived.get field = current.column field)
    "Account identity or authority conflicts with newer destination state."
  require (archived.get "sso_provider_id" = textOf py (current.column "sso_provider_id")) incomplete
  require (sameGrants currentGrants archivedGrants)
    "Account site permissions conflict with destination state."
  userSeeds.forM fun field => do
    let plain ← f.plainSeed (current.column field)
    require (archived.get field = plain) "Account MFA state conflicts with destination state."
  require (integerValue 0 (2 ^ 31 - 2) (current.column "token_version") &&
    integerValue 0 (2 ^ 31 - 1) (current.column "failed_login_attempts") &&
    (current.column "mfa_last_totp_step" = .none ||
      integerValue 0 (2 ^ 63 - 1) (current.column "mfa_last_totp_step"))) incomplete
  require (boolValue (current.column "is_active") && boolValue (current.column "is_verified"))
    incomplete

/-- Several fields set, one after the other. -/
def Record.setAll (rec : Record) (fs : List (String × Value)) : Record :=
  fs.foldl (fun r m => r.set m.1 m.2) rec

/-- `merge_existing_user`. -/
def mergeExistingUser (archived : Record) (current : Row)
    (currentGrants archivedGrants : List (Value × Value)) : Except Error Record := do
  requireSameAccount py f archived current currentGrants archivedGrants
  let lockedUntil ← f.latest (archived.get "locked_until") (current.column "locked_until")
  let lastLogin ← f.latest (archived.get "last_login") (current.column "last_login")
  let codes ← f.mergeCodes (archived.get "mfa_backup_codes") (current.column "mfa_backup_codes")
  let pending ← f.mergeCodes (archived.get "mfa_pending_backup_codes")
    (current.column "mfa_pending_backup_codes")
  .ok (archived.setAll
    [("is_active", bothTrue (archived.get "is_active") (current.column "is_active")),
     ("is_verified", bothTrue (archived.get "is_verified") (current.column "is_verified")),
     ("failed_login_attempts", larger (archived.get "failed_login_attempts")
       (current.column "failed_login_attempts")),
     ("locked_until", lockedUntil), ("last_login", lastLogin),
     ("mfa_last_totp_step", larger (archived.get "mfa_last_totp_step")
       (current.column "mfa_last_totp_step")),
     ("mfa_backup_codes", codes), ("mfa_pending_backup_codes", pending)])

/-- The fields that describe a provider without any security meaning. -/
def descriptive : List String :=
  ["id", "organization_id", "name", "description", "icon_url", "display_order"]

/-- `require_same_provider_security`. -/
def requireSameProviderSecurity (archived : Record) (current : Row) : Except Error Unit :=
  require (providerFields.all fun field => field ∈ descriptive ||
    (if field ∈ providerSecrets then f.decryptField (current.column field)
      else current.column field) = archived.get field)
    "Provider security conflicts with newer destination state."

/-- A seed or a time of an account, as its column holds it. -/
def destinationMember (m : String × Value) : Except Error (String × Value) :=
  if m.1 ∈ userSeeds then .ok (m.1, f.encryptField m.2)
  else if m.1 ∈ userTimes then (f.readTime m.2).map fun t => (m.1, t)
  else .ok m

/-- `destination_fields`. -/
def destinationFields (provider : Bool) (record : Record) : Except Error Record :=
  if provider then do
    let sealed := Record.mk (record.fields.map fun m =>
      if m.1 ∈ providerSecrets then (m.1, f.encryptField m.2) else m)
    require (["oidc_client_secret", "ldap_bind_password"].all fun field => f.fits (sealed.get field))
      incomplete
    .ok sealed
  else (record.fields.mapM (destinationMember f)).map Record.mk

end

end FreeSdn.Backup
