import FreeSdn.Backup.Accounts
import FreeSdn.Lib.JsonText

/-! The texts of account data in a vault: password hashes, recovery codes and seeds
(`services/backup_contributors/account_security_codec.py`), times, and the cipher of single fields
(`core/security_utils.py`). -/

namespace FreeSdn.Backup

open FreeSdn.Lib

/-- An aware `datetime`: microseconds since the epoch, and its offset in microseconds. -/
structure Time where
  instant : Int
  offset : Int
  deriving DecidableEq

/-- What account data takes from Python and from the field cipher. -/
structure Codec where
  /-- `datetime.fromisoformat`, of a text with an offset. -/
  fromIsoformat : String → Option Time
  isoformat : Time → String
  fromIsoformat_isoformat : ∀ t, fromIsoformat (isoformat t) = some t
  /-- `json.loads`. -/
  loads : String → Option Json
  loads_dumps : ∀ codes : List String,
    loads (String.ofList (Json.dumps (.arr (codes.map .str)))) = some (.arr (codes.map .str))
  encrypt : String → String
  /-- Nothing stands for `InvalidToken`. -/
  decrypt : String → Option String
  decrypt_encrypt : ∀ text, decrypt (encrypt text) = some text
  /-- The checks of `validate_provider` on everything but identifiers and protocol. -/
  provider : Dict → Except Error Unit

/-! ### Hashes and seeds -/

/-- The value of a base64 character. -/
def base64Value (c : Char) : Option Nat :=
  if 'A' ≤ c ∧ c ≤ 'Z' then some (c.toNat - 65)
  else if 'a' ≤ c ∧ c ≤ 'z' then some (c.toNat - 71)
  else if '0' ≤ c ∧ c ≤ '9' then some (c.toNat + 4)
  else if c = '+' then some 62
  else if c = '/' then some 63
  else none

/-- Base64 characters without padding that encode whole bytes: the bits left over in the last one are
zero, so that encoding what was decoded gives the same text. -/
def isBase64 (length spare : Nat) (cs : List Char) : Bool :=
  cs.length = length && cs.all (fun c => (base64Value c).isSome) &&
    (cs.getLast?.bind base64Value).all fun v => v % spare = 0

def argon2Profile : List Char := "$argon2id$v=19$m=65536,t=3,p=4$".toList

/-- `require_argon2_hash`: a salt of 16 bytes and a hash of 32. -/
def isArgon2Hash (text : String) : Bool :=
  let cs := text.toList
  let rest := cs.drop argon2Profile.length
  argon2Profile.isPrefixOf cs && isBase64 22 16 (rest.take 22) && rest[22]? = some '$' &&
    isBase64 43 4 (rest.drop 23)

def unsupportedHash : Error := "Unsupported account password or recovery-code hash."

/-- `require_password_hash`. -/
def requirePasswordHash (value : Json) (active external : Bool) : Except Error Unit :=
  match value with
  | .str "!SSO_MANAGED" => require external "External account marker requires a valid provider binding."
  | .str "!" => require (!active && !external) "Disabled profile marker cannot enable an account."
  | .str text => require (isArgon2Hash text) unsupportedHash
  | _ => .error unsupportedHash

def isBase32 (c : Char) : Bool := ('A' ≤ c && c ≤ 'Z') || ('2' ≤ c && c ≤ '7')

/-- A seed of 20 bytes: 32 base32 characters leave no bits over. -/
def isSeed (text : String) : Bool := text.length = 32 && text.toList.all isBase32

/-- `require_portable_seed`. -/
def requirePortableSeed : Value → Except Error Unit
  | .json .null => .ok ()
  | .json (.str text) => require (isSeed text) "Unsupported portable MFA seed."
  | _ => .error "Unsupported portable MFA seed."

section

variable (k : Codec)

/-! ### Recovery codes -/

def invalidCodes : Error := "Invalid MFA recovery-code list."

/-- One code of a list. -/
def readCode : Json → Except Error String
  | .str text => (require (isArgon2Hash text) unsupportedHash).map fun _ => text
  | _ => .error unsupportedHash

/-- The codes of a list. -/
def readCodes : Json → Except Error (List String)
  | .arr items => do
    require (items.length ≤ 10) invalidCodes
    let codes ← items.mapM readCode
    require codes.Nodup "Duplicate MFA recovery-code hashes."
    .ok codes
  | _ => .error invalidCodes

/-- `require_backup_code_hashes`. -/
def requireBackupCodeHashes : Value → Except Error (Option (List String))
  | .json .null => .ok none
  | .json (.str text) => do
    require (text.length ≤ 4096 && text.utf8ByteSize ≤ 4096) invalidCodes
    let items ← orRaise (k.loads text) invalidCodes
    (readCodes items).map some
  | _ => .error invalidCodes

/-- A stored list of codes. -/
def dumpCodes (codes : List String) : Value :=
  .json (.str (String.ofList (Json.dumps (.arr (codes.map .str)))))

/-- The codes of `existing_codes` that the archive has too. -/
def mergeCodes (archived existing : Value) : Except Error Value := do
  let archivedCodes ← requireBackupCodeHashes k archived
  let existingCodes ← requireBackupCodeHashes k existing
  match existingCodes, archivedCodes with
  | some existing, some archived => .ok (dumpCodes (existing.filter fun code => code ∈ archived))
  | _, _ => .ok .none

/-! ### Times -/

/-- The time of a column, which holds its `isoformat`. -/
def columnTime : Value → Option Time
  | .json (.str text) => k.fromIsoformat text
  | _ => none

/-- `_time`, of an archived value. -/
def readTime : Value → Except Error (Option Time)
  | .json .null => .ok none
  | .json (.str text) => do
    require (text.length ≤ 40) incomplete
    (orRaise (k.fromIsoformat text) incomplete).map some
  | _ => .error incomplete

def writeTime : Option Time → Value
  | none => .none
  | some t => .json (.str (k.isoformat t))

/-- `max(times)`, of the times that are there. -/
def maxTime : Option Time → Option Time → Option Time
  | some a, some b => if a.instant < b.instant then some b else some a
  | none, b => b
  | a, none => a

/-- The later of an archived time and that of a column. -/
def latest (archived current : Value) : Except Error Value :=
  (readTime k archived).map fun a => writeTime k (maxTime a (columnTime k current))

/-- `_time` and `isoformat`, in a record. -/
def isoTime (v : Json) : Except Error Json :=
  (readTime k (.json v)).map fun
    | none => .null
    | some t => .str (k.isoformat t)

/-! ### The cipher of fields -/

def fernetPrefix : List Char := "fernet:".toList

/-- `encrypt_field`. -/
def encryptField : Value → Value
  | .json (.str text) =>
    if text = "" then .json (.str text) else .json (.str (String.ofList fernetPrefix ++ k.encrypt text))
  | v => v

/-- `decrypt_field`: what has no prefix was stored before there was a cipher. -/
def decryptField : Value → Except Error Value
  | .json (.str text) =>
    if fernetPrefix.isPrefixOf text.toList then
      (orRaise (k.decrypt (String.ofList (text.toList.drop fernetPrefix.length))) "InvalidToken").map
        fun plain => .json (.str plain)
    else .ok (.json (.str text))
  | v => .ok v

/-- A stored seed, decrypted. -/
def plainSeed (stored : Value) : Except Error Value := do
  let plain ← decryptField k stored
  requirePortableSeed plain
  .ok plain

/-! ### An archived account -/

/-- `_string`. -/
def isString (most : Nat) (nullable empty : Bool) : Json → Bool
  | .null => nullable
  | .str text => text.length ≤ most && (empty || text ≠ "")
  | _ => false

mutual

/-- `json.dumps` with `allow_nan=False` does not raise. -/
def finite : Json → Bool
  | .float t => t.chars ≠ "NaN".toList && t.chars ≠ "Infinity".toList && t.chars ≠ "-Infinity".toList
  | .arr items => finiteItems items
  | .obj members => finiteMembers members
  | _ => true

def finiteItems : List Json → Bool
  | [] => true
  | v :: items => finite v && finiteItems items

def finiteMembers : List (String × Json) → Bool
  | [] => true
  | m :: members => finite m.2 && finiteMembers members

end

/-- `_json_object`. -/
def isJsonObject : Json → Bool
  | .obj members => finiteMembers members && (Json.dumps (.obj members)).length ≤ 65536
  | _ => false

/-- The account authenticates at a provider. -/
def isExternal (row : Dict) : Bool := protocols.any fun p => member row "auth_provider" = p

/-- The checks of `validate_user` on texts. -/
def checkUserTexts (row : Dict) : Except Error Unit := do
  require (isString 100 false false (member row "username") &&
    isString 255 false false (member row "email") && isString 255 true true (member row "full_name") &&
    isString 10 false false (member row "language") && isJsonObject (member row "preferences"))
    incomplete
  userSeeds.forM fun field => requirePortableSeed (.json (member row field))
  ["mfa_backup_codes", "mfa_pending_backup_codes"].forM fun field => do
    let _ ← requireBackupCodeHashes k (.json (member row field))
  require (member row "mfa_enabled" = .bool (truthy (.json (member row "mfa_secret")))) incomplete
  require (member row "mfa_secret" ≠ .null || member row "mfa_backup_codes" = .null) incomplete
  require (decide (member row "mfa_pending_secret" = .null) =
    decide (member row "mfa_pending_backup_codes" = .null)) incomplete
  require (isString 50 true false (member row "auth_provider") &&
    (!isExternal row || isString 512 false false (member row "external_id"))) incomplete
  requirePasswordHash (member row "hashed_password") (member row "is_active" = .bool true)
    (isExternal row)

/-- The formats of a vault. -/
def Codec.formats : Formats where
  provider := k.provider
  user := checkUserTexts k
  isoTime := isoTime k
  latest := latest k
  plainSeed := plainSeed k
  mergeCodes := mergeCodes k
  encryptField := encryptField k
  -- a secret that cannot be decrypted equals no archived value
  decryptField v := ((decryptField k v).toOption).getD (.uuid 0)
  readTime v := (readTime k v).map (writeTime k)
  fits
    | .json (.str text) => text.length ≤ 512
    | _ => true

/-! ### What the codec keeps -/

/-- The codes of a column. -/
def codesOf : Value → List String
  | .json (.str text) =>
    match k.loads text with
    | some (.arr items) => items.filterMap fun
        | .str code => some code
        | _ => none
    | _ => []
  | _ => []

variable {k}

theorem readCode_ok {item : Json} {code : String} (h : readCode item = .ok code) : item = .str code := by
  unfold readCode at h
  split at h
  · obtain ⟨_, -, rfl⟩ := map_ok h
    rfl
  · cases h

theorem mapM_readCode {items : List Json} {codes : List String}
    (all : List.Forall₂ (fun item code => readCode item = .ok code) items codes) :
    items = codes.map .str := by
  induction all with
  | nil => rfl
  | cons one _ ih => rw [readCode_ok one, ih, List.map_cons]

theorem readCodes_ok {items : List Json} {codes : List String} (h : readCodes (.arr items) = .ok codes) :
    items = codes.map .str := by
  obtain ⟨-, h⟩ := require_bind h
  obtain ⟨read, each, h⟩ := bind_ok h
  obtain ⟨-, h⟩ := require_bind h
  obtain rfl := Except.ok.inj h
  exact mapM_readCode (mapM_ok each)

theorem filterMap_str (codes : List String) :
    ((codes.map Json.str).filterMap fun
      | .str code => some code
      | _ => none) = codes := by
  rw [List.filterMap_map]
  exact List.filterMap_some

theorem codesOf_read {v : Value} {codes : Option (List String)}
    (h : requireBackupCodeHashes k v = .ok codes) : codesOf k v = codes.getD [] := by
  unfold requireBackupCodeHashes at h
  split at h
  · obtain rfl := Except.ok.inj h
    rfl
  · rename_i text
    obtain ⟨-, h⟩ := require_bind h
    obtain ⟨items, loaded, h⟩ := bind_ok h
    obtain ⟨codes, read, rfl⟩ := map_ok h
    cases items with
    | arr items =>
      rw [codesOf, orRaise_ok loaded, readCodes_ok read]
      exact filterMap_str codes
    | _ => cases read
  · cases h

theorem codesOf_dumpCodes (codes : List String) : codesOf k (dumpCodes codes) = codes := by
  unfold codesOf dumpCodes
  dsimp only
  rw [k.loads_dumps]
  exact filterMap_str codes

/-- The codes that remain are those of both sides, in the order of the stored ones. -/
theorem mergeCodes_ok {archived existing merged : Value} (h : mergeCodes k archived existing = .ok merged) :
    (codesOf k merged).Sublist (codesOf k existing) ∧
      ∀ code ∈ codesOf k merged, code ∈ codesOf k archived := by
  obtain ⟨a, readArchived, h⟩ := bind_ok h
  obtain ⟨e, readExisting, h⟩ := bind_ok h
  rw [codesOf_read readArchived, codesOf_read readExisting]
  split at h
  · rename_i existing archived
    obtain rfl := Except.ok.inj h
    rw [codesOf_dumpCodes]
    refine ⟨List.filter_sublist, fun code mem => ?_⟩
    exact of_decide_eq_true (List.mem_filter.mp mem).2
  · obtain rfl := Except.ok.inj h
    exact ⟨List.nil_sublist _, fun code mem => absurd mem List.not_mem_nil⟩

theorem columnTime_writeTime (t : Option Time) : columnTime k (writeTime k t) = t := by
  cases t with
  | none => rfl
  | some t => exact k.fromIsoformat_isoformat t

theorem columnTime_read {v : Value} {t : Option Time} (h : readTime k v = .ok t) :
    columnTime k v = t := by
  unfold readTime at h
  split at h
  · obtain rfl := Except.ok.inj h
    rfl
  · obtain ⟨-, h⟩ := require_bind h
    obtain ⟨t, read, rfl⟩ := map_ok h
    exact orRaise_ok read
  · cases h

theorem le_maxTime {a b : Option Time} {t : Time} (h : a = some t ∨ b = some t) :
    ∃ t', maxTime a b = some t' ∧ t.instant ≤ t'.instant := by
  cases a with
  | none => exact ⟨t, h.resolve_left (by simp), Int.le_refl _⟩
  | some x =>
    cases b with
    | none => exact ⟨t, h.resolve_right (by simp), Int.le_refl _⟩
    | some y =>
      rw [Option.some.injEq, Option.some.injEq] at h
      by_cases later : x.instant < y.instant
      · refine ⟨y, if_pos later, ?_⟩
        rcases h with rfl | rfl <;> omega
      · refine ⟨x, if_neg later, ?_⟩
        rcases h with rfl | rfl <;> omega

/-- The later time is none before the two. -/
theorem latest_ok {archived current merged : Value} {t : Time} (h : latest k archived current = .ok merged)
    (one : columnTime k archived = some t ∨ columnTime k current = some t) :
    ∃ t', columnTime k merged = some t' ∧ t.instant ≤ t'.instant := by
  obtain ⟨a, read, rfl⟩ := map_ok h
  rw [columnTime_writeTime]
  exact le_maxTime (columnTime_read read ▸ one)

/-- What was encrypted under a prefix is decrypted. -/
theorem decryptField_prefix (text : String) :
    decryptField k (.json (.str (String.ofList fernetPrefix ++ k.encrypt text))) =
      .ok (.json (.str text)) := by
  have chars : (String.ofList fernetPrefix ++ k.encrypt text).toList =
      fernetPrefix ++ (k.encrypt text).toList := by
    rw [String.toList_append, String.toList_ofList]
  unfold decryptField
  dsimp only
  rw [chars, if_pos (List.isPrefixOf_iff_prefix.mpr (List.prefix_append _ _)), List.drop_left,
    String.ofList_toList, k.decrypt_encrypt]
  rfl

/-- A seed that is encrypted again stays the seed. -/
theorem plainSeed_encrypt {stored plain : Value} (h : plainSeed k stored = .ok plain) :
    plainSeed k (encryptField k plain) = .ok plain := by
  obtain ⟨read, decrypted, h⟩ := bind_ok h
  obtain ⟨_, portable, h⟩ := bind_ok h
  obtain rfl := Except.ok.inj h
  have encrypted : decryptField k (encryptField k read) = .ok read := by
    cases read with
    | uuid id => cases portable
    | json v =>
      cases v with
      | null => rfl
      | str text =>
        have given : text ≠ "" := by
          rintro rfl
          exact absurd (require_ok portable) (by decide)
        rw [encryptField, if_neg given]
        exact decryptField_prefix text
      | _ => cases portable
  unfold plainSeed
  rw [ok_bind encrypted, ok_bind portable]

end

end FreeSdn.Backup
