import FreeSdn.Audit.State
import Mathlib.Data.List.Infix

/-! Audit rows (`services/audit.py`): their columns, the canonical body that is signed, and how
`persist_record` completes and sanitizes a new row. -/

namespace FreeSdn.Audit

open FreeSdn.Lib

/-- The columns that a caller gives and `persist_record` passes on. -/
structure Details where
  action : String
  resourceType : String
  resourceId : Option String
  resourceName : Option String
  actorId : Option String
  actorName : Option String
  actorEmail : Option String
  organizationId : Option Uuid
  siteId : Option Uuid
  ipAddress : Option String
  userAgent : Option String
  sessionId : Option String
  requestId : Option String
  requestMethod : Option String
  requestPath : Option String
  responseCode : Option Int
  responseTimeMs : Option FloatText
  errorMessage : Option String
  deriving DecidableEq

/-- A row; a JSON column holds `null` for `None`. -/
structure AuditLogRecord where
  id : Uuid
  timestamp : Stamp
  details : Details
  actorType : String
  status : String
  changes : Json
  previousState : Json
  newState : Json
  tags : Json
  extraMetadata : Json
  appendSequence : Option Nat
  prevHash : Option String
  rowHmac : Option String
  deriving DecidableEq

/-! ### The signed body -/

/-- The keys that only a sequenced row has. -/
def sequenceMembers : Option Nat → Dict
  | none => []
  | some n => [("append_sequence", .int n), ("chain_format", .int 2)]

/-- `_canonical_row_json`, before it is written. -/
def canonicalRow (r : AuditLogRecord) : Json :=
  .obj ([("action", .str r.details.action), ("actor_email", optionJson .str r.details.actorEmail),
      ("actor_id", optionJson .str r.details.actorId),
      ("actor_name", optionJson .str r.details.actorName), ("actor_type", .str r.actorType)] ++
    sequenceMembers r.appendSequence ++
    [("changes", r.changes), ("error_message", optionJson .str r.details.errorMessage),
      ("extra_metadata", r.extraMetadata), ("id", .str r.id.text),
      ("ip_address", optionJson .str r.details.ipAddress), ("new_state", r.newState),
      ("organization_id", optionJson (fun id => .str id.text) r.details.organizationId),
      ("previous_state", r.previousState), ("request_id", optionJson .str r.details.requestId),
      ("request_method", optionJson .str r.details.requestMethod),
      ("request_path", optionJson .str r.details.requestPath),
      ("resource_id", optionJson .str r.details.resourceId),
      ("resource_name", optionJson .str r.details.resourceName),
      ("resource_type", .str r.details.resourceType),
      ("response_code", optionJson .int r.details.responseCode),
      ("response_time_ms", optionJson .float r.details.responseTimeMs),
      ("session_id", optionJson .str r.details.sessionId),
      ("site_id", optionJson (fun id => .str id.text) r.details.siteId),
      ("status", .str r.status), ("tags", r.tags),
      ("timestamp", .str (String.ofList r.timestamp.isoformat)),
      ("user_agent", optionJson .str r.details.userAgent)])

/-- What is signed: the previous hash, if any, in front of the body. -/
def message (prevHash : Option String) (r : AuditLogRecord) : List Char :=
  (prevHash.getD "").toList ++ (canonicalRow r).dumps

/-- `_compute_row_hmac`. -/
def computeRowHmac (mac : List Char → String) (prevHash : Option String) (r : AuditLogRecord) :
    String :=
  mac (message prevHash r)

/-- `verify_body`. -/
def verifyBody (mac : List Char → String) (r : AuditLogRecord) : Except String Unit :=
  match r.rowHmac with
  | none => raiseIf r.appendSequence.isSome "Unsigned sequenced audit row"
  | some signature =>
    raiseIf (computeRowHmac mac r.prevHash r != signature)
      "Audit row body or position signature mismatch"

/-- `position`. -/
def position (r : AuditLogRecord) : AuditPosition :=
  ⟨r.id, r.appendSequence, r.timestamp, r.rowHmac⟩

/-- The order of the chain. -/
def rowKey (r : AuditLogRecord) : Key := chainKey r.appendSequence r.timestamp r.id

@[simp] theorem positionKey_position (r : AuditLogRecord) : positionKey (position r) = rowKey r := rfl

theorem rowKey_id {r s : AuditLogRecord} (same : rowKey r = rowKey s) : r.id = s.id := by
  simp only [rowKey, chainKey, EmbeddingLike.apply_eq_iff_eq, Prod.mk.injEq] at same
  exact Uuid.text_injective same.2.2

/-! ### The body determines the row -/

theorem optionJson_injective {α : Type} {f : α → Json} (injective : Function.Injective f)
    (present : ∀ a, f a ≠ .null) : Function.Injective (optionJson f) := by
  intro a b same
  cases a with
  | none =>
    cases b with
    | none => rfl
    | some b => exact absurd same.symm (present b)
  | some a =>
    cases b with
    | none => exact absurd same (present a)
    | some b => exact congrArg some (injective same)

theorem optionJson_str {a b : Option String} : optionJson .str a = optionJson .str b ↔ a = b :=
  (optionJson_injective (fun _ _ => Json.str.inj) (by simp)).eq_iff

theorem optionJson_int {a b : Option Int} : optionJson .int a = optionJson .int b ↔ a = b :=
  (optionJson_injective (fun _ _ => Json.int.inj) (by simp)).eq_iff

theorem optionJson_float {a b : Option FloatText} :
    optionJson .float a = optionJson .float b ↔ a = b :=
  (optionJson_injective (fun _ _ => Json.float.inj) (by simp)).eq_iff

theorem optionJson_uuid {a b : Option Uuid} :
    optionJson (fun id : Uuid => .str id.text) a = optionJson (fun id : Uuid => .str id.text) b ↔
      a = b :=
  (optionJson_injective (fun _ _ same => Uuid.text_injective (Json.str.inj same)) (by simp)).eq_iff

theorem isoformat_text {a b : Stamp} :
    Json.str (String.ofList a.isoformat) = .str (String.ofList b.isoformat) ↔ a = b := by
  refine ⟨fun same => ?_, fun same => by rw [same]⟩
  have chars := congrArg String.toList (Json.str.inj same)
  rw [String.toList_ofList, String.toList_ofList] at chars
  exact Stamp.isoformat_injective chars

/-- Two rows with one body agree in all columns but the chain's own. -/
theorem canonicalRow_injective {r s : AuditLogRecord} (same : canonicalRow r = canonicalRow s) :
    s = { r with prevHash := s.prevHash, rowHmac := s.rowHmac } := by
  obtain ⟨id, stamp, ⟨⟩, actorType, status, changes, previous, new, tags, extra, sequence, _, _⟩ := r
  obtain ⟨id', stamp', ⟨⟩, actorType', status', changes', previous', new', tags', extra', sequence',
    _, _⟩ := s
  obtain rfl : sequence = sequence' := by
    cases sequence <;> cases sequence' <;>
      simp_all [canonicalRow, sequenceMembers]
  simp only [canonicalRow, Json.obj.injEq, List.cons_append, List.nil_append,
    List.cons.injEq, Prod.mk.injEq, true_and, List.append_cancel_left_eq, Json.str.injEq,
    optionJson_str, optionJson_int, optionJson_float, optionJson_uuid, and_true] at same
  obtain ⟨rfl, rfl, rfl, rfl, rfl, rfl, rfl, rfl, uuid, rfl, rfl, rfl, rfl, rfl, rfl, rfl, rfl, rfl,
    rfl, rfl, rfl, rfl, rfl, rfl, rfl, time, rfl⟩ := same
  obtain rfl := Uuid.text_injective uuid
  obtain rfl := isoformat_text.mp (congrArg Json.str time)
  rfl

/-! ### The message determines the previous hash -/

/-- A previous hash as the service links it: none, or a digest. -/
def HashOrNone (prevHash : Option String) : Prop := ∀ h, prevHash = some h → isHex64 h = true

theorem canonicalRow_open (r : AuditLogRecord) :
    ∃ rest, (canonicalRow r).dumps = Char.ofNat 123 :: rest := ⟨_, rfl⟩

/-- The hexadecimal digits in front of a message are its previous hash. -/
theorem message_prevHash {prevHash : Option String} (hash : HashOrNone prevHash)
    (r : AuditLogRecord) : (message prevHash r).takeWhile isHexLower = (prevHash.getD "").toList := by
  obtain ⟨rest, body⟩ := canonicalRow_open r
  have digits : ∀ c ∈ (prevHash.getD "").toList, isHexLower c = true := by
    cases prevHash with
    | none => simp
    | some h =>
      have valid := hash h rfl
      simp only [isHex64, Bool.and_eq_true] at valid
      exact List.all_eq_true.mp valid.2
  rw [message, body, List.takeWhile_append_of_pos digits, List.takeWhile_cons_of_neg (by decide),
    List.append_nil]

theorem hashOrNone_text {a b : Option String} (ha : HashOrNone a) (hb : HashOrNone b)
    (same : (a.getD "").toList = (b.getD "").toList) : a = b := by
  have long (h : String) (valid : isHex64 h = true) : h.toList ≠ [] := by
    simp only [isHex64, Bool.and_eq_true, beq_iff_eq] at valid
    intro empty
    simp [empty] at valid
  cases a with
  | none =>
    cases b with
    | none => rfl
    | some h => exact absurd (by simpa using same.symm) (long h (hb h rfl))
  | some g =>
    cases b with
    | none => exact absurd (by simpa using same) (long g (ha g rfl))
    | some h => exact congrArg some (String.toList_inj.mp (by simpa using same))

/-- Two messages are equal only for one previous hash and one body. -/
theorem message_injective {p q : Option String} {r s : AuditLogRecord} (hp : HashOrNone p)
    (hq : HashOrNone q) (same : message p r = message q s) :
    p = q ∧ canonicalRow r = canonicalRow s := by
  have fronts := congrArg (List.takeWhile isHexLower) same
  rw [message_prevHash hp, message_prevHash hq] at fronts
  obtain rfl := hashOrNone_text hp hq fronts
  exact ⟨rfl, Json.dumps_injective (List.append_cancel_left same)⟩

/-! ### New rows -/

/-- The fields whose values are redacted. -/
def sensitiveFields : List String :=
  ["password", "secret", "token", "api_key", "apikey", "credential", "private_key", "access_key",
   "secret_key", "keys", "tokens", "secrets", "passwords"]

def isSensitiveKey (lower : String → String) (key : String) : Bool :=
  sensitiveFields.any fun s => decide (s.toList <:+: (lower key).toList)

mutual
def sanitizeValue (lower : String → String) : Json → Json
  | .obj members => .obj (sanitizeDict lower members)
  | .arr items => .arr (sanitizeItems lower items)
  | v => v

def sanitizeItems (lower : String → String) : List Json → List Json
  | [] => []
  | v :: vs => sanitizeValue lower v :: sanitizeItems lower vs

def sanitizeDict (lower : String → String) : List (String × Json) → List (String × Json)
  | [] => []
  | (key, v) :: ms =>
    (key, if isSensitiveKey lower key then .str "[REDACTED]" else sanitizeValue lower v) ::
      sanitizeDict lower ms
end

/-- The occurrence time of a new row. -/
inductive Occurrence
  | missing | naive
  | aware (utc : Stamp)
  deriving DecidableEq

/-- A row given to `persist_record`. -/
structure Draft where
  isTransient : Bool
  id : Option Uuid
  timestamp : Occurrence
  details : Details
  actorType : Option String
  status : Option String
  changes : Option Dict
  previousState : Option Dict
  newState : Option Dict
  tags : Option (List Json)
  extraMetadata : Option Dict
  appendSequence : Option Nat
  prevHash : Option String
  rowHmac : Option String
  deriving DecidableEq

def Draft.occurred (d : Draft) (now : Stamp) : Except String Stamp :=
  match d.timestamp with
  | .missing => .ok now
  | .naive => .error "Audit occurrence timestamp must include a timezone"
  | .aware utc => .ok utc

/-- `persist_record` before the chain lock: the checks, the defaults and `_sanitize_entry`. -/
def Draft.complete (lower : String → String) (d : Draft) (generated : Uuid) (now : Stamp) :
    Except String AuditLogRecord := do
  raiseIf (!d.isTransient) "Audit persistence accepts only new transient rows"
  raiseIf (d.rowHmac.isSome || d.prevHash.isSome)
    "Audit persistence does not import existing signatures"
  raiseIf d.appendSequence.isSome "Audit persistence assigns its own append sequence"
  let timestamp ← d.occurred now
  let sanitize (column : Option Dict) : Json := optionJson .obj (column.map (sanitizeDict lower))
  .ok
    { id := d.id.getD generated, timestamp := timestamp, details := d.details
      actorType := d.actorType.getD "user", status := d.status.getD "success"
      changes := sanitize d.changes, previousState := sanitize d.previousState
      newState := sanitize d.newState, tags := .arr (d.tags.getD [])
      extraMetadata := .obj ((d.extraMetadata.map (sanitizeDict lower)).getD [])
      appendSequence := none, prevHash := none, rowHmac := none }

end FreeSdn.Audit
