import FreeSdn.Remote.Intent

/-! What the artifact store writes down (`services/agent_release_artifact_store.py`): the intent of an
owned artifact, the decision to clean it up, and the contents of the markers in its directory. -/

namespace FreeSdn.Artifact

open FreeSdn.Lib
open FreeSdn.Audit (Uuid isHex64)
open FreeSdn.Remote (utf8 loadsBytes)

inductive Kind
  | publish
  | delete
  deriving DecidableEq

def Kind.text : Kind → String
  | .publish => "publish"
  | .delete => "delete"

inductive Choice
  | cancelled
  | published
  | deleted
  deriving DecidableEq

def Choice.text : Choice → String
  | .cancelled => "cancelled"
  | .published => "published"
  | .deleted => "deleted"

def isNil (id : Uuid) : Bool := id.text == "00000000-0000-0000-0000-000000000000"

def limit : Nat := 500 * 1024 * 1024

def markerLimit : Nat := 4096

/-- `_encode`; the members are in the order of their keys. -/
def encode (members : Dict) : Except String (List UInt8) :=
  let data := utf8 (Json.dumps (.obj members))
  if markerLimit < data.length then .error "Artifact marker exceeds its bound" else .ok data

/-! ### Intents and decisions -/

/-- `ArtifactIntent`. -/
structure Intent where
  artifactId : Uuid
  publishOperationId : Uuid
  releaseId : Uuid
  requestSha256 : String
  payloadSha256 : String
  size : Nat
  deriving DecidableEq

def Intent.encoded (i : Intent) : Except String (List UInt8) := do
  require ([i.artifactId, i.publishOperationId, i.releaseId].all (!isNil ·))
    "Invalid artifact identity"
  require (isHex64 i.requestSha256 && isHex64 i.payloadSha256) "Invalid artifact digest"
  require (i.size ≤ limit) "Invalid owned artifact size"
  encode [("artifact_id", .str i.artifactId.text), ("format", .int 1),
    ("payload_sha256", .str i.payloadSha256),
    ("publish_operation_id", .str i.publishOperationId.text), ("release_id", .str i.releaseId.text),
    ("request_sha256", .str i.requestSha256), ("size", .int i.size)]

/-- `ArtifactCleanupDecision`. -/
structure CleanupDecision where
  intent : Intent
  operationId : Uuid
  kind : Kind
  decision : Choice
  retainedDecisionSha256 : String
  deriving DecidableEq

/-- Which operation may carry the action and the decision. -/
def CleanupDecision.checkAction (c : CleanupDecision) : Except String Unit :=
  match c.kind, c.decision with
  | .publish, .cancelled => require (c.operationId = c.intent.publishOperationId)
      "Cancellation belongs to another publication"
  | .delete, .deleted => require (c.operationId ≠ c.intent.publishOperationId)
      "Deletion needs its own retained operation"
  | _, _ => .error "This action and decision cannot remove an artifact"

/-- `CleanedArtifact`. -/
structure CleanedArtifact where
  artifactId : Uuid
  operationId : Uuid
  retirementSha256 : String
  deriving DecidableEq

/-- `_state`: the complete observed state of a file. -/
structure FileState where
  device : Nat
  inode : Nat
  mode : Nat
  links : Nat
  uid : Nat
  gid : Nat
  size : Nat
  modified : Nat
  changed : Nat
  deriving DecidableEq

def FileState.numbers (s : FileState) : List Nat :=
  [s.device, s.inode, s.mode, s.links, s.uid, s.gid, s.size, s.modified, s.changed]

def FileState.json (s : FileState) : Json := .arr (s.numbers.map fun n => .int n)

/-- A number that is neither negative nor a boolean. -/
def readNumber : Json → Option Nat
  | .int n => if 0 ≤ n then some n.toNat else none
  | _ => none

def readState : Json → Option FileState
  | .arr items => do
    match ← items.mapM readNumber with
    | [device, inode, mode, links, uid, gid, size, modified, changed] =>
      some ⟨device, inode, mode, links, uid, gid, size, modified, changed⟩
    | _ => none
  | _ => none

@[simp] theorem readState_json (s : FileState) : readState s.json = some s := by
  simp [readState, FileState.json, FileState.numbers, readNumber]

/-! ### Markers -/

section
variable (sha256 : List UInt8 → String)

def CleanupDecision.encoded (c : CleanupDecision) : Except String (List UInt8) := do
  let intent ← c.intent.encoded
  require (!isNil c.operationId) "Invalid cleanup operation identity"
  require (isHex64 c.retainedDecisionSha256) "Invalid cleanup decision binding"
  c.checkAction
  encode [("decision", .str c.decision.text), ("format", .int 1),
    ("intent_sha256", .str (sha256 intent)), ("kind", .str c.kind.text),
    ("operation_id", .str c.operationId.text),
    ("retained_decision_sha256", .str c.retainedDecisionSha256)]

/-- The contents of `allocation.json`. -/
def allocation (intent : List UInt8) (s : FileState) : Except String (List UInt8) :=
  encode [("device", .int s.device), ("format", .int 1), ("inode", .int s.inode),
    ("intent_sha256", .str (sha256 intent))]

/-- The contents of `prepared.json`. -/
def prepared (intent : List UInt8) (s : FileState) : Except String (List UInt8) :=
  encode [("file_state", s.json), ("format", .int 1), ("intent_sha256", .str (sha256 intent))]

/-- The contents of `retired.json`, with the state of the payload if there was one. -/
def retirement (binding : List UInt8) (s : Option FileState) : Except String (List UInt8) :=
  encode [("cleanup_sha256", .str (sha256 binding)),
    ("file_state", s.elim .null FileState.json), ("format", .int 1)]

/-- The contents of `cleaned.json`. -/
def cleanedMarker (retired : List UInt8) : Except String (List UInt8) :=
  encode [("format", .int 1), ("retirement_sha256", .str (sha256 retired))]

/-- `json.loads(raw)["file_state"]`. -/
def fileState (raw : List UInt8) : Option Json :=
  match loadsBytes raw with
  | some (.obj members) => members.lookup "file_state"
  | _ => none

/-- The state in a prepared receipt, which must be the canonical text for it. -/
def readPrepared (intent raw : List UInt8) : Except String FileState := do
  let s ← orRaise ((fileState raw).bind readState) "Invalid prepared artifact receipt"
  let expected ← prepared sha256 intent s
  require (raw = expected) "Invalid prepared artifact receipt"
  return s

/-- `null`, or a state. -/
def readOptionalState : Json → Option (Option FileState)
  | .null => some none
  | v => (readState v).map some

/-- The state in a retirement record of the decision. -/
def readRetirement (binding raw : List UInt8) : Except String (Option FileState) := do
  let s ← orRaise ((fileState raw).bind readOptionalState)
    "Retirement belongs to another object or decision"
  let expected ← retirement sha256 binding s
  require (raw = expected) "Retirement belongs to another object or decision"
  return s

end

section
variable {sha256 : List UInt8 → String} {binding intent raw : List UInt8}

/-- What is read back is what was written. -/
theorem readRetirement_ok {s : Option FileState} (h : readRetirement sha256 binding raw = .ok s) :
    retirement sha256 binding s = .ok raw := by
  obtain ⟨t, -, rest⟩ := bind_ok h
  obtain ⟨expected, written, last⟩ := bind_ok rest
  obtain ⟨same, returned⟩ := require_bind last
  obtain rfl : t = s := Except.ok.inj returned
  rw [of_decide_eq_true same]
  exact written

end

end FreeSdn.Artifact
