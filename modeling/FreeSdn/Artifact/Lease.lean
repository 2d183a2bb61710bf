import FreeSdn.Artifact.Directory

/-! `ArtifactLease` (`services/agent_release_artifact_store.py`): what a lease remembers, and its
methods as programs of system calls. -/

namespace FreeSdn.Artifact

open FreeSdn.Lib

def chunkLimit : Nat := 1024 * 1024

/-- What the code takes from outside: the digest, and the user that the process runs as. -/
structure Host where
  sha256 : List UInt8 → String
  euid : Nat

/-- The members of a lease that is not closed. -/
structure Lease where
  intent : Intent
  encodedIntent : List UInt8
  exclusive : Bool
  writer : Option Nat
  reader : Option Nat
  poisoned : Bool
  written : Nat
  -- The bytes that the running digest was given.
  digest : List UInt8
  writeState : Option FileState
  -- The state in `_prepared`, whose intent is that of the lease.
  prepared : Option FileState

def Lease.poison (l : Lease) : Lease := { l with poisoned := true }

/-- `PreparedArtifact`. -/
structure PreparedArtifact where
  intent : Intent
  fileState : FileState

abbrev Act := Method Raised Lease Query Change Value

def fromMarker : Except String α → Except Raised α
  | .ok a => .ok a
  | .error message => .error (.unavailable message)

def demand (condition : Bool) (message : String) : Except Raised Unit :=
  require condition (.unavailable message)

/-- `S_ISREG` and the permissions of a mode. -/
def privateFile (mode : Nat) : Bool := mode / 4096 % 16 = 8 && mode % 4096 = 384

section
variable (h : Host)

/-- `_regular`. -/
def regular (s : FileState) : Bool := privateFile s.mode && s.uid = h.euid && s.links = 1

/-- `_check`. -/
def Lease.check (l : Lease) : Ask Unit := do
  demand (!l.poisoned) "Artifact lease is closed or requires recovery"
  query Query.check

/-- `_file_check`. -/
def Lease.fileCheck (l : Lease) (fd : Nat) (name : Name) : Ask FileState := do
  l.check
  let held ← fstat fd
  let current ← stat name
  demand (regular h held && regular h current)
    "Artifact file must be an owned private regular file"
  demand (held = current) "Artifact file identity changed"
  return held

def present (name : Name) : Ask Bool := do
  return (← rescue Raised.isMissing (stat name)).isSome

/-- Raises when one of the names is there. -/
def refuse (message : String) : List Name → Ask Unit
  | [] => return ()
  | name :: names => do
    demand (!(← present name)) message
    refuse message names

/-- `_require_not_retired`. -/
def requireNotRetired : Ask Unit := refuse "Artifact is retired or requires recovery" [.retired, .cleaned]

/-- The loop of `_write_all`; its turns are at most the bytes that it is given. -/
def Lease.writeAll (l : Lease) (fd : Nat) : Nat → List UInt8 → Act Unit
  | 0, _ => return ()
  | turns + 1, pending => do
    if pending.isEmpty then return ()
    inquire l.check
    let count ← change (Change.write fd pending)
    demand (0 < count) "Artifact write did not complete"
    l.writeAll fd turns (pending.drop count)

/-- `_create_marker`. -/
def createMarker (name : Name) (data : List UInt8) : Act Unit := do
  let l ← get
  demand (l.exclusive && data.length ≤ markerLimit) "Artifact marker cannot be created"
  let fd ← change (Change.create name)
  Method.finish (do
    let _ ← inquire (l.fileCheck h fd name)
    l.writeAll fd data.length data
    inquire (sync (.file fd))
    let state ← inquire (l.fileCheck h fd name)
    demand (state.size = data.length) "Artifact marker size changed") (close fd)
  inquire (sync .directory)

/-- The loop of `_read_marker`; each turn but the last reads something. -/
def Lease.readLoop (l : Lease) (fd : Nat) : Nat → List UInt8 → Ask (List UInt8)
  | 0, data => return data
  | turns + 1, data => do
    if markerLimit < data.length then return data
    l.check
    let chunk ← pread fd data.length (markerLimit + 1 - data.length)
    if chunk.isEmpty then return data
    l.readLoop fd turns (data ++ chunk)

/-- `_read_marker`. -/
def Lease.readMarker (l : Lease) (name : Name) : Ask (List UInt8) := do
  let fd ← openFile name
  finish (do
    let before ← l.fileCheck h fd name
    demand (0 < before.size && before.size ≤ markerLimit) "Invalid artifact marker size"
    let data ← l.readLoop fd (markerLimit + 2) []
    let changed := "Artifact marker changed while reading"
    demand (data.length = before.size) changed
    let again ← l.fileCheck h fd name
    demand (again = before) changed
    return data) (close fd)

/-- The creator of the directory writes the intent, and any other finds its own there. -/
def claimIntent (created : Bool) : Act Unit := do
  let l ← get
  if created then
    inquire (sync .parent)
    createMarker h .intent l.encodedIntent
  else
    let raw ← inquire (l.readMarker h .intent)
    demand (raw = l.encodedIntent) "Artifact intent differs from the reservation"

/-- What `acquire` does once it has the lock. -/
def enter (created : Bool) : Act Unit := do
  let l ← get
  inquire l.check
  claimIntent h created
  inquire l.check

/-! ### Preparation -/

/-- `begin`. -/
def begin_ : Act Unit := do
  let l ← get
  inquire l.check
  inquire requireNotRetired
  demand (l.exclusive && l.writer.isNone && l.reader.isNone)
    "Artifact lease cannot start a writer"
  Method.onRaise Lease.poison do
    inquire (refuse "Artifact allocation already exists" [.allocation, .prepared])
    let fd ← change (Change.create .payload)
    modify fun l => { l with writer := some fd }
    let state ← inquire (l.fileCheck h fd .payload)
    modify fun l => { l with writeState := some state }
    inquire (sync (.file fd))
    let data ← fromMarker (allocation h.sha256 l.encodedIntent state)
    createMarker h .allocation data

/-- `append`. -/
def append (chunk : List UInt8) : Act Unit := do
  let l ← get
  inquire l.check
  let fd ← orRaise l.writer (Raised.unavailable "Artifact writer is not active")
  Method.onRaise Lease.poison do
    demand (0 < chunk.length && chunk.length ≤ chunkLimit)
      "Artifact chunk has invalid type or size"
    demand (chunk.length ≤ l.intent.size - l.written) "Artifact exceeds its declared size"
    let before ← inquire (l.fileCheck h fd .payload)
    demand (l.writeState = some before) "Artifact changed before writing"
    l.writeAll fd chunk.length chunk
    modify fun l => { l with written := l.written + chunk.length, digest := l.digest ++ chunk }
    let state ← inquire (l.fileCheck h fd .payload)
    modify fun l => { l with writeState := some state }
    demand (state.size = l.written + chunk.length)
      "Artifact size changed during writing"

/-- The receipt in `prepared.json`. -/
def Lease.receipt (l : Lease) : Ask FileState := do
  let intent ← l.readMarker h .intent
  demand (intent = l.encodedIntent) "Artifact intent changed"
  let raw ← l.readMarker h .prepared
  fromMarker (readPrepared h.sha256 l.encodedIntent raw)

/-- The loop that reads the payload back; each turn reads something. -/
def Lease.readBack (l : Lease) (fd : Nat) : Nat → List UInt8 → Ask (List UInt8)
  | 0, data => return data
  | turns + 1, data => do
    if l.intent.size ≤ data.length then return data
    l.check
    let chunk ← pread fd data.length (min chunkLimit (l.intent.size - data.length))
    demand (!chunk.isEmpty) "Prepared artifact was truncated"
    l.readBack fd turns (data ++ chunk)

/-- A recovery does not rely on markers that were left unsynchronised. -/
def Lease.syncMarkers (l : Lease) : List Name → Ask Unit
  | [] => return ()
  | name :: names => do
    let fd ← openFile name
    finish (do
      let _ ← l.fileCheck h fd name
      sync (.file fd)) (close fd)
    l.syncMarkers names

/-- The checks of `verify_prepared` on an open payload. -/
def Lease.verifyPayload (l : Lease) (fd : Nat) (state : FileState) : Ask FileState := do
  let before ← l.fileCheck h fd .payload
  demand (before = state && before.size = l.intent.size)
    "Prepared artifact identity changed"
  let expected ← fromMarker (allocation h.sha256 l.encodedIntent before)
  let raw ← l.readMarker h .allocation
  demand (raw = expected) "Artifact allocation differs"
  let data ← l.readBack fd l.intent.size []
  let rest ← pread fd data.length 1
  let changed := "Prepared artifact bytes changed"
  demand (rest.isEmpty && h.sha256 data = l.intent.payloadSha256) changed
  let again ← l.fileCheck h fd .payload
  demand (again = before) changed
  sync (.file fd)
  l.syncMarkers h [.intent, .allocation, .prepared]
  sync .directory
  sync .parent
  l.check
  return before

/-- The delivery descriptor. -/
def Lease.openReader (l : Lease) : Ask Nat :=
  match l.reader with
  | some fd => return fd
  | none => openFile .payload

/-- `verify_prepared`. -/
def verifyPrepared : Act PreparedArtifact := do
  let l ← get
  inquire l.check
  demand l.writer.isNone "Artifact writer has not finished"
  modify fun l => { l with prepared := none }
  inquire requireNotRetired
  let state ← inquire (l.receipt h)
  let fd ← inquire l.openReader
  modify fun l => { l with reader := some fd }
  let before ← inquire (l.verifyPayload h fd state)
  modify fun l => { l with prepared := some before }
  return ⟨l.intent, before⟩

/-- `finish`. -/
def finishWriting : Act PreparedArtifact := do
  let l ← get
  inquire l.check
  let fd ← orRaise l.writer (Raised.unavailable "Artifact writer is not active")
  Method.onRaise Lease.poison do
    demand (l.written = l.intent.size && h.sha256 l.digest = l.intent.payloadSha256)
      "Artifact differs from its declared size or digest"
    let before ← inquire (l.fileCheck h fd .payload)
    demand (l.writeState = some before) "Artifact changed before synchronization"
    inquire (sync (.file fd))
    let state ← inquire (l.fileCheck h fd .payload)
    let data ← fromMarker (prepared h.sha256 l.encodedIntent state)
    createMarker h .prepared data
    modify fun l => { l with writer := none }
    inquire (close fd)
    verifyPrepared h

/-- `read`. -/
def read (offset size : Int) : Act (List UInt8) := do
  let l ← get
  inquire l.check
  inquire requireNotRetired
  let unverified := Raised.unavailable "Artifact must be fully verified before delivery"
  let expected ← orRaise l.prepared unverified
  let fd ← orRaise l.reader unverified
  demand (0 ≤ offset && 1 ≤ size && size ≤ chunkLimit && offset ≤ l.intent.size)
    "Invalid artifact read bounds"
  let before ← inquire (l.fileCheck h fd .payload)
  demand (before = expected) "Artifact changed before delivery"
  let size := min size.toNat (l.intent.size - offset.toNat)
  let data ← inquire (pread fd offset.toNat size)
  let changed := "Artifact changed during delivery"
  demand (data.length = size) changed
  let again ← inquire (l.fileCheck h fd .payload)
  demand (again = expected) changed
  return data

/-! ### Retirement -/

/-- `_cleanup_binding`. -/
def cleanupBinding (c : CleanupDecision) : Act (List UInt8) := do
  let l ← get
  inquire l.check
  demand (c.intent = l.intent && l.exclusive && l.writer.isNone)
    "Cleanup requires its exact exclusive operation lifetime"
  let encoded ← fromMarker (c.encoded h.sha256)
  let raw ← inquire (l.readMarker h .intent)
  demand (raw = l.encodedIntent) "Artifact intent changed before retirement"
  modify fun l => { l with prepared := none }
  return encoded

/-- `_retired`. -/
def Lease.retired (l : Lease) (binding : List UInt8) : Ask (List UInt8 × Option FileState) := do
  let raw ← l.readMarker h .retired
  let state ← fromMarker (readRetirement h.sha256 binding raw)
  return (raw, state)

/-- `_sync_exact_marker`. -/
def Lease.syncExactMarker (l : Lease) (name : Name) (expected : List UInt8) : Ask Unit := do
  let raw ← l.readMarker h name
  demand (raw = expected) "Artifact recovery marker changed"
  let fd ← openFile name
  finish (do
    let before ← l.fileCheck h fd name
    sync (.file fd)
    let again ← l.fileCheck h fd name
    demand (again = before)
      "Artifact recovery marker changed during synchronization") (close fd)
  sync .directory
  sync .parent
  l.check

/-- The state of the payload of a cancelled publication, which may be partial. -/
def Lease.partialState (l : Lease) : Ask (Option FileState) := do
  match ← rescue Raised.isMissing (openFile .payload) with
  | none =>
    refuse "Allocated artifact is missing without retirement" [.allocation, .prepared]
    return none
  | some fd =>
    finish (do
      let state ← l.fileCheck h fd .payload
      demand (state.size ≤ l.intent.size) "Partial artifact exceeds its reservation"
      let expected ← fromMarker (allocation h.sha256 l.encodedIntent state)
      let raw ← l.readMarker h .allocation
      demand (raw = expected) "Partial artifact allocation differs"
      sync (.file fd)
      let again ← l.fileCheck h fd .payload
      demand (again = state) "Partial artifact changed during retirement"
      return some state) (close fd)

/-- The state of the payload that a retirement records. -/
def payloadState (c : CleanupDecision) : Act (Option FileState) := do
  if c.kind = .delete then
    let artifact ← verifyPrepared h
    return some artifact.fileState
  else
    let l ← get
    inquire (l.partialState h)

/-- The first retirement writes its record. -/
def recordRetirement (c : CleanupDecision) (binding : List UInt8) : Act (List UInt8) := do
  let history ← inquire (present .cleaned)
  demand (!history) "Cleanup history has no retirement record"
  let state ← payloadState h c
  let raw ← fromMarker (retirement h.sha256 binding state)
  createMarker h .retired raw
  return raw

/-- The record of the retirement, written now if there is none. -/
def retirementRecord (c : CleanupDecision) (binding : List UInt8) : Act (List UInt8) := do
  let l ← get
  match ← inquire (rescue Raised.isMissing (l.retired h binding)) with
  | some record => return record.1
  | none => recordRetirement h c binding

/-- `retire`. -/
def retire (c : CleanupDecision) : Act String := do
  let binding ← cleanupBinding h c
  let l ← get
  let raw ← retirementRecord h c binding
  inquire (l.syncExactMarker h .retired raw)
  modify fun l => { l with prepared := none }
  return h.sha256 raw

/-- Removes the payload that the record of the retirement is about. -/
def removePayload (cleaned : Option (List UInt8)) (state : Option FileState) : Act Unit := do
  let l ← get
  match ← inquire (rescue Raised.isMissing (openFile .payload)) with
  | none => return ()
  | some fd =>
    Method.finish (do
      let current ← inquire (l.fileCheck h fd .payload)
      demand (cleaned.isNone && state = some current) "Refusing to remove a replacement artifact"
      inquire l.check
      change (Change.unlink .payload)) (close fd)

/-- Writes `cleaned.json` unless it was there. -/
def recordCleanup (cleaned : Option (List UInt8)) (expected : List UInt8) : Act Unit :=
  if cleaned.isNone then createMarker h .cleaned expected else return ()

/-- `cleanup_retired`. -/
def cleanupRetired (c : CleanupDecision) : Act CleanedArtifact := do
  let binding ← cleanupBinding h c
  let l ← get
  let record ← inquire (l.retired h binding)
  inquire (l.syncExactMarker h .retired record.1)
  let expected ← fromMarker (cleanedMarker h.sha256 record.1)
  let cleaned ← inquire (rescue Raised.isMissing (l.readMarker h .cleaned))
  demand (cleaned.all (· = expected)) "Cleanup marker differs from retirement"
  removePayload h cleaned record.2
  inquire (sync .directory)
  recordCleanup h cleaned expected
  inquire (l.syncExactMarker h .cleaned expected)
  modify fun l => { l with prepared := none }
  return ⟨l.intent.artifactId, c.operationId, h.sha256 record.1⟩

end

end FreeSdn.Artifact
