import FreeSdn.Lib.Run
import FreeSdn.Releases.Request

/-! The transactions on the journal of operations and on the releases: reservation, cancellation,
preparation and publication (`services/agent_release_reservation.py`, `_preparation.py`,
`_publication.py`), deletion (`_deletion.py`), the record of a cleanup (`_cleanup_coordinator.py`) and
promotion (`_promotion.py`).  Each is one transaction that the table locks serialise; one that is
refused is rolled back. -/

namespace FreeSdn.Releases

open FreeSdn.Lib FreeSdn.Artifact
open FreeSdn.Audit (Uuid)
open FreeSdn.Remote (urlsplit SplitResult)

/-- `clock` gives the readings of `clock_timestamp()` in their order. -/
structure Deployment where
  sha256 : List UInt8 → String
  clock : Nat → Stamp
  budget : Budget

/-- The two tables, the readings of the clock so far, and the releases that were ever inserted and ever
deleted. -/
structure Db where
  operations : List Operation
  releases : List Release
  readings : Nat
  inserted : List Uuid
  deleted : List Uuid

def Db.empty : Db := ⟨[], [], 0, [], []⟩

/-- What a transaction finds outside the two tables: the outcome of the authority's own fence, the live
organizations, the trusted signing identities, and whether the reference guards are installed. -/
structure Elsewhere where
  authorized : Bool
  liveOrganization : Uuid → Bool
  trusted : Uuid → Bool
  installed : Bool

structure Session where
  authority : Authority
  elsewhere : Elsewhere

def Session.actor (w : Session) : Uuid := w.authority.actorId

/-- What `_OperationOwner.phase` checks before the action. -/
def Session.enter (w : Session) (organizationId : Option Uuid) : Except Refusal Unit := do
  require w.elsewhere.authorized
    (.http 401 "Release authorization changed; retry with current credentials")
  w.authority.requireScope organizationId

def Session.requireDestination (w : Session) (organizationId : Option Uuid) : Except Refusal Unit :=
  require (organizationId.all w.elsewhere.liveOrganization)
    (.http 404 "Live destination organization not found")

/-! ### The tables -/

namespace Db

def hasRelease (s : Db) (id : Uuid) : Bool := s.releases.any (·.id = id)

/-- The operations of an organization, or of none. -/
def inScope (s : Db) (organizationId : Option Uuid) : List Operation :=
  s.operations.filter (·.organizationId = organizationId)

/-- `deleted_and_cleaned`: a completed deletion of the publication, with no live release. -/
def deletedAndCleaned (s : Db) (c : Operation) : Bool :=
  c.phase = .decided && c.decision = some .published && !s.hasRelease c.releaseId &&
    s.operations.any fun d => d.kind = .delete && d.storageKind = .owned && d.phase = .cleaned &&
      d.decision = some .deleted && d.target = c.target

/-- `charged_owned_publications`. -/
def charged (s : Db) (c : Operation) : Bool :=
  c.kind = .publish && c.storageKind = .owned && c.phase ≠ .cleaned && !s.deletedAndCleaned c

/-- The sum of the declared sizes over charged rows. -/
def chargedBytes (s : Db) (rows : List Operation) : Nat :=
  ((rows.filter s.charged).map Operation.expectedSize).sum

end Db

namespace Operation

/-- The changes of a row in each transition. -/
def prepare (actor : Uuid) (now : Stamp) (r : Operation) : Operation :=
  { r with phase := .prepared, transitionSequence := 1, preparedAt := some now, lastTransitionBy := actor }

def decide (choice : Choice) (sequence : Int) (actor : Uuid) (now : Stamp) (r : Operation) : Operation :=
  { r with
    phase := .decided, decision := some choice, transitionSequence := sequence, decidedAt := some now
    lastTransitionBy := actor }

def clean (actor : Uuid) (now : Stamp) (r : Operation) : Operation :=
  { r with
    phase := .cleaned, transitionSequence := r.transitionSequence + 1, cleanedAt := some now
    lastTransitionBy := actor }

end Operation

section
variable (d : Deployment)

/-- The row changes as `change` says, at the time of the next reading of the clock. -/
def Db.transition (s : Db) (row : Operation) (change : Stamp → Operation → Operation) :
    Except Refusal (Db × Operation) := do
  let change := change (d.clock s.readings)
  let next ← record d.sha256 (change row)
  return ({ s with
    operations := Table.update s.operations row.operationId change
    readings := s.readings + 1 }, next)

/-- A new row. -/
def Db.insertOperation (s : Db) (row : Operation) : Except Refusal (Db × Operation) := do
  let row ← record d.sha256 row
  return ({ s with operations := s.operations ++ [row], readings := s.readings + 1 }, row)

/-! ### Publication -/

/-- What a retained publication has in common with its request. -/
def PublicationRequest.binds (q : PublicationRequest) (r : Operation) : Bool :=
  r.kind = .publish && r.releaseId = q.releaseId && r.organizationId = q.organizationId &&
    r.storageKind = q.storageKind && r.artifactId = q.artifactId &&
    r.requestBytes = q.requestBytes d.sha256 && r.requestSha256 = q.requestSha256 d.sha256 &&
    r.expectedSha256 = q.metadata.checksumSha256 && r.expectedSize = q.metadata.fileSize

/-- `_OperationOwner._load`. -/
def load (w : Session) (q : PublicationRequest) (s : Db) : Except Refusal (Option Operation) :=
  match Table.lookup s.operations q.operationId with
  | none => .ok none
  | some value => do
    w.authority.requireScope value.organizationId
    let r ← record d.sha256 value
    require (q.binds d r) (.http 409 "Operation identity is already bound to another request")
    return some r

/-- The row of a reservation. -/
def PublicationRequest.row (q : PublicationRequest) (actor : Uuid) (now : Stamp) : Operation where
  operationId := q.operationId
  formatVersion := 1
  kind := .publish
  releaseId := q.releaseId
  organizationId := q.organizationId
  requestedBy := actor
  storageKind := q.storageKind
  artifactId := q.artifactId
  requestBytes := q.requestBytes d.sha256
  requestSha256 := q.requestSha256 d.sha256
  expectedSha256 := q.metadata.checksumSha256
  expectedSize := q.metadata.fileSize
  phase := .reserved
  decision := none
  transitionSequence := 0
  createdAt := now
  preparedAt := none
  decidedAt := none
  cleanedAt := none
  lastTransitionBy := actor

/-- There is room for one more operation of the organization. -/
def Db.historyLeft (s : Db) (organizationId : Option Uuid) : Bool :=
  s.operations.length < d.budget.globalHistory &&
    (s.inScope organizationId).length < d.budget.organizationHistory

/-- There is room for `size` more declared bytes of the organization. -/
def Db.bytesLeft (s : Db) (organizationId : Option Uuid) (size : Nat) : Bool :=
  s.chargedBytes s.operations + size ≤ d.budget.globalOwnedBytes &&
    s.chargedBytes (s.inScope organizationId) + size ≤ d.budget.organizationOwnedBytes

/-- `_OperationOwner.reserve`. -/
def reserve (w : Session) (q : PublicationRequest) (s : Db) :
    Except Refusal (Db × Operation × Bool) := do
  w.enter q.organizationId
  match ← load d w q s with
  | some existing => return (s, existing, false)
  | none =>
    w.requireDestination q.organizationId
    require (!s.hasRelease q.releaseId && !(s.operations.any (·.releaseId = q.releaseId)))
      (.http 409 "Release identity already has retained history")
    require (s.historyLeft d q.organizationId)
      (.http 409 "Retained release history capacity requires operator resolution")
    require (q.storageKind ≠ .owned || s.bytesLeft d q.organizationId q.metadata.fileSize)
      (.http 409 "Declared release storage capacity requires operator resolution")
    let (s, row) ← s.insertOperation d (q.row d w.actor (d.clock s.readings))
    return (s, row, true)

/-- `_OperationOwner.cancel`. -/
def cancel (w : Session) (q : PublicationRequest) (s : Db) :
    Except Refusal (Db × Operation × Bool) := do
  w.enter q.organizationId
  let row ← orRaise (← load d w q s)
    (.http 404 "Release operation not found; cancellation cannot create an operation")
  if row.decision = some .cancelled then return (s, row, false)
  else
    require row.pending
      (.http 409 "A confirmed publication cannot be cancelled; use a separate deletion")
    require (!s.hasRelease row.releaseId)
      (.http 409 "Pending publication conflicts with a live release; inspect recovery state")
    let (s, row) ← s.transition d row
      (Operation.decide .cancelled (row.transitionSequence + 1) w.actor)
    return (s, row, false)

/-- `_pending` of the preparation. -/
def pendingArtifact (w : Session) (q : PublicationRequest) (s : Db) : Except Refusal Operation := do
  let row ← orRaise (← load d w q s) (.http 404 "Acknowledged release reservation not found")
  require (row.pending && row.decision.isNone)
    (.http 409 "Release operation is already decided; inspect retained state")
  require row.owned (.http 409 "This preparation requires an owned artifact")
  w.requireDestination row.organizationId
  require (!s.hasRelease row.releaseId)
    (.http 409 "Pending artifact conflicts with a live release; inspect recovery state")
  return row

/-- `_record_prepared`, given the intent of the receipt. -/
def recordPrepared (w : Session) (q : PublicationRequest) (receipt : Intent) (s : Db) :
    Except Refusal (Db × Operation) := do
  require (receipt = q.intent d.sha256) (.http 409 "Prepared artifact differs from this reservation")
  w.enter q.organizationId
  let row ← pendingArtifact d w q s
  if row.phase = .prepared then return (s, row)
  else s.transition d row (Operation.prepare w.actor)

/-- The metadata agree, up to what may change after the publication. -/
def Metadata.sameRelease (m n : Metadata) : Bool := { m with isLatest := n.isLatest } = n

/-- The release of the row belongs to its organization. -/
def checkOwnership (w : Session) (row : Operation) : Option Release → Except Refusal Unit
  | none => .ok ()
  | some release => do
    w.authority.requireScope release.organizationId
    require (release.organizationId = row.organizationId)
      (.http 409 "Release ownership differs from retained publication")

/-- `_publication_state`. -/
def publicationState (w : Session) (q : PublicationRequest) (s : Db) :
    Except Refusal (Operation × Option Release) := do
  let row ← orRaise (← load d w q s) (.http 404 "Release publication reservation not found")
  let release := Table.lookup s.releases row.releaseId
  checkOwnership w row release
  if row.phase = .decided ∧ row.decision = some .published then
    require (release.all (·.metadata.sameRelease q.metadata))
      (.http 409 "Release metadata differs from retained publication")
    return (row, release)
  else
    require (row.pending && row.decision.isNone)
      (.http 409 "Release operation is already decided; inspect retained state")
    require release.isNone (.http 409 "Pending publication conflicts with a live release")
    w.requireDestination row.organizationId
    return (row, none)

/-- `ReleasePublicationResult`. -/
structure PublicationResult where
  operationId : Uuid
  releaseId : Uuid
  decision : Option Choice
  newlyPublished : Bool
  releaseRowPresent : Bool
  currentIsLatest : Option Bool
  artifactVerified : Bool
  signatureVerified : Bool

/-- `_response`. -/
def response (row : Operation) (release : Option Release) (created artifact signature : Bool) :
    PublicationResult :=
  ⟨row.operationId, row.releaseId, row.decision, created, release.isSome,
    release.map (·.metadata.isLatest), artifact, signature⟩

/-- Owned bytes are retained and verified; other publications have none. -/
def checkArtifact (q : PublicationRequest) (row : Operation) (artifact : Option Intent) :
    Except Refusal Unit :=
  if row.owned then
    require (row.phase = .prepared && artifact = some (q.intent d.sha256))
      (.http 409 "Publication needs the retained verified artifact")
  else require artifact.isNone (.http 409 "External metadata cannot claim owned bytes")

def checkSignature (w : Session) (q : PublicationRequest) (row : Operation) (signature : Option String)
    (identity : Option Uuid) : Except Refusal Unit :=
  match signature with
  | none => require (identity.isNone && row.owned && !q.metadata.isLatest)
      (.http 503 "This release requires a verified signature")
  | some _ => do
    let identity ← orRaise identity (.http 503 "Verified signing identity is required")
    require (w.elsewhere.trusted identity)
      (.http 503 "Trusted signing identity changed; preserve the same operation")

/-- The preparation that a transaction makes up for when it finds the row reserved. -/
def Db.prepareFirst (s : Db) (actor : Uuid) (row : Operation) : Except Refusal (Db × Operation) :=
  if row.phase = .reserved then s.transition d row (Operation.prepare actor) else .ok (s, row)

end

/-- No release of the bucket is the latest any more. -/
def demote (releases : List Release) (bucket : Option Uuid × String × String) : List Release :=
  releases.map fun r => if r.bucket = bucket then r.markLatest false else r

/-- The releases among which a new one is inserted. -/
def makeWay (releases : List Release) (new : Release) : List Release :=
  if new.metadata.isLatest then demote releases new.bucket else releases

section
variable (d : Deployment)

def newRelease (q : PublicationRequest) (row : Operation) (signature : Option String)
    (publishedAt : Stamp) : Release :=
  ⟨row.releaseId, row.organizationId, q.metadata, signature, publishedAt, 0⟩

/-- The release is inserted. -/
def Db.insertRelease (s : Db) (release : Release) : Db :=
  { s with
    releases := makeWay s.releases release ++ [release]
    readings := s.readings + 1
    inserted := s.inserted ++ [release.id] }

/-- `_publish`, given the intent of the prepared artifact. -/
def publish (w : Session) (q : PublicationRequest) (signature : Option String) (identity : Option Uuid)
    (artifact : Option Intent) (s : Db) : Except Refusal (Db × PublicationResult) := do
  w.enter q.organizationId
  let (row, release) ← publicationState d w q s
  if row.decision = some .published then return (s, response row release false false false)
  else
    checkArtifact d q row artifact
    checkSignature w q row signature identity
    let (s, row) ← s.prepareFirst d w.actor row
    let release := newRelease q row signature (d.clock s.readings)
    let (s, row) ← (s.insertRelease release).transition d row (Operation.decide .published 2 w.actor)
    return (s, response row (some release) true artifact.isSome identity.isSome)

/-! ### Deletion -/

/-- What an owner reports for an error of the database. -/
def unconfirmed : Refusal :=
  .http 503 "Release outcome could not be confirmed; inspect the same operation before retrying"

/-- The publication of a release (`_publication`). -/
def publicationOf (s : Db) (releaseId : Uuid) : Except Refusal (Option Operation) :=
  match s.operations.filter fun r => r.kind = .publish && r.releaseId = releaseId with
  | [] => .ok none
  | [r] => (record d.sha256 r).map some
  | _ => .error unconfirmed

/-- `_check_predecessor`. -/
def checkPredecessor (row : Operation) (original : Option Operation) : Except Refusal Unit :=
  if row.kind = .delete ∧ row.owned then do
    let prior ← orRaise original (.unavailable "Owned deletion has no publication history")
    let prior ← record d.sha256 prior
    require (prior.kind = .publish && prior.owned && prior.phase = .decided &&
        prior.decision = some .published && prior.operationId ≠ row.operationId &&
        prior.target = row.target)
      (.unavailable "Owned deletion conflicts with publication history")
  else .ok ()

/-- What a retained deletion has in common with its request. -/
def DeletionRequest.binds (q : DeletionRequest) (r : Operation) : Bool :=
  r.kind = .delete && r.releaseId = q.releaseId && r.organizationId = q.organizationId &&
    r.requestBytes = q.requestBytes d.sha256 && r.requestSha256 = q.requestSha256 d.sha256 &&
    r.expectedSha256 = lower q.metadata.checksumSha256 && r.expectedSize = q.metadata.fileSize

/-- `_load` of the deletion. -/
def loadDeletion (w : Session) (q : DeletionRequest) (s : Db) : Except Refusal (Option Operation) :=
  match Table.lookup s.operations q.operationId with
  | none => .ok none
  | some value => do
    w.authority.requireScope value.organizationId
    let r ← record d.sha256 value
    require (q.binds d r) (.http 409 "Operation identity is already bound to another deletion target")
    if r.owned then
      checkPredecessor d r (← publicationOf d s r.releaseId)
      return some r
    else return some r

/-- `_target`. -/
def target (w : Session) (q : DeletionRequest) (s : Db) : Except Refusal (Option Release) :=
  match Table.lookup s.releases q.releaseId with
  | none => .ok none
  | some release => do
    w.authority.requireScope release.organizationId
    require (q.fits release)
      (.http 409 "Release changed since deletion was reviewed; inspect a fresh target")
    return some release

/-- The location is on the web.  The check that `urlsplit` makes of the Unicode form is left out. -/
def isRemote (url : String) : Bool :=
  let parts := urlsplit url.toList
  let host := (parts.netloc.reverse.takeWhile (· ≠ '@')).reverse
  let hostname := ({ parts with netloc := host } : SplitResult).hostinfo.1
  (parts.scheme = "https".toList || parts.scheme = "http".toList) &&
    decide ('[' ∈ parts.netloc) == decide (']' ∈ parts.netloc) && hostname ≠ []

/-- `_storage`. -/
def storage (release : Release) (prior : Option Operation) :
    Except Refusal (StorageKind × Option Uuid) :=
  match prior with
  | some p => do
    require (p.phase = .decided && p.decision = some .published &&
        p.organizationId = release.organizationId &&
        p.expectedSha256 = lower release.metadata.checksumSha256 &&
        p.expectedSize = release.metadata.fileSize)
      (.http 409 "Release conflicts with its publication history")
    if p.owned then
      require (release.metadata.downloadUrl = binaryUrl release.id && release.metadata.filename.isSome)
        (.http 409 "Managed artifact association changed; inspect recovery state")
      return (.owned, p.artifactId)
    else
      require release.metadata.filename.isNone
        (.http 409 "External publication unexpectedly claims a local filename")
      return (.external, none)
  | none =>
    if release.metadata.filename.isSome || !isRemote release.metadata.downloadUrl then
      .ok (.legacy, none)
    else .ok (.external, none)

/-- The row of a reserved deletion. -/
def DeletionRequest.row (q : DeletionRequest) (release : Release)
    (stored : StorageKind × Option Uuid) (actor : Uuid) (now : Stamp) : Operation where
  operationId := q.operationId
  formatVersion := 1
  kind := .delete
  releaseId := release.id
  organizationId := release.organizationId
  requestedBy := actor
  storageKind := stored.1
  artifactId := stored.2
  requestBytes := q.requestBytes d.sha256
  requestSha256 := q.requestSha256 d.sha256
  expectedSha256 := lower release.metadata.checksumSha256
  expectedSize := release.metadata.fileSize
  phase := .reserved
  decision := none
  transitionSequence := 0
  createdAt := now
  preparedAt := none
  decidedAt := none
  cleanedAt := none
  lastTransitionBy := actor

/-- `_reserve`. -/
def reserveDeletion (w : Session) (q : DeletionRequest) (s : Db) :
    Except Refusal (Db × Operation × Bool) := do
  w.enter q.organizationId
  match ← loadDeletion d w q s with
  | some row => return (s, row, false)
  | none =>
    let release ← orRaise (← target w q s)
      (.http 404 "Release not found; absence is not a deletion decision")
    require (!(s.operations.any fun r => r.releaseId = release.id && r.pending))
      (.http 409 "Release has another unresolved operation")
    require (s.historyLeft d release.organizationId)
      (.http 409 "Retained release history capacity requires operator resolution")
    let stored ← storage release (← publicationOf d s release.id)
    let (s, row) ← s.insertOperation d (q.row d release stored w.actor (d.clock s.readings))
    return (s, row, true)

/-- `ReleaseDeletionResult`. -/
structure DeletionResult where
  operationId : Uuid
  releaseId : Uuid
  phase : Phase
  decision : Option Choice
  newlyChanged : Bool
  cleanupDisposition : String

/-- `_result` of the deletion. -/
def deletionResult (row : Operation) (changed : Bool) : DeletionResult :=
  let disposition :=
    match row.decision, row.storageKind with
    | some .cancelled, _ => "preserve-live"
    | some .deleted, .owned => "pending-owned-verification"
    | some .deleted, .external => "no-owned-file"
    | some .deleted, .legacy => "retain-unverified"
    | _, _ => "not-authorized"
  ⟨row.operationId, row.releaseId, row.phase, row.decision, changed, disposition⟩

/-- The release is deleted. -/
def Db.deleteRelease (s : Db) (id : Uuid) : Db :=
  { s with releases := Table.remove s.releases id, deleted := s.deleted ++ [id] }

/-- `_delete`. -/
def delete (w : Session) (q : DeletionRequest) (s : Db) : Except Refusal (Db × DeletionResult) := do
  w.enter q.organizationId
  let row ← orRaise (← loadDeletion d w q s) (.http 404 "Deletion reservation not found")
  if row.decision = some .deleted then return (s, deletionResult row false)
  else
    require (row.pending && row.decision.isNone) (.http 409 "Deletion operation is already decided")
    let release ← orRaise (← target w q s)
      (.http 409 "Target disappeared before this deletion decision; inspect recovery state")
    let stored ← storage release (← publicationOf d s release.id)
    require (stored = (row.storageKind, row.artifactId))
      (.http 409 "Release storage association changed")
    let (s, row) ← s.prepareFirst d w.actor row
    let (s, row) ← (s.deleteRelease row.releaseId).transition d row
      (Operation.decide .deleted 2 w.actor)
    return (s, deletionResult row true)

/-- `_cancel`. -/
def cancelDeletion (w : Session) (q : DeletionRequest) (s : Db) :
    Except Refusal (Db × DeletionResult) := do
  w.enter q.organizationId
  let row ← orRaise (← loadDeletion d w q s)
    (.http 404 "Deletion reservation not found; cancellation cannot create one")
  if row.decision = some .cancelled then return (s, deletionResult row false)
  else
    require (row.pending && row.decision.isNone) (.http 409 "Confirmed deletion cannot be cancelled")
    let (s, row) ← s.transition d row
      (Operation.decide .cancelled (row.transitionSequence + 1) w.actor)
    return (s, deletionResult row true)

end

end FreeSdn.Releases
