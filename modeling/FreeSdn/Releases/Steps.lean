import FreeSdn.Releases.Journal

/-! The record of a cleanup (`services/agent_release_cleanup_coordinator.py`), promotion
(`services/agent_release_promotion.py`), and the steps that all transactions together can take. -/

namespace FreeSdn.Releases

open FreeSdn.Lib FreeSdn.Artifact
open FreeSdn.Audit (Uuid)

/-! ### Cleanup -/

inductive CleanupRequest
  | publication (q : PublicationRequest)
  | deletion (q : DeletionRequest)

def CleanupRequest.organizationId : CleanupRequest → Option Uuid
  | .publication q => q.organizationId
  | .deletion q => q.organizationId

/-- A deletion is about the artifact of the publication. -/
def Operation.removes (r p : Operation) : Bool :=
  r.organizationId = p.organizationId && r.artifactId = p.artifactId &&
    r.expectedSha256 = p.expectedSha256 && r.expectedSize = p.expectedSize

/-- The release is the one that was published. -/
def Release.exact (live : Release) (p : Operation) : Bool :=
  live.organizationId = p.organizationId && live.metadata.checksumSha256 = p.expectedSha256 &&
    live.metadata.fileSize = p.expectedSize && live.metadata.downloadUrl = binaryUrl live.id &&
    live.metadata.filename.any (· ≠ "")

/-- `agents.assert_release_reference`. -/
def Db.referenceHolds (s : Db) (id : Uuid) : Bool :=
  let publication := s.operations.find? fun r =>
    r.releaseId = id && r.kind = .publish && r.owned
  let deletions := s.operations.filter fun r => r.releaseId = id && r.kind = .delete
  match publication with
  | none => deletions.all (!·.owned)
  | some p =>
    let published : Bool := p.phase = .decided && p.decision = some .published
    let gone := deletions.any fun r =>
      r.decision = some .deleted && (r.phase = .decided || r.phase = .cleaned)
    deletions.all (fun r => r.owned && published && r.operationId ≠ p.operationId && r.removes p) &&
      match Table.lookup s.releases id with
      | some live => published && !gone && live.exact p
      | none => !(published && !gone)

section
variable (d : Deployment)

def CleanupRequest.load (w : Session) (s : Db) : CleanupRequest → Except Refusal (Option Operation)
  | .publication q => Releases.load d w q s
  | .deletion q => loadDeletion d w q s

/-- Another operation holds the artifact, or disagrees about it. -/
def Db.contested (s : Db) (row : Operation) : Bool :=
  s.operations.any fun r => r.artifactId = row.artifactId &&
    (r.target ≠ row.target || (r.operationId ≠ row.operationId && r.pending))

/-- The publication that an owned deletion refers to. -/
def originalOf (s : Db) (row : Operation) : Except Refusal (Option Operation) :=
  if row.kind = .delete ∧ row.owned then publicationOf d s row.releaseId else .ok none

/-- `_inspect_db`. -/
def inspectDb (w : Session) (q : CleanupRequest) (s : Db) : Except Refusal (Operation × Plan) := do
  require w.elsewhere.installed unconfirmed
  let row ← orRaise (← q.load d w s) (.http 404 "Retained cleanup operation not found")
  require ((row.phase = .decided || row.phase = .cleaned) &&
      (row.decision = some .cancelled || row.decision = some .deleted))
    (.http 409 "Operation has no confirmed cleanup decision")
  require (s.referenceHolds row.releaseId) unconfirmed
  let original ← originalOf d s row
  require (!(row.owned && s.contested row))
    (.http 409 "Artifact has conflicting or unresolved retained ownership")
  let plan ← planReleaseCleanup d.sha256 row original (s.hasRelease row.releaseId)
  return (row, plan)

/-- `_state`: the transaction that only inspects. -/
def inspect (w : Session) (q : CleanupRequest) (s : Db) : Except Refusal (Operation × Plan) := do
  w.enter q.organizationId
  inspectDb d w q s

/-- What must come with the record of a cleanup. -/
def checkReceipt (row : Operation) (plan : Plan) (receipt : Option CleanedArtifact)
    (retirement : Option String) : Except Refusal Unit :=
  if plan.outcome = .retireOwned then
    require (receipt.any fun c => plan.decision.any (fun e => c.artifactId = e.intent.artifactId) &&
        c.operationId = row.operationId && some c.retirementSha256 = retirement)
      (.http 409 "Verified cleanup differs from the retained decision")
  else
    require ((plan.outcome = .preserveLive || plan.outcome = .noOwnedFile) && receipt.isNone &&
        retirement.isNone)
      (.http 409 "Unverified residuals cannot be marked cleaned")

/-- `ReleaseCleanupResult`. -/
structure CleanupResult where
  operationId : Uuid
  releaseId : Uuid
  phase : Phase
  decision : Option Choice
  outcome : Outcome
  newlyRecorded : Bool
  payloadAbsenceVerified : Bool
  complete : Bool

/-- `_result` of the cleanup. -/
def cleanupResult (row : Operation) (plan : Plan) (newlyRecorded verified : Bool) : CleanupResult :=
  ⟨row.operationId, row.releaseId, row.phase, row.decision, plan.outcome, newlyRecorded, verified,
    row.phase = .cleaned && plan.outcome ≠ .retainUnverified⟩

/-- `_record_cleaned`. -/
def recordCleaned (w : Session) (q : CleanupRequest) (expected : Plan)
    (receipt : Option CleanedArtifact) (retirement : Option String) (s : Db) :
    Except Refusal (Db × CleanupResult) := do
  w.enter q.organizationId
  let (row, plan) ← inspectDb d w q s
  require (expected = plan) (.http 409 "Retained cleanup decision changed; inspect recovery state")
  checkReceipt row plan receipt retirement
  if row.phase = .cleaned then return (s, cleanupResult row plan false receipt.isSome)
  else
    let (s, row) ← s.transition d row (Operation.clean w.actor)
    return (s, cleanupResult row plan true receipt.isSome)

end

/-! ### Promotion -/

/-- `_BOUND_FIELDS`: a release without what may change or is not signed. -/
def Release.bound (r : Release) : Release :=
  { r with
    metadata := { r.metadata with isLatest := false, releaseNotes := "" }
    publishedAt := ⟨⟨1, 1, 1, 0, 0, 0, 0⟩, rfl⟩
    downloadCount := 0 }

/-- The characters that `str.strip` removes. -/
def isSpace (c : Char) : Bool :=
  let n := c.toNat
  (9 ≤ n && n ≤ 13) || (28 ≤ n && n ≤ 32) || (8192 ≤ n && n ≤ 8202) ||
    n ∈ [133, 160, 5760, 8232, 8233, 8239, 8287, 12288]

/-- The checks of `ReleasePromotionSnapshot.manifest`. -/
def Release.canonical (r : Release) : Bool :=
  r.metadata.platform ∈ ["linux", "windows", "macos"] && r.metadata.agentType ∈ ["daemon", "desktop"] &&
    1 ≤ length r.metadata.version && length r.metadata.version ≤ 50 &&
    r.metadata.version.toList.any (!isSpace ·) && Audit.isHex64 r.metadata.checksumSha256

/-- `promote_verified_release`, given the identity that verified the signature of the snapshot, if one
did. -/
def promote (w : Session) (snapshot : Release) (identity : Option Uuid) (s : Db) :
    Except Refusal (Db × Release) := do
  w.authority.requireScope snapshot.organizationId
  let identity ← orRaise (if snapshot.canonical then identity else none)
    (.http 409 "Release has no valid manifest signature; publish a verified replacement")
  let release ← orRaise (Table.lookup s.releases snapshot.id) (.http 404 "Release not found")
  w.authority.requireScope release.organizationId
  require (release.bound = snapshot.bound)
    (.http 409 "Release changed during verification; reload it before promotion")
  require w.elsewhere.authorized
    (.http 401 "Release authorization changed; retry with current credentials")
  require (w.elsewhere.trusted identity) (.http 503 "Trusted release verification is unavailable")
  return ({ s with
    releases := Table.update (demote s.releases release.bucket) release.id (Release.markLatest true) },
    release.markLatest true)

/-! ### Steps -/

/-- A transaction of some owner, or a promotion. -/
inductive Transaction
  | reserve (q : PublicationRequest)
  | cancel (q : PublicationRequest)
  | recordPrepared (q : PublicationRequest) (receipt : Intent)
  | publish (q : PublicationRequest) (signature : Option String) (identity : Option Uuid)
      (artifact : Option Intent)
  | reserveDeletion (q : DeletionRequest)
  | delete (q : DeletionRequest)
  | cancelDeletion (q : DeletionRequest)
  | recordCleaned (q : CleanupRequest) (expected : Plan) (receipt : Option CleanedArtifact)
      (retirement : Option String)
  | promote (snapshot : Release) (identity : Option Uuid)

structure Event where
  session : Session
  transaction : Transaction

/-- The tables that the transaction commits. -/
def perform (d : Deployment) (w : Session) (s : Db) : Transaction → Except Refusal Db
  | .reserve q => (reserve d w q s).map Prod.fst
  | .cancel q => (cancel d w q s).map Prod.fst
  | .recordPrepared q receipt => (recordPrepared d w q receipt s).map Prod.fst
  | .publish q signature identity artifact =>
    (publish d w q signature identity artifact s).map Prod.fst
  | .reserveDeletion q => (reserveDeletion d w q s).map Prod.fst
  | .delete q => (delete d w q s).map Prod.fst
  | .cancelDeletion q => (cancelDeletion d w q s).map Prod.fst
  | .recordCleaned q expected receipt retirement =>
    (recordCleaned d w q expected receipt retirement s).map Prod.fst
  | .promote snapshot identity => (promote w snapshot identity s).map Prod.fst

/-- The tables after the transaction, whether or not its acknowledgement arrives. -/
def step (d : Deployment) (s : Db) (e : Event) : Option Db :=
  match perform d e.session s e.transaction with
  | .ok t => some t
  | .error _ => some s

/-! ### What a step can do -/

/-- The fields of a row that no transition changes. -/
def Operation.identity (r : Operation) : Operation :=
  { r with
    phase := .reserved, decision := none, transitionSequence := 0, preparedAt := none
    decidedAt := none, cleanedAt := none, lastTransitionBy := r.requestedBy }

theorem Operation.of_identity {r r' : Operation} (h : r'.identity = r.identity) :
    r'.operationId = r.operationId ∧ r'.kind = r.kind ∧ r'.releaseId = r.releaseId ∧
      r'.storageKind = r.storageKind ∧ r'.target = r.target := by
  have operationId : r'.identity.operationId = r.identity.operationId := congrArg _ h
  have kind : r'.identity.kind = r.identity.kind := congrArg _ h
  have releaseId : r'.identity.releaseId = r.identity.releaseId := congrArg _ h
  have storageKind : r'.identity.storageKind = r.identity.storageKind := congrArg _ h
  have target : r'.identity.target = r.identity.target := congrArg _ h
  exact ⟨operationId, kind, releaseId, storageKind, target⟩

/-- The row is as a reservation leaves it. -/
structure Operation.Opens (r : Operation) : Prop where
  phase : r.phase = .reserved
  decision : r.decision = none

/-- The row that is found under its identifier changes to another consistent one. -/
structure Advances (d : Deployment) (s : Db) (row : Operation) (f : Operation → Operation) : Prop where
  found : Table.lookup s.operations row.operationId = some row
  before : Accepted d.sha256 row
  same : ∀ r, (f r).identity = r.identity
  after : Accepted d.sha256 (f row)

def Db.advance (s : Db) (row : Operation) (f : Operation → Operation) (readings : Nat) : Db :=
  { s with operations := Table.update s.operations row.operationId f, readings := readings }

inductive Moves (d : Deployment) (s : Db) : Event → Db → Prop
  | same {e : Event} : Moves d s e s
  | reserve {w : Session} {q : PublicationRequest} {row : Operation}
      (fresh : Table.lookup s.operations row.operationId = none)
      (unborn : s.hasRelease row.releaseId = false)
      (first : ∀ r ∈ s.operations, r.releaseId ≠ row.releaseId) (kind : row.kind = .publish)
      (opens : row.Opens) (accepted : Accepted d.sha256 row)
      (history : s.historyLeft d row.organizationId = true)
      (bytes : row.storageKind = .owned → s.bytesLeft d row.organizationId row.expectedSize = true) :
      Moves d s ⟨w, .reserve q⟩
        { s with operations := s.operations ++ [row], readings := s.readings + 1 }
  | reserveDeletion {w : Session} {q : DeletionRequest} {row : Operation}
      (fresh : Table.lookup s.operations row.operationId = none)
      (live : s.hasRelease row.releaseId = true) (kind : row.kind = .delete) (opens : row.Opens)
      (accepted : Accepted d.sha256 row) (history : s.historyLeft d row.organizationId = true) :
      Moves d s ⟨w, .reserveDeletion q⟩
        { s with operations := s.operations ++ [row], readings := s.readings + 1 }
  | prepare {w : Session} {q : PublicationRequest} {receipt : Intent} {row : Operation} {n : Nat}
      {f : Operation → Operation} (advances : Advances d s row f) (pending : row.decision = none)
      (next : (f row).decision = none ∧ (f row).phase = .prepared) :
      Moves d s ⟨w, .recordPrepared q receipt⟩ (s.advance row f n)
  | cancel {e : Event} {row : Operation} {n : Nat} {f : Operation → Operation}
      (advances : Advances d s row f) (pending : row.decision = none)
      (next : (f row).decision = some .cancelled ∧ (f row).phase = .decided) :
      Moves d s e (s.advance row f n)
  | publish {e : Event} {row : Operation} {release : Release} {n : Nat} {f : Operation → Operation}
      (advances : Advances d s row f) (pending : row.decision = none) (kind : row.kind = .publish)
      (next : (f row).decision = some .published ∧ (f row).phase = .decided)
      (unborn : s.hasRelease row.releaseId = false) (id : release.id = row.releaseId) :
      Moves d s e ((s.insertRelease release).advance row f n)
  | delete {e : Event} {row : Operation} {n : Nat} {f : Operation → Operation}
      (advances : Advances d s row f) (pending : row.decision = none) (kind : row.kind = .delete)
      (next : (f row).decision = some .deleted ∧ (f row).phase = .decided)
      (live : s.hasRelease row.releaseId = true) :
      Moves d s e ((s.deleteRelease row.releaseId).advance row f n)
  | clean {w : Session} {q : CleanupRequest} {plan : Plan} {receipt : Option CleanedArtifact}
      {retirement : Option String} {row : Operation} {n : Nat} {f : Operation → Operation}
      (advances : Advances d s row f) (inspected : inspectDb d w q s = .ok (row, plan))
      (receipted : checkReceipt row plan receipt retirement = .ok ())
      (next : (f row).decision = row.decision ∧ (f row).phase = .cleaned) :
      Moves d s ⟨w, .recordCleaned q plan receipt retirement⟩ (s.advance row f n)
  | promote {w : Session} {snapshot release : Release} {identity : Option Uuid}
      (found : Table.lookup s.releases snapshot.id = some release) :
      Moves d s ⟨w, .promote snapshot identity⟩ { s with
        releases := Table.update (demote s.releases release.bucket) release.id
          (Release.markLatest true) }

section
variable {d : Deployment} {w : Session} {s t : Db} {row : Operation}

theorem load_some {q : PublicationRequest} (h : load d w q s = .ok (some row)) :
    Table.lookup s.operations row.operationId = some row ∧ Accepted d.sha256 row ∧
      q.binds d row = true := by
  unfold load at h
  cases found : Table.lookup s.operations q.operationId with
  | none =>
    rw [found] at h
    cases h
  | some value =>
    rw [found] at h
    obtain ⟨_, -, h⟩ := bind_ok h
    obtain ⟨r, recorded, h⟩ := bind_ok h
    obtain ⟨binds, returned⟩ := require_bind h
    obtain ⟨rfl, accepted⟩ := record_ok recorded
    obtain rfl : r = row := Option.some.inj (Except.ok.inj returned)
    have key : r.operationId = q.operationId := Table.lookup_key found
    exact ⟨key ▸ found, accepted, binds⟩

theorem load_none {q : PublicationRequest} (h : load d w q s = .ok none) :
    Table.lookup s.operations q.operationId = none := by
  unfold load at h
  cases found : Table.lookup s.operations q.operationId with
  | none => rfl
  | some value =>
    rw [found] at h
    obtain ⟨_, -, h⟩ := bind_ok h
    obtain ⟨r, -, h⟩ := bind_ok h
    obtain ⟨-, returned⟩ := require_bind h
    cases returned

theorem loadDeletion_some {q : DeletionRequest} (h : loadDeletion d w q s = .ok (some row)) :
    Table.lookup s.operations row.operationId = some row ∧ Accepted d.sha256 row ∧
      q.binds d row = true := by
  unfold loadDeletion at h
  cases found : Table.lookup s.operations q.operationId with
  | none =>
    rw [found] at h
    cases h
  | some value =>
    rw [found] at h
    obtain ⟨_, -, h⟩ := bind_ok h
    obtain ⟨r, recorded, h⟩ := bind_ok h
    obtain ⟨binds, last⟩ := require_bind h
    have returned : r = row := by
      split at last
      · obtain ⟨_, -, last⟩ := bind_ok last
        obtain ⟨_, -, last⟩ := bind_ok last
        exact Option.some.inj (Except.ok.inj last)
      · exact Option.some.inj (Except.ok.inj last)
    obtain ⟨rfl, accepted⟩ := record_ok recorded
    subst returned
    have key : r.operationId = q.operationId := Table.lookup_key found
    exact ⟨key ▸ found, accepted, binds⟩

theorem loadDeletion_none {q : DeletionRequest} (h : loadDeletion d w q s = .ok none) :
    Table.lookup s.operations q.operationId = none := by
  unfold loadDeletion at h
  cases found : Table.lookup s.operations q.operationId with
  | none => rfl
  | some value =>
    rw [found] at h
    obtain ⟨_, -, h⟩ := bind_ok h
    obtain ⟨r, -, h⟩ := bind_ok h
    obtain ⟨-, h⟩ := require_bind h
    split at h
    · obtain ⟨_, -, h⟩ := bind_ok h
      obtain ⟨_, -, h⟩ := bind_ok h
      cases h
    · cases h

/-- A row that is still open has no decision. -/
theorem Accepted.undecided (accepted : Accepted d.sha256 row) (pending : row.pending = true) :
    row.decision = none := by
  have phase := accepted.facts.2.2.2
  rcases Bool.or_eq_true_iff.mp pending with reserved | prepared
  · have here : row.phase = .reserved := of_decide_eq_true reserved
    simp only [Operation.phaseConsistent, here, Bool.and_eq_true, Option.isNone_iff_eq_none] at phase
    exact phase.1.1.2
  · have here : row.phase = .prepared := of_decide_eq_true prepared
    simp only [Operation.phaseConsistent, here, Bool.and_eq_true, Option.isNone_iff_eq_none] at phase
    exact phase.1.1.2

theorem transition_ok {change : Stamp → Operation → Operation} {next : Operation}
    (h : s.transition d row change = .ok (t, next)) :
    t = s.advance row (change (d.clock s.readings)) (s.readings + 1) ∧
      next = change (d.clock s.readings) row ∧
      Accepted d.sha256 (change (d.clock s.readings) row) := by
  obtain ⟨r, recorded, returned⟩ := bind_ok h
  obtain ⟨rfl, accepted⟩ := record_ok recorded
  cases returned
  exact ⟨rfl, rfl, accepted⟩

/-- The first transition of a transaction that takes two on the same row. -/
theorem prepareFirst_ok {actor : Uuid} {next : Operation}
    (h : s.prepareFirst d actor row = .ok (t, next)) :
    ∃ f, next = f row ∧ (∀ r, (f r).identity = r.identity) ∧
      t = { s with
        operations := Table.update s.operations row.operationId f
        readings := t.readings } := by
  unfold Db.prepareFirst at h
  split at h
  · obtain ⟨rfl, rfl, -⟩ := transition_ok h
    exact ⟨_, rfl, fun _ => rfl, rfl⟩
  · cases h
    refine ⟨id, rfl, fun _ => rfl, ?_⟩
    have unchanged : Table.update s.operations row.operationId id = s.operations := by
      simp [Table.update]
    rw [unchanged]

/-- The two transitions are one. -/
theorem advance_twice {u : Db} {f g : Operation → Operation} {n : Nat}
    (same : ∀ r, (f r).identity = r.identity)
    (first : u.operations = Table.update s.operations row.operationId f) :
    u.advance (f row) g n =
      { u with operations := Table.update s.operations row.operationId (g ∘ f), readings := n } := by
  have keeps (r : Operation) : (f r).operationId = r.operationId := (Operation.of_identity (same r)).1
  rw [Db.advance, first, keeps, Table.update_update keeps]

theorem insertOperation_ok {r : Operation} (h : s.insertOperation d row = .ok (t, r)) :
    t = { s with operations := s.operations ++ [row], readings := s.readings + 1 } ∧
      Accepted d.sha256 row := by
  obtain ⟨next, recorded, returned⟩ := bind_ok h
  obtain ⟨rfl, accepted⟩ := record_ok recorded
  cases returned
  exact ⟨rfl, accepted⟩

theorem reserve_moves {q : PublicationRequest} {answer : Operation × Bool}
    (h : reserve d w q s = .ok (t, answer)) : Moves d s ⟨w, .reserve q⟩ t := by
  obtain ⟨_, -, h⟩ := bind_ok h
  obtain ⟨existing, loaded, h⟩ := bind_ok h
  cases existing with
  | some r =>
    cases h
    exact .same
  | none =>
    have fresh := load_none loaded
    obtain ⟨_, -, h⟩ := bind_ok h
    obtain ⟨unborn, h⟩ := require_bind h
    obtain ⟨history, h⟩ := require_bind h
    obtain ⟨bytes, h⟩ := require_bind h
    obtain ⟨⟨u, r⟩, inserted, returned⟩ := bind_ok h
    obtain ⟨rfl, accepted⟩ := insertOperation_ok inserted
    cases returned
    obtain ⟨absent, first⟩ := Bool.and_eq_true_iff.mp unborn
    have unborn : s.hasRelease q.releaseId = false := by simpa using absent
    have first : ∀ r ∈ s.operations, r.releaseId ≠ q.releaseId := by simpa using first
    have room (owned : q.storageKind = .owned) :
        s.bytesLeft d q.organizationId q.metadata.fileSize = true := by simpa [owned] using bytes
    exact .reserve fresh unborn first rfl ⟨rfl, rfl⟩ accepted history room

theorem cancel_moves {q : PublicationRequest} {answer : Operation × Bool}
    (h : cancel d w q s = .ok (t, answer)) : Moves d s ⟨w, .cancel q⟩ t := by
  obtain ⟨_, -, h⟩ := bind_ok h
  obtain ⟨row, loaded, h⟩ := orRaise_bind h
  obtain ⟨here, accepted, -⟩ := load_some loaded
  split at h
  · cases h
    exact .same
  · obtain ⟨pending, h⟩ := require_bind h
    obtain ⟨-, h⟩ := require_bind h
    obtain ⟨⟨u, r⟩, moved, returned⟩ := bind_ok h
    obtain ⟨rfl, rfl, next⟩ := transition_ok moved
    cases returned
    exact .cancel ⟨here, accepted, fun _ => rfl, next⟩ (accepted.undecided pending) ⟨rfl, rfl⟩

theorem pendingArtifact_ok {q : PublicationRequest} (h : pendingArtifact d w q s = .ok row) :
    Table.lookup s.operations row.operationId = some row ∧ Accepted d.sha256 row ∧
      row.pending = true := by
  obtain ⟨found, loaded, h⟩ := orRaise_bind h
  obtain ⟨pending, h⟩ := require_bind h
  obtain ⟨-, h⟩ := require_bind h
  obtain ⟨_, -, h⟩ := bind_ok h
  obtain ⟨-, h⟩ := require_bind h
  obtain rfl : found = row := Except.ok.inj h
  obtain ⟨here, accepted, -⟩ := load_some loaded
  exact ⟨here, accepted, (Bool.and_eq_true_iff.mp pending).1⟩

theorem recordPrepared_moves {q : PublicationRequest} {receipt : Intent} {answer : Operation}
    (h : recordPrepared d w q receipt s = .ok (t, answer)) :
    Moves d s ⟨w, .recordPrepared q receipt⟩ t := by
  obtain ⟨-, h⟩ := require_bind h
  obtain ⟨_, -, h⟩ := bind_ok h
  obtain ⟨row, checked, h⟩ := bind_ok h
  obtain ⟨here, accepted, pending⟩ := pendingArtifact_ok checked
  have undecided := accepted.undecided pending
  split at h
  · cases h
    exact .same
  · obtain ⟨rfl, -, next⟩ := transition_ok h
    exact .prepare ⟨here, accepted, fun _ => rfl, next⟩ undecided ⟨undecided, rfl⟩

theorem hasRelease_eq_false {id : Uuid} (h : Table.lookup s.releases id = none) :
    s.hasRelease id = false := by
  simpa [Db.hasRelease] using Table.lookup_none.mp h

theorem hasRelease_of_lookup {id : Uuid} {release : Release}
    (h : Table.lookup s.releases id = some release) : s.hasRelease id = true :=
  List.any_eq_true.mpr ⟨release, Table.lookup_mem h, decide_eq_true (Table.lookup_key h)⟩

/-- What the transaction that publishes finds. -/
theorem publicationState_ok {q : PublicationRequest} {release : Option Release}
    (h : publicationState d w q s = .ok (row, release)) :
    Table.lookup s.operations row.operationId = some row ∧ Accepted d.sha256 row ∧
      row.kind = .publish ∧
      (row.decision = some .published ∨ (row.decision = none ∧ s.hasRelease row.releaseId = false)) := by
  obtain ⟨r, loaded, h⟩ := orRaise_bind h
  obtain ⟨here, accepted, binds⟩ := load_some loaded
  have kind : r.kind = .publish := by
    simp only [PublicationRequest.binds, Bool.and_eq_true, decide_eq_true_eq] at binds
    exact binds.1.1.1.1.1.1.1.1
  obtain ⟨_, -, h⟩ := bind_ok h
  split at h
  · next decided =>
    obtain ⟨-, h⟩ := require_bind h
    cases h
    exact ⟨here, accepted, kind, .inl decided.2⟩
  · obtain ⟨pending, h⟩ := require_bind h
    obtain ⟨absent, h⟩ := require_bind h
    obtain ⟨_, -, h⟩ := bind_ok h
    cases h
    have undecided := accepted.undecided (Bool.and_eq_true_iff.mp pending).1
    exact ⟨here, accepted, kind, .inr ⟨undecided, hasRelease_eq_false (by simpa using absent)⟩⟩

theorem target_some {q : DeletionRequest} {release : Release} (h : target w q s = .ok (some release)) :
    s.hasRelease release.id = true ∧ release.id = q.releaseId := by
  unfold target at h
  cases found : Table.lookup s.releases q.releaseId with
  | none =>
    rw [found] at h
    cases h
  | some r =>
    rw [found] at h
    obtain ⟨_, -, h⟩ := bind_ok h
    obtain ⟨-, returned⟩ := require_bind h
    obtain rfl : r = release := Option.some.inj (Except.ok.inj returned)
    have id : r.id = q.releaseId := Table.lookup_key found
    exact ⟨id ▸ hasRelease_of_lookup found, id⟩

theorem publish_moves {q : PublicationRequest} {signature : Option String} {identity : Option Uuid}
    {artifact : Option Intent} {answer : PublicationResult}
    (h : publish d w q signature identity artifact s = .ok (t, answer)) :
    Moves d s ⟨w, .publish q signature identity artifact⟩ t := by
  obtain ⟨_, -, h⟩ := bind_ok h
  obtain ⟨⟨row, release⟩, state, h⟩ := bind_ok h
  obtain ⟨here, accepted, kind, open_⟩ := publicationState_ok state
  dsimp only at h
  split at h
  · cases h
    exact .same
  · next unpublished =>
    obtain ⟨undecided, unborn⟩ := open_.resolve_left unpublished
    obtain ⟨_, -, h⟩ := bind_ok h
    obtain ⟨_, -, h⟩ := bind_ok h
    obtain ⟨⟨u, r⟩, prepared, h⟩ := bind_ok h
    obtain ⟨f, rfl, same, tables⟩ := prepareFirst_ok prepared
    obtain ⟨⟨v, r⟩, decided, returned⟩ := bind_ok h
    obtain ⟨rfl, -, next⟩ := transition_ok decided
    cases returned
    have id : (f row).releaseId = row.releaseId := (Operation.of_identity (same row)).2.2.1
    rw [advance_twice (u := u.insertRelease _) same (congrArg Db.operations tables)]
    have advances : Advances d s row
        (Operation.decide .published 2 w.actor (d.clock (u.readings + 1)) ∘ f) :=
      ⟨here, accepted, fun r => same r, next⟩
    rw [tables]
    exact .publish (n := u.readings + 2) advances undecided kind ⟨rfl, rfl⟩ unborn id

theorem reserveDeletion_moves {q : DeletionRequest} {answer : Operation × Bool}
    (h : reserveDeletion d w q s = .ok (t, answer)) : Moves d s ⟨w, .reserveDeletion q⟩ t := by
  obtain ⟨_, -, h⟩ := bind_ok h
  obtain ⟨existing, loaded, h⟩ := bind_ok h
  cases existing with
  | some r =>
    cases h
    exact .same
  | none =>
    have fresh := loadDeletion_none loaded
    obtain ⟨release, found, h⟩ := orRaise_bind h
    obtain ⟨-, h⟩ := require_bind h
    obtain ⟨history, h⟩ := require_bind h
    obtain ⟨_, -, h⟩ := bind_ok h
    obtain ⟨_, -, h⟩ := bind_ok h
    obtain ⟨⟨u, r⟩, inserted, returned⟩ := bind_ok h
    obtain ⟨rfl, accepted⟩ := insertOperation_ok inserted
    cases returned
    exact .reserveDeletion fresh (target_some found).1 rfl ⟨rfl, rfl⟩ accepted history

theorem delete_moves {q : DeletionRequest} {answer : DeletionResult}
    (h : delete d w q s = .ok (t, answer)) : Moves d s ⟨w, .delete q⟩ t := by
  obtain ⟨_, -, h⟩ := bind_ok h
  obtain ⟨row, loaded, h⟩ := orRaise_bind h
  obtain ⟨here, accepted, binds⟩ := loadDeletion_some loaded
  simp only [DeletionRequest.binds, Bool.and_eq_true, decide_eq_true_eq] at binds
  split at h
  · cases h
    exact .same
  · obtain ⟨pending, h⟩ := require_bind h
    obtain ⟨release, found, h⟩ := orRaise_bind h
    obtain ⟨_, -, h⟩ := bind_ok h
    obtain ⟨_, -, h⟩ := bind_ok h
    obtain ⟨-, h⟩ := require_bind h
    obtain ⟨⟨u, r⟩, prepared, h⟩ := bind_ok h
    obtain ⟨f, rfl, same, tables⟩ := prepareFirst_ok prepared
    obtain ⟨⟨v, r⟩, decided, returned⟩ := bind_ok h
    obtain ⟨rfl, -, next⟩ := transition_ok decided
    cases returned
    have id : (f row).releaseId = row.releaseId := (Operation.of_identity (same row)).2.2.1
    rw [advance_twice (u := u.deleteRelease _) same (congrArg Db.operations tables)]
    have live : s.hasRelease row.releaseId = true := by
      rw [binds.1.1.1.1.1.2, ← (target_some found).2]
      exact (target_some found).1
    have advances : Advances d s row
        (Operation.decide .deleted 2 w.actor (d.clock u.readings) ∘ f) :=
      ⟨here, accepted, fun r => same r, next⟩
    rw [tables, id]
    exact .delete (n := u.readings + 1) advances
      (accepted.undecided (Bool.and_eq_true_iff.mp pending).1) binds.1.1.1.1.1.1 ⟨rfl, rfl⟩ live

theorem cancelDeletion_moves {q : DeletionRequest} {answer : DeletionResult}
    (h : cancelDeletion d w q s = .ok (t, answer)) : Moves d s ⟨w, .cancelDeletion q⟩ t := by
  obtain ⟨_, -, h⟩ := bind_ok h
  obtain ⟨row, loaded, h⟩ := orRaise_bind h
  obtain ⟨here, accepted, -⟩ := loadDeletion_some loaded
  split at h
  · cases h
    exact .same
  · obtain ⟨pending, h⟩ := require_bind h
    obtain ⟨⟨u, r⟩, moved, returned⟩ := bind_ok h
    obtain ⟨rfl, rfl, next⟩ := transition_ok moved
    cases returned
    exact .cancel ⟨here, accepted, fun _ => rfl, next⟩
      (accepted.undecided (Bool.and_eq_true_iff.mp pending).1) ⟨rfl, rfl⟩

theorem publicationOf_some {id : Uuid} {p : Operation} (h : publicationOf d s id = .ok (some p)) :
    p ∈ s.operations ∧ p.kind = .publish ∧ p.releaseId = id ∧ Accepted d.sha256 p := by
  unfold publicationOf at h
  split at h
  · cases h
  · next r one =>
    obtain ⟨q, recorded, some_⟩ := map_ok h
    obtain rfl := Option.some.inj some_
    obtain ⟨rfl, accepted⟩ := record_ok recorded
    have mem : q ∈ s.operations.filter fun r => r.kind = .publish && r.releaseId = id := by
      rw [one]
      exact List.mem_singleton_self _
    obtain ⟨inside, holds⟩ := List.mem_filter.mp mem
    simp only [Bool.and_eq_true, decide_eq_true_eq] at holds
    exact ⟨inside, holds.1, holds.2, accepted⟩
  · cases h

/-- What `_inspect_db` finds. -/
theorem inspectDb_ok {q : CleanupRequest} {plan : Plan} (h : inspectDb d w q s = .ok (row, plan)) :
    Table.lookup s.operations row.operationId = some row ∧ Accepted d.sha256 row ∧
      (row.decision = some .cancelled ∨ row.decision = some .deleted) ∧
      ∃ original, planReleaseCleanup d.sha256 row original (s.hasRelease row.releaseId) = .ok plan ∧
        (row.kind = .publish → original = none) ∧
        ∀ p ∈ original, p ∈ s.operations := by
  obtain ⟨-, h⟩ := require_bind h
  obtain ⟨r, loaded, h⟩ := orRaise_bind h
  have found : Table.lookup s.operations r.operationId = some r ∧ Accepted d.sha256 r := by
    cases q with
    | publication q =>
      obtain ⟨here, accepted, -⟩ := load_some loaded
      exact ⟨here, accepted⟩
    | deletion q =>
      obtain ⟨here, accepted, -⟩ := loadDeletion_some loaded
      exact ⟨here, accepted⟩
  obtain ⟨decided, h⟩ := require_bind h
  obtain ⟨-, h⟩ := require_bind h
  obtain ⟨original, fetched, h⟩ := bind_ok h
  obtain ⟨-, h⟩ := require_bind h
  obtain ⟨p, planned, returned⟩ := bind_ok h
  cases returned
  refine ⟨found.1, found.2, ?_, original, planned, fun publish => ?_, fun p mem => ?_⟩
  · simpa using (Bool.and_eq_true_iff.mp decided).2
  · simp only [originalOf, publish, reduceCtorEq, false_and, ↓reduceIte] at fetched
    exact (Except.ok.inj fetched).symm
  · unfold originalOf at fetched
    split at fetched
    · rw [Option.mem_def.mp mem] at fetched
      exact (publicationOf_some fetched).1
    · cases fetched
      cases mem

theorem recordCleaned_moves {q : CleanupRequest} {expected : Plan} {receipt : Option CleanedArtifact}
    {retirement : Option String} {answer : CleanupResult}
    (h : recordCleaned d w q expected receipt retirement s = .ok (t, answer)) :
    Moves d s ⟨w, .recordCleaned q expected receipt retirement⟩ t := by
  obtain ⟨_, -, h⟩ := bind_ok h
  obtain ⟨⟨row, plan⟩, inspected, h⟩ := bind_ok h
  obtain ⟨same, h⟩ := require_bind h
  obtain rfl : expected = plan := of_decide_eq_true same
  obtain ⟨⟨⟩, receipted, h⟩ := bind_ok h
  obtain ⟨here, accepted, -⟩ := inspectDb_ok inspected
  split at h
  · cases h
    exact .same
  · obtain ⟨⟨u, r⟩, moved, returned⟩ := bind_ok h
    obtain ⟨rfl, rfl, next⟩ := transition_ok moved
    cases returned
    exact .clean ⟨here, accepted, fun _ => rfl, next⟩ inspected receipted ⟨rfl, rfl⟩

theorem promote_moves {snapshot answer : Release} {identity : Option Uuid}
    (h : promote w snapshot identity s = .ok (t, answer)) :
    Moves d s ⟨w, .promote snapshot identity⟩ t := by
  obtain ⟨_, -, h⟩ := bind_ok h
  obtain ⟨_, -, h⟩ := bind_ok h
  obtain ⟨release, found, h⟩ := bind_ok h
  obtain ⟨_, -, h⟩ := bind_ok h
  obtain ⟨-, h⟩ := require_bind h
  obtain ⟨-, h⟩ := require_bind h
  obtain ⟨-, h⟩ := require_bind h
  cases h
  exact .promote (orRaise_ok found)

theorem Moves.of_step {e : Event} (h : step d s e = some t) : Moves d s e t := by
  obtain ⟨w, transaction⟩ := e
  unfold step at h
  cases done : perform d w s transaction with
  | error refusal =>
    rw [done] at h
    cases h
    exact .same
  | ok u =>
    rw [done] at h
    cases h
    cases transaction with
    | reserve q =>
      obtain ⟨⟨_, _⟩, run, rfl⟩ := map_ok done
      exact reserve_moves run
    | cancel q =>
      obtain ⟨⟨_, _⟩, run, rfl⟩ := map_ok done
      exact cancel_moves run
    | recordPrepared q receipt =>
      obtain ⟨⟨_, _⟩, run, rfl⟩ := map_ok done
      exact recordPrepared_moves run
    | publish q signature identity artifact =>
      obtain ⟨⟨_, _⟩, run, rfl⟩ := map_ok done
      exact publish_moves run
    | reserveDeletion q =>
      obtain ⟨⟨_, _⟩, run, rfl⟩ := map_ok done
      exact reserveDeletion_moves run
    | delete q =>
      obtain ⟨⟨_, _⟩, run, rfl⟩ := map_ok done
      exact delete_moves run
    | cancelDeletion q =>
      obtain ⟨⟨_, _⟩, run, rfl⟩ := map_ok done
      exact cancelDeletion_moves run
    | recordCleaned q expected receipt retirement =>
      obtain ⟨⟨_, _⟩, run, rfl⟩ := map_ok done
      exact recordCleaned_moves run
    | promote snapshot identity =>
      obtain ⟨⟨_, _⟩, run, rfl⟩ := map_ok done
      exact promote_moves run

end

end FreeSdn.Releases
